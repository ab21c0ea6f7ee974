import Communo.Conversations
import Communo.Lib.Links

/-! The server and its clients together. Requests and replies travel in order
and may be on their way for any time; each client is asked for requests by its
user and looks at replies in another thread. -/

namespace Communo.Network
open Lib.ByteCodec Lib.CheckedMemory Lib.Records Lib.Runs Lib.Transducers Lib.Links Protocol NumParser Chat Session Handlers MainLoop
  Client Dispatch Addition Transitions Survival Writes Framing ReplyDecoding ReplySizes PrivateMessages ChatService
  Refinement ServiceRuns ServiceLaws Conversations

/-- A client goes by the handle of its session. What its user has asked for and what it has shown is kept. -/
structure World where
  config : Config
  requests : Handle → List Request
  upstream : Handle → Link (List Byte)
  downstream : Handle → Link (List Byte)
  screen : Handle → List Shown

def World.opening (boot : Boot) : World where
  config := boot.config
  requests _ := []
  upstream _ := .idle
  downstream _ := .idle
  screen _ := []

inductive Action where
  | serve (input : Input)
  | ask (client : Handle) (request : Request)
  | look (client : Handle)

/-- What the client's reads return for the packets that were written to it. -/
def departures (calls : List Call) (client : Handle) : List (List Byte) :=
  (toward (some client) (packetsWritten calls)).flatMap (reads recordSize bufferSize)

/-- A step of the server, a call of a send function, or a look for a reply. -/
def act (host : Host) (sha256 : Sha256) (memory : List Byte → Mem) : Action → World → Checked Exn World
  | .serve input, world =>
      (step host input world.config).bind fun next =>
        let calls := next.trace.drop world.config.trace.length
        .ok { world with
          config := next
          upstream := fun client => (world.upstream client).deliver (bytesRead (some client) calls).length
          downstream := fun client => (world.downstream client).send (departures calls client) }
  | .ask client request, world =>
      .ok { world with
        requests := Function.update world.requests client (world.requests client ++ [request])
        upstream := Function.update world.upstream client
          ((world.upstream client).send (transmitted host.order sha256 [request])) }
  | .look client, world =>
      match (world.downstream client).inFlight with
      | [] => .ok world
      | reply :: _ =>
          (processReplyFromServerIfAny host.order memory reply).bind fun shown =>
            .ok { world with
              downstream := Function.update world.downstream client ((world.downstream client).deliver 1)
              screen := Function.update world.screen client (world.screen client ++ [shown]) }

def ReadsFrom (client : Handle) (input : Input) (config : Config) (received : Received) : Prop :=
  ∃ (it : Nat) (present : it < config.server.clientSockets.length), config.pc = .processRequests it ∧
    config.server.serverState ≠ .closing ∧
    config.server.readfds (config.server.clientSockets.get ⟨it, present⟩).socket = true ∧
    input.read = .data received ∧ (config.server.clientSockets.get ⟨it, present⟩).ssl = some client

/-- Writes go through, reads return what is next on the link, requests fit the server's
buffer, and nobody asks for something with an answer that does not fit the client's. -/
def Permitted (host : Host) : Action → World → Prop
  | .serve input, world =>
      (∀ ssl packet, input.ambient.written ssl packet = packet.length) ∧ ¬Overruns host input world.config ∧
        ∀ client received, ReadsFrom client input world.config received →
          (world.upstream client).inFlight.head? = some received.bytes
  | .ask _ request, _ => Fits request
  | .look _, _ => True

abbrev NetworkRun (host : Host) (sha256 : Sha256) (memory : List Byte → Mem) (boot : Boot) : List Action → World → Prop :=
  Execution (act host sha256 memory) (Permitted host) (.opening boot)

section Reads
variable {input : Input} {config next : Config} {calls : List Call}

theorem mute_of_releases {fd : Int} {ssl : Option Handle} (released : ∀ call ∈ calls, Releases fd ssl call) :
    ∀ call ∈ calls, Mute call := fun call made => .of_releases (released call made)

theorem mute_flatMap {sockets : List ClientSocket} {each : ClientSocket → List Call}
    (released : ∀ client, ∀ call ∈ each client, Releases client.socket client.ssl call) :
    ∀ call ∈ sockets.flatMap each, Mute call := by
  intro call made
  obtain ⟨client, -, called⟩ := List.mem_flatMap.mp made
  exact .of_releases (released client call called)

theorem bytesRead_polled (fd : Int) (ssl : Option Handle) (received : Received) (client : Handle) :
    bytesRead (some client) [.fdIsSet fd, .sslRead ssl (.data received)] =
      if ssl = some client then [received.bytes] else [] := by
  by_cases own : ssl = some client <;> simp only [bytesRead, List.filterMap_cons, own, List.filterMap_nil] <;> simp

theorem bytesRead_of_stepped (stepped : Stepped input config next calls) (client : Handle) :
    bytesRead (some client) calls = [] ∨
      ∃ received, ReadsFrom client input config received ∧ bytesRead (some client) calls = [received.bytes] := by
  cases stepped with
  | visited it present reached server position calls effect =>
    have reads (isOpen : config.server.serverState ≠ .closing)
        (ready : config.server.readfds (config.server.clientSockets.get ⟨it, present⟩).socket = true)
        {received : Received} (data : input.read = .data received) {rest : List Call}
        (unread : bytesRead (some client) rest = []) :
        bytesRead (some client) ([.fdIsSet (config.server.clientSockets.get ⟨it, present⟩).socket,
            .sslRead (config.server.clientSockets.get ⟨it, present⟩).ssl (.data received)] ++ rest) = [] ∨
          ∃ received', ReadsFrom client input config received' ∧
            bytesRead (some client) ([.fdIsSet (config.server.clientSockets.get ⟨it, present⟩).socket,
              .sslRead (config.server.clientSockets.get ⟨it, present⟩).ssl (.data received)] ++ rest) =
              [received'.bytes] := by
      rw [bytesRead_append, unread, List.append_nil, bytesRead_polled]
      by_cases own : (config.server.clientSockets.get ⟨it, present⟩).ssl = some client
      · exact Or.inr ⟨received, ⟨it, present, reached, isOpen, ready, data, own⟩, if_pos own⟩
      · exact Or.inl (if_neg own)
    cases effect with
    | closing =>
      refine Or.inl (bytesRead_of_mute _ fun call made => ?_)
      rcases List.mem_append.mp made with closed | moved
      · exact .of_releases (releases_close _ none call closed)
      · exact .of_releases (releases_erase _ ⟨it, present⟩ call moved)
    | idle => exact Or.inl rfl
    | lost isOpen ready lost =>
      left
      rw [bytesRead_append, bytesRead_append, bytesRead_of_mute _ (mute_of_releases (releases_close _ none)),
        bytesRead_of_mute _ (mute_of_releases (releases_erase _ ⟨it, present⟩)), List.append_nil, List.append_nil]
      cases read : input.read with
      | data received => exact absurd read (lost received)
      | _ => rfl
    | short isOpen ready received data single reply replies =>
      apply reads isOpen ready data
      exact bytesRead_of_mute _ fun call made => .of_isReply (isReply_of_plainReply (replies call made))
    | handled isOpen ready received data long server reply effect =>
      have unread : bytesRead (some client) reply = [] :=
        bytesRead_of_mute _ fun call made => .of_isReply (effect.isReply call made)
      have dispatch : bytesRead (some client)
          (.callHandler (config.server.clientSockets.get ⟨it, present⟩).ssl received.bytes :: reply) = [] := unread
      exact reads isOpen ready data dispatch
  | polled _ _ _ quiet => exact Or.inl (bytesRead_of_mute _ fun call made => .of_quiet (quiet call made))
  | unanswered _ _ quiet => exact Or.inl (bytesRead_of_mute _ fun call made => .of_quiet (quiet call made))
  | refused _ _ _ _ _ _ released =>
    left
    rw [bytesRead_append, bytesRead_append, bytesRead_of_mute _ (mute_of_releases released)]
    rfl
  | admitted _ _ _ _ _ quiet greets =>
    left
    rw [bytesRead_append, bytesRead_append, bytesRead_of_mute _ fun call made => .of_quiet (quiet call made),
      bytesRead_of_mute _ fun call made => .of_isReply (isReply_of_plainReply (greets call made))]
    rfl
  | closed => exact Or.inl (bytesRead_of_mute _ (mute_flatMap fun client => releases_close client client.ssl))
  | returned => exact Or.inl (bytesRead_of_mute _ (mute_flatMap releases_destroy))
  | _ => exact Or.inl rfl

end Reads

structure Linked (host : Host) (sha256 : Sha256) (memory : List Byte → Mem) (world : World) : Prop where
  fits : ∀ client, ∀ request ∈ world.requests client, Fits request
  asked : ∀ client, (world.upstream client).sent = transmitted host.order sha256 (world.requests client)
  read : ∀ client, (world.upstream client).received = bytesRead (some client) world.config.trace
  written : ∀ client, (world.downstream client).sent = departures world.config.trace client
  shown : ∀ client, List.Forall₂ (fun reply shown => processReplyFromServerIfAny host.order memory reply = .ok shown)
    (world.downstream client).received (world.screen client)

section Runs
variable {host : Host} {sha256 : Sha256} {memory : List Byte → Mem} {boot : Boot} {actions : List Action} {world : World}

theorem linked_opening (boot : Boot) : Linked host sha256 memory (.opening boot) where
  fits := by simp [World.opening]
  asked _ := rfl
  read _ := rfl
  written _ := rfl
  shown _ := .nil

theorem transmitted_append (order : ByteOrder) (sha256 : Sha256) (first second : List Request) :
    transmitted order sha256 (first ++ second) = transmitted order sha256 first ++ transmitted order sha256 second := by
  simp only [transmitted, packets, List.filterMap_append, List.flatMap_append]

theorem departures_append (first second : List Call) (client : Handle) :
    departures (first ++ second) client = departures first client ++ departures second client := by
  rw [departures, packetsWritten_append, toward_append, List.flatMap_append]
  rfl

theorem Linked.act {action : Action} {later : World} (linked : Linked host sha256 memory world)
    (permitted : Permitted host action world) (acted : act host sha256 memory action world = .ok later) :
    Linked host sha256 memory later := by
  cases action with
  | serve input =>
    obtain ⟨next, stepped, returned⟩ := bind_eq_ok.mp acted
    cases Except.ok.inj returned
    obtain ⟨calls, effect⟩ := stepped_of_step stepped
    have grown := effect.trace_eq
    have made : next.trace.drop world.config.trace.length = calls := by rw [grown, List.drop_left]
    refine ⟨linked.fits, linked.asked, fun client => ?_, fun client => ?_, linked.shown⟩
    · simp only [made]
      rw [Link.deliver_received, linked.read client, grown, bytesRead_append]
      rcases bytesRead_of_stepped effect client with silent | ⟨received, readsFrom, read⟩
      · rw [silent]
        exact List.nil_prefix
      · rw [read, List.singleton_prefix_iff_head?_eq_some]
        exact permitted.2.2 client received readsFrom
    · simp only [made]
      rw [Link.send_sent, linked.written client, grown, departures_append]
  | ask client request =>
    cases Except.ok.inj acted
    refine ⟨fun other => ?_, fun other => ?_, fun other => ?_, linked.written, linked.shown⟩
    · rcases eq_or_ne other client with rfl | apart
      · simp only [Function.update_self]
        intro made member
        rcases List.mem_append.mp member with old | new
        · exact linked.fits other made old
        · rw [List.mem_singleton.mp new]
          exact permitted
      · simp only [Function.update_of_ne apart]
        exact linked.fits other
    · rcases eq_or_ne other client with rfl | apart
      · simp only [Function.update_self]
        rw [Link.send_sent, linked.asked other, transmitted_append]
      · simp only [Function.update_of_ne apart]
        exact linked.asked other
    · rcases eq_or_ne other client with rfl | apart
      · simp only [Function.update_self]
        exact linked.read other
      · simp only [Function.update_of_ne apart]
        exact linked.read other
  | look client =>
    simp only [Network.act] at acted
    split at acted
    · cases Except.ok.inj acted
      exact linked
    · next reply rest travels =>
      obtain ⟨shown, processed, returned⟩ := bind_eq_ok.mp acted
      cases Except.ok.inj returned
      refine ⟨linked.fits, linked.asked, linked.read, fun other => ?_, fun other => ?_⟩
      · rcases eq_or_ne other client with rfl | apart
        · simp only [Function.update_self]
          exact linked.written other
        · simp only [Function.update_of_ne apart]
          exact linked.written other
      · rcases eq_or_ne other client with rfl | apart
        · simp only [Function.update_self]
          have arrives : [reply] <+: (world.downstream other).inFlight := by
            rw [travels]
            exact List.prefix_append [reply] rest
          have received := Link.deliver_received arrives
          rw [List.length_singleton] at received
          rw [received]
          exact List.rel_append (linked.shown other) (.cons processed .nil)
        · simp only [Function.update_of_ne apart]
          exact linked.shown other

theorem linked_of_networkRun (ran : NetworkRun host sha256 memory boot actions world) :
    Linked host sha256 memory world :=
  ran.invariant (linked_opening boot) fun _ _ _ linked permitted acted => linked.act permitted acted

/-- A run of the network is a run of the server in which nothing overruns a client's buffer. -/
theorem serverRun_of_networkRun (ran : NetworkRun host sha256 memory boot actions world) :
    ∃ inputs, ServerRun host (fun input config => WritesWhole input.ambient ∧ ¬Overruns host input config) boot inputs
      world.config := by
  induction ran with
  | nil => exact ⟨[], .nil⟩
  | @snoc actions world later action before permitted acted ih =>
    obtain ⟨inputs, ran⟩ := ih
    cases action with
    | serve input =>
      obtain ⟨next, stepped, returned⟩ := bind_eq_ok.mp acted
      cases Except.ok.inj returned
      exact ⟨inputs ++ [input], .snoc ran ⟨fun ssl packet => Or.inr (permitted.1 ssl packet), permitted.2.1⟩ stepped⟩
    | ask client request =>
      cases Except.ok.inj acted
      exact ⟨inputs, ran⟩
    | look client =>
      simp only [act] at acted
      split at acted
      · cases Except.ok.inj acted
        exact ⟨inputs, ran⟩
      · obtain ⟨shown, -, returned⟩ := bind_eq_ok.mp acted
        cases Except.ok.inj returned
        exact ⟨inputs, ran⟩

end Runs

end Communo.Network
