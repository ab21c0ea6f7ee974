import Communo.Survival
import Communo.Transitions

/-! Where the packets of a run come from. A step writes the answers to the packet
it dispatches, the complaint about a single byte, or a tail of the greeting. -/

namespace Communo.Writes
open Lib.ByteCodec Lib.CheckedMemory Lib.Runs Protocol NumParser Session Handlers MainLoop Dispatch Transitions Survival

def handlerView (input : Input) (config : Config) (received : Received) : View :=
  physicalView input.ambient (receive config.server.buffer received.bytes)

def loaded (config : Config) (received : Received) : Server :=
  { config.server with buffer := receive config.server.buffer received.bytes }

theorem handlerView_delivers (input : Input) (config : Config) (received : Received) :
    Delivers (handlerView input config received) received.bytes :=
  physicalView_delivers input.ambient config.server.buffer received

section Dispatch
variable {host : Host} {input : Input} {config next : Config} {received : Received}

theorem step_of_received {it : Nat} (present : it < config.server.clientSockets.length)
    (reached : config.pc = .processRequests it) (isOpen : config.server.serverState ≠ .closing)
    (ready : config.server.readfds (config.server.clientSockets.get ⟨it, present⟩).socket = true)
    (data : input.read = .data received) (long : 2 ≤ received.bytes.length) :
    step host input config =
      (callHandler host (handlerView input config received) (loaded config received) ⟨it, present⟩
        received.bytes.length).bind fun handled =>
          .ok { config with
            server := handled.1,
            pc := .processRequests (it + 1),
            trace := config.trace ++ ([Call.fdIsSet (config.server.clientSockets.get ⟨it, present⟩).socket,
              .sslRead (config.server.clientSockets.get ⟨it, present⟩).ssl (.data received),
              .callHandler (config.server.clientSockets.get ⟨it, present⟩).ssl received.bytes] ++ handled.2) } := by
  simp only [step, reached, dif_pos present, visit_data isOpen ready data, if_pos long, bind_bind]
  rfl

theorem step_of_single {it : Nat} (present : it < config.server.clientSockets.length)
    (reached : config.pc = .processRequests it) (isOpen : config.server.serverState ≠ .closing)
    (ready : config.server.readfds (config.server.clientSockets.get ⟨it, present⟩).socket = true)
    (data : input.read = .data received) (single : received.bytes.length < 2) :
    step host input config = .ok { config with
      server := loaded config received,
      pc := .processRequests (it + 1),
      trace := config.trace ++ ([Call.fdIsSet (config.server.clientSockets.get ⟨it, present⟩).socket,
        .sslRead (config.server.clientSockets.get ⟨it, present⟩).ssl (.data received)] ++
        sendSSLPacketToClientSocket (handlerView input config received)
          (config.server.clientSockets.get ⟨it, present⟩) (text "Invalid packet.")) } := by
  simp only [step, reached, dif_pos present, visit_data isOpen ready data, if_neg (not_le.mpr single), bind_ok]
  rfl

/-- What came of a packet that was read and dispatched. -/
structure Served (host : Host) (input : Input) (config next : Config) (received : Received)
    (it : Fin config.server.clientSockets.length) (calls : List Call) : Prop where
  reached : config.pc = .processRequests it
  handled : callHandler host (handlerView input config received) (loaded config received) it received.bytes.length =
    .ok (next.server, calls)
  trace : next.trace = config.trace ++ ([Call.fdIsSet (config.server.clientSockets.get it).socket,
    .sslRead (config.server.clientSockets.get it).ssl (.data received),
    .callHandler (config.server.clientSockets.get it).ssl received.bytes] ++ calls)

theorem served_of_receives (receives : Receives input config received) (long : 2 ≤ received.bytes.length)
    (stepped : step host input config = .ok next) : ∃ it calls, Served host input config next received it calls := by
  obtain ⟨it, present, reached, isOpen, ready, data⟩ := receives
  rw [step_of_received present reached isOpen ready data long] at stepped
  obtain ⟨⟨server, calls⟩, handled, returned⟩ := bind_eq_ok.mp stepped
  cases Except.ok.inj returned
  exact ⟨⟨it, present⟩, calls, reached, handled, rfl⟩

namespace Served
variable {it : Fin config.server.clientSockets.length} {calls : List Call}
  (served : Served host input config next received it calls)
include served

theorem effect (long : 2 ≤ received.bytes.length) :
    Handled (handlerView input config received) (loaded config received) it received.bytes next.server calls :=
  (dispatched_of_callHandler (handlerView_delivers input config received) long served.handled).1

theorem answers (long : 2 ≤ received.bytes.length) :
    ∀ call ∈ calls, Answers host (handlerView input config received) (loaded config received)
      (config.server.clientSockets.get it) received.bytes call :=
  (dispatched_of_callHandler (handlerView_delivers input config received) long served.handled).2

theorem buffer_eq (long : 2 ≤ received.bytes.length) :
    next.server.buffer = receive config.server.buffer received.bytes :=
  (served.effect long).buffer_eq

end Served

end Dispatch

theorem sendMOTD_calls (ambient : Ambient) (client : ClientSocket) :
    ∀ call ∈ sendMOTD ambient client,
      (∃ start < motdPacket.length, call = .sslWrite client.ssl (motdPacket.drop start)) ∨
        call = .sslGetError client.ssl := by
  have whole : motdPacket = motdPacket.drop 0 := rfl
  unfold sendMOTD
  intro call member
  rw [whole] at member
  exact motdLoop_calls _ _ _ 0 call member

section Origin
variable {host : Host} {input : Input} {config next : Config}

/-- Where a packet that a step writes comes from. -/
inductive Written (host : Host) (input : Input) (config : Config) : Option Handle → List Byte → Prop where
  | reply (received : Received) (it : Fin config.server.clientSockets.length)
      (reached : config.pc = .processRequests it) (receives : Receives input config received)
      (long : 2 ≤ received.bytes.length) (session : ClientSocket) (packet : List Byte)
      (sent : Reply host (handlerView input config received) (loaded config received)
        (config.server.clientSockets.get it) received.bytes session packet) :
      Written host input config session.ssl packet
  | invalid (received : Received) (it : Fin config.server.clientSockets.length)
      (reached : config.pc = .processRequests it) (receives : Receives input config received)
      (single : received.bytes.length < 2) :
      Written host input config (config.server.clientSockets.get it).ssl (text "Invalid packet.")
  | greeting (reached : config.pc = .handleNewConnections) (start : Nat) (inside : start < motdPacket.length) :
      Written host input config (some config.fresh) (motdPacket.drop start)

def Unwritten (call : Call) : Prop := ∀ ssl packet, call ≠ .sslWrite ssl packet

theorem Unwritten.of_releases {fd : Int} {ssl : Option Handle} {call : Call} (releases : Releases fd ssl call) :
    Unwritten call := by
  intro handle packet same
  subst same
  exact releases.elim

theorem Unwritten.of_quiet {call : Call} (quiet : Quiet call) : Unwritten call := by
  intro handle packet same
  subst same
  exact quiet.elim

theorem written_of_handleNewConnections (reached : config.pc = .handleNewConnections) {ssl : Option Handle}
    {packet : List Byte} (made : .sslWrite ssl packet ∈ (handleNewConnections input config.fresh config.server).2.2) :
    Written host input config ssl packet := by
  unfold handleNewConnections at made
  split at made
  · split at made
    · simp at made
    · rcases initSSL_cases config.fresh input.handshake
          { socket := input.acceptedFd, clientID := config.server.uniqueClientCounter } with
        ⟨calls, outcome, -, quiet⟩ | ⟨dropped, calls, outcome, plain, released⟩
      · simp only [outcome, if_true, pushBack_eq, List.append_nil, List.mem_append, List.mem_cons, reduceCtorEq,
          List.not_mem_nil, or_self, false_or] at made
        rcases made with negotiated | greeted
        · exact absurd rfl (Unwritten.of_quiet (quiet _ negotiated) ssl packet)
        · split at greeted
          · rcases sendMOTD_calls _ _ _ greeted with ⟨start, inside, same⟩ | same
            · obtain ⟨rfl, rfl⟩ := Call.sslWrite.inj same
              exact .greeting reached start inside
            · exact absurd same (by simp)
          · simp at greeted
      · simp only [outcome, Bool.false_eq_true, if_false, ClientSocket.destroy, plain, Option.isSome_none,
          List.append_nil, List.mem_append, List.mem_cons, reduceCtorEq, List.not_mem_nil, or_self, false_or,
          or_false] at made
        exact absurd rfl (Unwritten.of_releases (released _ made) ssl packet)
  · simp at made

theorem unwritten_erased (sockets : List ClientSocket) (it : Fin sockets.length) :
    ∀ call ∈ (sockets.get it).close ++ (erase sockets it).2, Unwritten call := by
  intro call member
  rcases List.mem_append.mp member with closed | moved
  · exact .of_releases (releases_close _ none call closed)
  · exact .of_releases (releases_erase sockets it call moved)

theorem written_of_visit {it : Nat} (present : it < config.server.clientSockets.length)
    (reached : config.pc = .processRequests it) {server : Server} {position : Nat} {calls : List Call}
    (visited : visit host input config.server ⟨it, present⟩ = .ok (server, position, calls)) {ssl : Option Handle}
    {packet : List Byte} (made : .sslWrite ssl packet ∈ calls) : Written host input config ssl packet := by
  by_cases closing : config.server.serverState = .closing
  · rw [visit_closing closing] at visited
    cases Except.ok.inj visited
    exact absurd rfl (unwritten_erased _ ⟨it, present⟩ _ made ssl packet)
  · cases ready : config.server.readfds (config.server.clientSockets.get ⟨it, present⟩).socket with
    | false =>
      rw [visit_idle closing ready] at visited
      cases Except.ok.inj visited
      simp at made
    | true =>
      by_cases lost : ∀ received, input.read ≠ .data received
      · rw [visit_lost closing ready lost] at visited
        cases Except.ok.inj visited
        rw [List.append_assoc, List.mem_append] at made
        rcases made with polled | erased
        · simp at polled
        · exact absurd rfl (unwritten_erased _ ⟨it, present⟩ _ erased ssl packet)
      · push Not at lost
        obtain ⟨received, data⟩ := lost
        have receives : Receives input config received := ⟨it, present, reached, closing, ready, data⟩
        rw [visit_data closing ready data] at visited
        by_cases long : 2 ≤ received.bytes.length
        · rw [if_pos long] at visited
          obtain ⟨handled, called, returned⟩ := bind_eq_ok.mp visited
          cases Except.ok.inj returned
          have answers := (dispatched_of_callHandler (handlerView_delivers input config received) long called).2
          simp only [List.mem_append, List.mem_cons, reduceCtorEq, List.not_mem_nil, or_self, false_or] at made
          obtain ⟨session, reply, sent, same | same⟩ := answers _ made
          · obtain ⟨rfl, rfl⟩ := Call.sslWrite.inj same
            exact .reply received ⟨it, present⟩ reached receives long session _ sent
          · exact absurd same (by simp)
        · rw [if_neg long] at visited
          cases Except.ok.inj visited
          simp only [sendSSLPacketToClientSocket, List.mem_append, List.mem_cons, reduceCtorEq, List.not_mem_nil,
            or_self, false_or, Call.sslWrite.injEq] at made
          rcases made with ⟨rfl, rfl⟩ | failed
          · exact .invalid received ⟨it, present⟩ reached receives (by omega)
          · split at failed <;> simp at failed

theorem unwritten_loopEnd (closingRequested : Bool) (server : Server) :
    ∀ call ∈ (loopEnd closingRequested server).2, Unwritten call := by
  unfold loopEnd
  split
  · intro call member
    obtain ⟨client, -, closed⟩ := List.mem_flatMap.mp member
    exact .of_releases (releases_close client none call closed)
  · split <;> simp

/-- Every packet that a step adds to the trace has one of the three origins. -/
theorem written_of_step (stepped : step host input config = .ok next) {ssl : Option Handle} {packet : List Byte}
    (made : .sslWrite ssl packet ∈ next.trace.drop config.trace.length) : Written host input config ssl packet := by
  unfold step at stepped
  split at stepped
  · obtain rfl := Except.ok.inj stepped
    rw [List.drop_left] at made
    exact absurd rfl (Unwritten.of_quiet (quiet_poolActivity input.select config.server _ made) ssl packet)
  · next reached =>
    obtain rfl := Except.ok.inj stepped
    rw [List.drop_left] at made
    exact written_of_handleNewConnections reached made
  · next it reached =>
    split at stepped
    · next present =>
      obtain ⟨visited, went, returned⟩ := bind_eq_ok.mp stepped
      cases Except.ok.inj returned
      rw [List.drop_left] at made
      exact written_of_visit present reached went made
    · obtain rfl := Except.ok.inj stepped
      simp at made
  · obtain rfl := Except.ok.inj stepped
    rw [List.drop_left] at made
    exact absurd rfl (unwritten_loopEnd input.closingRequested config.server _ made ssl packet)
  · obtain rfl := Except.ok.inj stepped
    rw [List.drop_left] at made
    obtain ⟨client, -, destroyed⟩ := List.mem_flatMap.mp made
    exact absurd rfl (Unwritten.of_releases (releases_destroy client _ destroyed) ssl packet)
  · obtain rfl := Except.ok.inj stepped
    simp at made

end Origin

end Communo.Writes
