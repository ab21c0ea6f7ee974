import Communo.Refinement

/-! Whole runs of the server as runs of the chat service: what is read is what is
asked, what is written is what is answered, and nothing else happens to the state. -/

namespace Communo.ServiceRuns
open Lib.ByteCodec Lib.CheckedMemory Lib.Runs Lib.KeyedList Lib.Transducers Protocol NumParser Chat Session Handlers MainLoop
  Dispatch Transitions Survival Writes Framing SessionTable ChatService Refinement

/-- `SSL_write` in its default mode: it fails or it writes the whole packet. -/
def WritesWhole (ambient : Ambient) : Prop :=
  ∀ ssl packet, ambient.written ssl packet ≤ 0 ∨ ambient.written ssl packet = packet.length

def packetsRead (calls : List Call) : List (Option Handle × List Byte) :=
  calls.filterMap fun
    | .sslRead ssl (.data received) => some (ssl, received.bytes)
    | _ => none

@[simp]
theorem packetsRead_append (first second : List Call) :
    packetsRead (first ++ second) = packetsRead first ++ packetsRead second :=
  List.filterMap_append

def asked (events : List Event) : List (Handle × Query) :=
  events.filterMap fun
    | .asked handle query _ => some (handle, query)
    | _ => none

@[simp]
theorem asked_append (first second : List Event) : asked (first ++ second) = asked first ++ asked second :=
  List.filterMap_append

/-- What the answers to the queries depend on besides: the clock and the memory behind a password. -/
def ambients (events : List Event) : List Ambient :=
  events.filterMap fun
    | .asked _ _ ambient => some ambient
    | _ => none

theorem ambients_append (first second : List Event) : ambients (first ++ second) = ambients first ++ ambients second :=
  List.filterMap_append

/-- The query is what some dispatch of the packet on a real machine takes it for. -/
def Means (host : Host) (read : Option Handle × List Byte) (ask : Handle × Query) : Prop :=
  read.1 = some ask.1 ∧
    ∃ ambient buffer, understood host (physicalView ambient (receive buffer read.2)) read.2 = .ok ask.2

/-- The packets written are the encoded answers, and the packets read are the queries. -/
def Explains (host : Host) (calls : List Call) (events : List Event) (outputs : List (Handle × Answer)) : Prop :=
  packetsWritten calls = outputs.map (encode host.order) ∧ List.Forall₂ (Means host) (packetsRead calls) (asked events)

inductive Understood (host : Host) : (first last : Nat → Byte) → List (Option Handle × List Byte) → List (Handle × Query) →
    Prop where
  | nil (buffer : Nat → Byte) : Understood host buffer buffer [] []
  | cons {first last : Nat → Byte} {reads : List (Option Handle × List Byte)} {asks : List (Handle × Query)}
      (handle : Handle) (received : Received) (query : Query) (ambient : Ambient)
      (means : understood host (physicalView ambient (receive first received.bytes)) received.bytes = .ok query)
      (rest : Understood host (receive first received.bytes) last reads asks) :
      Understood host first last ((some handle, received.bytes) :: reads) ((handle, query) :: asks)

section Buffer
variable {host : Host} {first middle last : Nat → Byte} {reads more : List (Option Handle × List Byte)}
  {asks others : List (Handle × Query)}

theorem Understood.append (early : Understood host first middle reads asks) (late : Understood host middle last more others) :
    Understood host first last (reads ++ more) (asks ++ others) := by
  induction early with
  | nil => exact late
  | cons handle received query ambient means _ ih => exact .cons handle received query ambient means (ih late)

theorem Understood.means (taken : Understood host first last reads asks) : List.Forall₂ (Means host) reads asks := by
  induction taken with
  | nil => exact .nil
  | @cons first _ _ _ handle received query ambient means _ ih => exact .cons ⟨rfl, ambient, first, means⟩ ih

end Buffer

/-- The calls are explained from one content of the buffer to another, at the moments of the inputs. -/
structure Recounts (host : Host) (first last : Nat → Byte) (inputs : List Input) (calls : List Call) (events : List Event)
    (outputs : List (Handle × Answer)) : Prop where
  written : packetsWritten calls = outputs.map (encode host.order)
  understood : Understood host first last (packetsRead calls) (asked events)
  ambients : (ambients events).Sublist (inputs.map Input.ambient)

theorem Recounts.explains {host : Host} {first last : Nat → Byte} {inputs : List Input} {calls : List Call}
    {events : List Event} {outputs : List (Handle × Answer)}
    (recounts : Recounts host first last inputs calls events outputs) : Explains host calls events outputs :=
  ⟨recounts.written, recounts.understood.means⟩

theorem additive_recounts (host : Host) : Additive (Recounts host) where
  nil buffer := ⟨rfl, .nil buffer, .refl []⟩
  append early late := by
    constructor
    · rw [packetsWritten_append, List.map_append, early.written, late.written]
    · rw [packetsRead_append, asked_append]
      exact early.understood.append late.understood
    · rw [ambients_append, List.map_append]
      exact early.ambients.append late.ambients

/-- The service is in the state of the server, and knows no handle that is yet to be allocated. -/
structure Tracks (config : Config) (service : Service) : Prop where
  represents : Represents config.server service
  bound : service.bound ≤ config.fresh

/-- The later configuration is tracked by what the service makes of some events that explain the calls. -/
abbrev Follows (host : Host) (config : Config) (inputs : List Input) (service : Service) (calls : List Call)
    (next : Config) : Prop :=
  Followed (react host) service (Recounts host config.server.buffer next.server.buffer inputs) Tracks calls next

section Silence
variable {calls : List Call}

theorem packetsRead_of_mute (mute : ∀ call ∈ calls, Mute call) : packetsRead calls = [] := by
  apply List.filterMap_eq_nil_iff.mpr
  intro call member
  have silent := mute call member
  cases call <;> first | rfl | exact silent.elim

theorem packetsWritten_of_unwritten (unwritten : ∀ call ∈ calls, Unwritten call) : packetsWritten calls = [] := by
  apply List.filterMap_eq_nil_iff.mpr
  intro call member
  have silent := unwritten call member
  cases call <;> first | rfl | exact absurd rfl (silent _ _)

theorem ambients_eq_nil {events : List Event} (nothing : asked events = []) : ambients events = [] := by
  rw [ambients, List.filterMap_eq_nil_iff]
  intro event happens
  have silent := List.filterMap_eq_nil_iff.mp nothing event happens
  cases event <;> first | rfl | cases silent

theorem recounts_silence (host : Host) (buffer : Nat → Byte) (inputs : List Input) (unread : packetsRead calls = [])
    (unwritten : packetsWritten calls = []) {events : List Event} (nothing : asked events = []) :
    Recounts host buffer buffer inputs calls events [] := by
  refine ⟨unwritten, ?_, ?_⟩
  · rw [unread, nothing]
    exact .nil buffer
  · rw [ambients_eq_nil nothing]
    exact List.nil_sublist _

theorem follows_quietly {host : Host} {config next : Config} {inputs : List Input} {service : Service}
    (tracks : Tracks next service) (kept : next.server.buffer = config.server.buffer) (unread : packetsRead calls = [])
    (unwritten : packetsWritten calls = []) : Follows host config inputs service calls next := by
  refine ⟨[], [], service, .nil, tracks, ?_⟩
  rw [kept]
  exact recounts_silence host _ _ unread unwritten rfl

theorem silent_of_quiet (quiet : ∀ call ∈ calls, Quiet call) : packetsRead calls = [] ∧ packetsWritten calls = [] :=
  ⟨packetsRead_of_mute fun call made => .of_quiet (quiet call made),
    packetsWritten_of_unwritten fun call made => .of_quiet (quiet call made)⟩

theorem silent_of_releases {fd : Int} {ssl : Option Handle} (released : ∀ call ∈ calls, Releases fd ssl call) :
    packetsRead calls = [] ∧ packetsWritten calls = [] :=
  ⟨packetsRead_of_mute fun call made => .of_releases (released call made),
    packetsWritten_of_unwritten fun call made => .of_releases (released call made)⟩

theorem silent_flatMap (sockets : List ClientSocket) {each : ClientSocket → List Call}
    (released : ∀ client, ∀ call ∈ each client, Releases client.socket client.ssl call) :
    packetsRead (sockets.flatMap each) = [] ∧ packetsWritten (sockets.flatMap each) = [] := by
  constructor
  · apply packetsRead_of_mute
    intro call made
    obtain ⟨client, -, called⟩ := List.mem_flatMap.mp made
    exact .of_releases (released client call called)
  · apply packetsWritten_of_unwritten
    intro call made
    obtain ⟨client, -, called⟩ := List.mem_flatMap.mp made
    exact .of_releases (released client call called)

end Silence

section Greeting
variable {ambient : Ambient} (whole : WritesWhole ambient)
include whole

theorem packetsWritten_sendMOTD (client : ClientSocket) :
    packetsWritten (sendMOTD ambient client) = [(client.ssl, motdPacket)] := by
  obtain ⟨rounds, size⟩ : ∃ rounds, motdPacket.length = rounds + 2 := ⟨42, by decide⟩
  have nonempty : motdPacket ≠ [] := by decide
  unfold sendMOTD
  rw [size, motdLoop, if_neg nonempty]
  rcases whole client.ssl motdPacket with failed | written
  · rw [if_pos failed]
    rfl
  · have positive : ¬ambient.written client.ssl motdPacket ≤ 0 := by
      rw [written, size]
      omega
    have rest : motdPacket.drop (ambient.written client.ssl motdPacket).toNat = [] := by
      rw [written, Int.toNat_natCast, List.drop_length]
    rw [if_neg positive, rest, motdLoop, if_pos rfl]
    rfl

end Greeting

section Arrival
variable {host : Host} {input : Input} {config next : Config} {service : Service}

theorem written_of_admitted (whole : WritesWhole input.ambient) (reached : config.pc = .handleNewConnections)
    (stepped : step host input config = .ok next)
    (grown : next.server.clientSockets.length = config.server.clientSockets.length + 1) :
    packetsWritten (next.trace.drop config.trace.length) =
      if config.server.sendHelloMsg then [(some config.fresh, motdPacket)] else [] := by
  unfold step at stepped
  simp only [reached] at stepped
  obtain rfl := Except.ok.inj stepped
  rw [List.drop_left]
  simp only at grown ⊢
  unfold handleNewConnections at grown ⊢
  by_cases ready : config.server.readfds config.server.masterSocket = true
  · by_cases failed : input.acceptedFd < 0
    · simp [if_pos ready, if_pos failed] at grown
    · simp only [if_pos ready, if_neg failed] at grown ⊢
      rcases initSSL_cases config.fresh input.handshake
          { socket := input.acceptedFd, clientID := config.server.uniqueClientCounter } with
        ⟨calls, outcome, -, quiet⟩ | ⟨dropped, calls, outcome, -, -⟩
      · simp only [outcome, if_true, pushBack_eq, List.append_nil]
        rw [packetsWritten_append, packetsWritten_append,
          packetsWritten_of_unwritten fun call made => .of_quiet (quiet call made), List.append_nil]
        split
        · rw [packetsWritten_sendMOTD whole]
          rfl
        · rfl
      · simp only [outcome, Bool.false_eq_true, if_false] at grown
        omega
  · simp [if_neg ready] at grown

end Arrival

section Members
variable {config next : Config} {service : Service} (tracks : Tracks config service)
include tracks

theorem find_session (it : Fin config.server.clientSockets.length) :
    service.find? (memberOf (config.server.clientSockets.get it)).handle =
      some (memberOf (config.server.clientSockets.get it)) := by
  apply find?_key service.distinct
  rw [tracks.represents.members]
  exact List.mem_map_of_mem (List.get_mem _ _)

theorem mem_handles (it : Fin config.server.clientSockets.length) :
    (memberOf (config.server.clientSockets.get it)).handle ∈ service.handles := by
  rw [Service.handles, tracks.represents.members]
  exact List.mem_map_of_mem (List.mem_map_of_mem (List.get_mem _ _))

theorem tracks_erased (it : Fin config.server.clientSockets.length) (pc : Pc) (trace : List Call) :
    Tracks { config with
        server := { config.server with clientSockets := (erase config.server.clientSockets it).1 },
        pc := pc,
        trace := trace }
      (service.dismiss (memberOf (config.server.clientSockets.get it)).handle) := by
  have represents := tracks.represents
  have distinct := service.distinct
  rw [represents.members, List.map_map] at distinct
  refine ⟨{ represents with members := ?_, enabled := ?_, handled := ?_ }, tracks.bound⟩
  · rw [Service.dismiss_members, represents.members, List.filter_map]
    simp only [erase_fst]
    rw [eraseIdx_eq_filter distinct it]
    rfl
  · simp only [erase_fst]
    exact fun session inside => represents.enabled session (List.mem_of_mem_eraseIdx inside)
  · simp only [erase_fst]
    exact fun session inside => represents.handled session (List.mem_of_mem_eraseIdx inside)

end Members

section Following
variable {host : Host} {input : Input} {config next : Config} {service : Service}

theorem follows_erased (tracks : Tracks config service) (it : Fin config.server.clientSockets.length) (pc : Pc)
    (trace polled : List Call) (unread : packetsRead polled = []) (unwritten : packetsWritten polled = []) :
    Follows host config [input] service
      (polled ++ (config.server.clientSockets.get it).close ++ (erase config.server.clientSockets it).2)
      { config with
        server := { config.server with clientSockets := (erase config.server.clientSockets it).1 },
        pc := pc,
        trace := trace } := by
  obtain ⟨closeUnread, closeUnwritten⟩ := silent_of_releases (releases_close (config.server.clientSockets.get it) none)
  obtain ⟨moveUnread, moveUnwritten⟩ := silent_of_releases (releases_erase config.server.clientSockets it)
  refine ⟨[.left (memberOf (config.server.clientSockets.get it)).handle], [], _,
    .single (if_pos (mem_handles tracks it)), tracks_erased tracks it pc trace, recounts_silence host _ _ ?_ ?_ rfl⟩
  · rw [packetsRead_append, packetsRead_append, unread, closeUnread, moveUnread]
    rfl
  · rw [packetsWritten_append, packetsWritten_append, unwritten, closeUnwritten, moveUnwritten]
    rfl

theorem fresh_of_visit {it : Nat} (reached : config.pc = .processRequests it) (stepped : step host input config = .ok next) :
    next.fresh = config.fresh := by
  unfold step at stepped
  simp only [reached] at stepped
  split at stepped
  · obtain ⟨visited, -, returned⟩ := bind_eq_ok.mp stepped
    cases Except.ok.inj returned
    rfl
  · cases Except.ok.inj stepped
    rfl

theorem follows_of_received (tracks : Tracks config service) {received : Received} (receives : Receives input config received)
    (long : 2 ≤ received.bytes.length) (stepped : step host input config = .ok next) :
    ∃ calls, next.trace = config.trace ++ calls ∧ Follows host config [input] service calls next := by
  obtain ⟨it, calls, served⟩ := served_of_receives receives long stepped
  have loaded : Represents (loaded config received) service := tracks.represents.loaded _
  obtain ⟨query, means, represents, written⟩ :=
    answered_of_callHandler loaded long (handlerView_delivers input config received) served.handled
  have bound := tracks.bound
  rw [← fresh_of_visit served.reached stepped] at bound
  refine ⟨_, served.trace, [.asked (memberOf (config.server.clientSockets.get it)).handle query input.ambient], _, _,
    .single (by rw [react, find_session tracks it]; rfl), ⟨represents, (Service.update_bound ..).le.trans bound⟩, ?_, ?_,
    .refl _⟩
  · rw [packetsWritten_append]
    exact written
  · rw [packetsRead_append, packetsRead_of_mute fun call made => .of_isReply ((served.effect long).isReply call made),
      List.append_nil]
    rw [ssl_eq tracks.represents (List.get_mem _ _), served.buffer_eq long]
    exact .cons _ received query input.ambient means (.nil _)

theorem follows_of_single (tracks : Tracks config service) {received : Received} (receives : Receives input config received)
    (single : received.bytes.length < 2) (stepped : step host input config = .ok next) :
    ∃ calls, next.trace = config.trace ++ calls ∧ Follows host config [input] service calls next := by
  obtain ⟨it, present, reached, isOpen, ready, data⟩ := receives
  rw [step_of_single present reached isOpen ready data single] at stepped
  cases Except.ok.inj stepped
  have inside := List.get_mem config.server.clientSockets ⟨it, present⟩
  refine ⟨_, rfl, [.asked (memberOf (config.server.clientSockets.get ⟨it, present⟩)).handle .short input.ambient], _, _,
    .single (by rw [react, find_session tracks ⟨it, present⟩]; rfl), ⟨tracks.represents.loaded _, tracks.bound⟩, ?_, ?_,
    .refl _⟩
  · rw [packetsWritten_append]
    exact written_back tracks.represents inside _ .invalid
  · rw [packetsRead_append, packetsRead_of_mute fun call made => .of_isReply (isReply_send _ _ _ call made),
      List.append_nil]
    rw [ssl_eq tracks.represents inside]
    exact .cons _ received .short input.ambient (if_pos single) (.nil _)

theorem follows_of_stepped (whole : WritesWhole input.ambient) (tracks : Tracks config service)
    (none : ∀ received, ¬Receives input config received) (stepped : step host input config = .ok next) :
    ∃ calls, next.trace = config.trace ++ calls ∧ Follows host config [input] service calls next := by
  obtain ⟨calls, effect⟩ := stepped_of_step stepped
  refine ⟨calls, effect.trace_eq, ?_⟩
  have represents := tracks.represents
  cases effect with
  | polled _ _ _ quiet =>
    obtain ⟨unread, unwritten⟩ := silent_of_quiet quiet
    exact follows_quietly ⟨{ represents with }, tracks.bound⟩ rfl unread unwritten
  | unanswered _ _ quiet =>
    obtain ⟨unread, unwritten⟩ := silent_of_quiet quiet
    exact follows_quietly ⟨{ represents with }, tracks.bound⟩ rfl unread unwritten
  | refused fresh calls reached ready accepted later released =>
    obtain ⟨unread, unwritten⟩ := silent_of_releases released
    refine ⟨[.refused], [], _, .single rfl, ⟨{ represents with nextID := ?_ }, tracks.bound.trans later⟩,
      recounts_silence host _ _ ?_ ?_ rfl⟩
    · exact congrArg (· + 1) represents.nextID
    · rw [packetsRead_append, packetsRead_append, unread]
      rfl
    · rw [packetsWritten_append, packetsWritten_append, unwritten]
      rfl
  | admitted calls greeting reached ready accepted quiet greets =>
    have greeted := written_of_admitted whole reached stepped (by simp)
    simp only [List.drop_left] at greeted
    obtain ⟨unread, -⟩ := silent_of_quiet quiet
    refine ⟨[.arrived config.fresh config.server.sendHelloMsg],
      if config.server.sendHelloMsg then [(config.fresh, .motd)] else [], service.welcome config.fresh tracks.bound,
      .single (dif_pos tracks.bound), ⟨?_, le_rfl⟩, ?_, ?_, List.nil_sublist _⟩
    · constructor
      · rw [Service.welcome_members, represents.members, List.map_append, represents.nextID]
        rfl
      · intro session inside
        rcases List.mem_append.mp inside with old | new
        · exact represents.enabled session old
        · rw [List.mem_singleton.mp new]
      · intro session inside
        rcases List.mem_append.mp inside with old | new
        · exact represents.handled session old
        · exact ⟨config.fresh, by rw [List.mem_singleton.mp new]⟩
      · exact represents.rooms
      · exact represents.counter
      · exact congrArg (· + 1) represents.nextID
    · rw [greeted]
      split <;> rfl
    · rw [packetsRead_append, packetsRead_append, unread,
        packetsRead_of_mute fun call made => .of_isReply (isReply_of_plainReply (greets call made))]
      exact .nil _
  | visited it present reached server position calls effect =>
    cases effect with
    | closing closing => exact follows_erased tracks ⟨it, present⟩ _ _ [] rfl rfl
    | idle => exact follows_quietly ⟨{ represents with }, tracks.bound⟩ rfl rfl rfl
    | lost isOpen ready lost =>
      refine follows_erased tracks ⟨it, present⟩ _ _ _ ?_ rfl
      cases read : input.read with
      | data received => exact absurd read (lost received)
      | _ => rfl
    | short isOpen ready received data => exact absurd ⟨it, present, reached, isOpen, ready, data⟩ (none received)
    | handled isOpen ready received data => exact absurd ⟨it, present, reached, isOpen, ready, data⟩ (none received)
  | swept => exact follows_quietly ⟨{ represents with }, tracks.bound⟩ rfl rfl rfl
  | looped => exact follows_quietly ⟨{ represents with }, tracks.bound⟩ rfl rfl rfl
  | closed =>
    obtain ⟨unread, unwritten⟩ := silent_flatMap config.server.clientSockets fun client =>
      releases_close client client.ssl
    exact follows_quietly ⟨{ represents with }, tracks.bound⟩ rfl unread unwritten
  | returned =>
    obtain ⟨unread, unwritten⟩ := silent_flatMap config.server.clientSockets releases_destroy
    exact ⟨[.ended], [], _, .single rfl, ⟨{ represents with members := rfl, enabled := by simp, handled := by simp },
      tracks.bound⟩, recounts_silence host _ _ unread unwritten rfl⟩
  | exited => exact follows_quietly tracks rfl rfl rfl

/-- Whatever happens, one step of the server is at most one event of the service. -/
theorem follows_of_step (whole : WritesWhole input.ambient) (tracks : Tracks config service)
    (stepped : step host input config = .ok next) :
    ∃ calls, next.trace = config.trace ++ calls ∧ Follows host config [input] service calls next := by
  by_cases reads : ∃ received, Receives input config received
  · obtain ⟨received, receives⟩ := reads
    by_cases long : 2 ≤ received.bytes.length
    · exact follows_of_received tracks receives long stepped
    · exact follows_of_single tracks receives (not_le.mp long) stepped
  · exact follows_of_stepped whole tracks (fun received receives => reads ⟨received, receives⟩) stepped

end Following

theorem tracks_opening (boot : Boot) : Tracks boot.config (.opening (loadRooms boot.rows)) where
  represents := ⟨rfl, by simp [Boot.config], by simp [Boot.config], rfl, rfl, rfl⟩
  bound := le_rfl

/-- From wherever the service is in step with the server it stays so. -/
theorem follows_of_execution {host : Host} {start config : Config} {service : Service} (tracks : Tracks start service)
    {inputs : List Input} (ran : Execution (step host) (fun input _ => WritesWhole input.ambient) start inputs config) :
    ∃ calls, config.trace = start.trace ++ calls ∧ Follows host start inputs service calls config :=
  followed_of_execution (additive_recounts host) tracks
    (fun _ _ _ _ _ _ whole stepped tracks => follows_of_step whole tracks stepped) ran

theorem follows_of_run {host : Host} {boot : Boot} {inputs : List Input} {config : Config}
    (ran : ServerRun host (fun input _ => WritesWhole input.ambient) boot inputs config) :
    Follows host boot.config inputs (.opening (loadRooms boot.rows)) config.trace config := by
  obtain ⟨calls, grown, follows⟩ := follows_of_execution (tracks_opening boot) ran
  rw [grown]
  exact follows

/-- Every run of the server is a run of the chat service: each packet read, in
order, is a query of a member, and the packets written are the answers to them. -/
theorem server_refines_service (host : Host) (boot : Boot) (inputs : List Input) (config : Config)
    (ran : ServerRun host (fun input _ => WritesWhole input.ambient) boot inputs config) :
    ∃ events outputs service, Reacts (react host) (.opening (loadRooms boot.rows)) events outputs service ∧
      Represents config.server service ∧
      packetsWritten config.trace = outputs.map (encode host.order) ∧
      Understood host boot.buffer config.server.buffer (packetsRead config.trace) (asked events) := by
  obtain ⟨events, outputs, service, reacts, tracks, recounts⟩ := follows_of_run ran
  exact ⟨events, outputs, service, reacts, tracks.represents, recounts.written, recounts.understood⟩

theorem writesWhole_of_example {inputs : List Input}
    (plain : inputs.map Input.ambient = List.replicate inputs.length exampleAmbient) :
    ∀ input ∈ inputs, WritesWhole input.ambient := by
  intro input member
  rw [List.map_eq_replicate_iff.mp plain input member]
  exact fun _ _ => .inr rfl

def askedOnce (received : Received) : List Input := untilRead ++ [deliver received]

theorem askedOnce_whole (received : Received) : ∀ input ∈ askedOnce received, WritesWhole input.ambient :=
  writesWhole_of_example rfl

theorem server_refines_service_ping :
    ∃ (config : Config) (events : List Event) (outputs : List (Handle × Answer)) (service : Service),
      Reacts (react exampleHost) (.opening (loadRooms [])) events outputs service ∧ Represents config.server service ∧
      outputs.map (encode .little) = [(some 0, motdPacket), (some 0, opcodeBytes .smsgPong)] := by
  obtain ⟨config, ran⟩ : ∃ config, run (step exampleHost) (askedOnce pingPacket) (exampleBoot []).config = .ok config :=
    ⟨_, rfl⟩
  obtain ⟨events, outputs, service, reacts, represents, written, -⟩ := server_refines_service exampleHost (exampleBoot [])
    (askedOnce pingPacket) config (Execution.of_run_permitted (askedOnce_whole pingPacket) ran)
  refine ⟨config, events, outputs, service, reacts, represents, written.symm.trans ?_⟩
  cases ran
  rfl

end Communo.ServiceRuns
