import Communo.ReadPass

/-! The set of descriptors that `select` looks at. It has room for the descriptors
below `FD_SETSIZE`, and the server puts every session into it. -/

namespace Communo.SelectSet
open Lib.ByteCodec Lib.CheckedMemory Lib.Runs Protocol NumParser Chat Session Handlers MainLoop Dispatch Transitions
  SessionTable Resources ReadPass

def fdSetSize : Int := 1024

def watched (calls : List Call) : List Int :=
  calls.filterMap fun
    | .fdSet fd | .fdIsSet fd => some fd
    | _ => none

section Calls

theorem watched_append (first second : List Call) : watched (first ++ second) = watched first ++ watched second :=
  List.filterMap_append

theorem mem_watched_iff (fd : Int) (calls : List Call) : fd ∈ watched calls ↔ .fdSet fd ∈ calls ∨ .fdIsSet fd ∈ calls := by
  rw [watched, List.mem_filterMap]
  constructor
  · rintro ⟨call, member, same⟩
    cases call with
    | fdSet other => exact .inl (Option.some.inj same ▸ member)
    | fdIsSet other => exact .inr (Option.some.inj same ▸ member)
    | _ => cases same
  · rintro (member | member)
    · exact ⟨_, member, rfl⟩
    · exact ⟨_, member, rfl⟩

theorem watched_of_unobserving {calls : List Call} (unobserving : ∀ call ∈ calls, Unobserving call) :
    watched calls = [] := by
  rw [watched, List.filterMap_eq_nil_iff]
  intro call member
  have unobserved := unobserving call member
  cases call <;> first | rfl | exact unobserved.elim

theorem unobserving_initSSL (fresh : Handle) (handshake : Handshake) (client : ClientSocket) :
    ∀ call ∈ (initSSL fresh handshake client).2.2, Unobserving call := by
  unfold initSSL
  split_ifs
  · simp [ClientSocket.close, Unobserving]
  · simp [ClientSocket.close, Unobserving]
  · obtain ⟨uses, onHandle, ended⟩ := freesOnFailure_handshakeLoop { client with ssl := some fresh } handshake.attempts
    have plain : ∀ call ∈ uses, Unobserving call := by
      intro call member
      rcases onHandle call member with rfl | rfl <;> trivial
    rcases ended with ⟨-, made⟩ | ⟨-, made⟩
    · simpa [made, Unobserving] using plain
    · simp only [made, List.forall_mem_cons, List.forall_mem_append]
      exact ⟨trivial, trivial, plain, trivial, by simp⟩

end Calls

section Step
variable {host : Host} {input : Input} {config next : Config}

/-- A connection is accepted and its handshake completes. -/
def Admits (input : Input) (config : Config) : Prop :=
  Accepts input config ∧ (initSSL config.fresh input.handshake
    { socket := input.acceptedFd, clientID := config.server.uniqueClientCounter }).1 = true

structure Watches (input : Input) (config next : Config) (calls : List Call) : Prop where
  trace : next.trace = config.trace ++ calls
  watched : ∀ fd ∈ watched calls,
    fd = config.server.masterSocket ∨ fd ∈ config.server.clientSockets.map ClientSocket.socket
  masterSocket : next.server.masterSocket = config.server.masterSocket
  sockets : ∀ fd ∈ next.server.clientSockets.map ClientSocket.socket,
    fd ∈ config.server.clientSockets.map ClientSocket.socket ∨ Admits input config ∧ fd = input.acceptedFd

theorem watches_of_poolActivity (reached : config.pc = .poolActivity) (stepped : step host input config = .ok next) :
    ∃ calls, Watches input config next calls := by
  simp only [step, reached] at stepped
  obtain rfl := Except.ok.inj stepped
  refine ⟨_, rfl, ?_, rfl, fun fd member => .inl member⟩
  intro fd member
  rw [mem_watched_iff] at member
  simp only [poolActivity, List.cons_append, List.mem_cons, List.mem_append, List.mem_flatMap, List.not_mem_nil, or_false,
    Call.fdSet.injEq, reduceCtorEq, false_or] at member
  rcases member with (same | ⟨client, present, watched⟩) | ⟨client, present, watched⟩
  · exact .inl same
  · split_ifs at watched
    · exact .inr (List.mem_map.mpr ⟨client, present, by simpa [eq_comm] using watched⟩)
    · simp at watched
  · split_ifs at watched <;> simp at watched

theorem watches_of_handleNewConnections (reached : config.pc = .handleNewConnections)
    (stepped : step host input config = .ok next) : ∃ calls, Watches input config next calls := by
  simp only [step, reached] at stepped
  obtain rfl := Except.ok.inj stepped
  have asked {opening rest : List Call} (own : watched opening = [config.server.masterSocket])
      (unobserving : ∀ call ∈ rest, Unobserving call) : ∀ fd ∈ watched (opening ++ rest),
        fd = config.server.masterSocket ∨ fd ∈ config.server.clientSockets.map ClientSocket.socket := by
    intro fd member
    rw [watched_append, watched_of_unobserving unobserving, own, List.append_nil] at member
    exact .inl (List.mem_singleton.mp member)
  unfold handleNewConnections
  by_cases ready : config.server.readfds config.server.masterSocket = true
  · by_cases failed : input.acceptedFd < 0
    · simp only [if_pos ready, if_pos failed]
      exact ⟨_, rfl, @asked [.fdIsSet _, .accept _] [] rfl (by simp), rfl, fun fd member => .inl member⟩
    · simp only [if_pos ready, if_neg failed]
      have unobserving := unobserving_initSSL config.fresh input.handshake
        { socket := input.acceptedFd, clientID := config.server.uniqueClientCounter }
      rcases initSSL_cases config.fresh input.handshake
          { socket := input.acceptedFd, clientID := config.server.uniqueClientCounter } with
        ⟨calls, outcome, -, -⟩ | ⟨dropped, calls, outcome, plain, -⟩
      · rw [outcome] at unobserving
        have admits : Admits input config := ⟨⟨reached, ready, not_lt.mp failed⟩, by rw [outcome]⟩
        simp only [outcome, if_true, pushBack_eq, List.append_nil, List.append_assoc]
        refine ⟨_, rfl, asked rfl ?_, rfl, ?_⟩
        · refine List.forall_mem_append.mpr ⟨unobserving, fun call member => ?_⟩
          split_ifs at member
          · exact (harmless_of_isReply (isReply_of_plainReply (plainReply_motdLoop _ _ _ 0 call member))).1
          · simp at member
        · intro fd member
          rw [List.map_append, List.mem_append, List.map_singleton, List.mem_singleton] at member
          exact member.imp_right fun same => ⟨admits, same⟩
      · rw [outcome] at unobserving
        have silent : dropped.destroy = [] := by simp [ClientSocket.destroy, plain]
        simp only [outcome, Bool.false_eq_true, if_false, silent, List.append_nil, List.append_assoc]
        refine ⟨_, rfl, asked rfl ?_, rfl, fun fd member => .inl member⟩
        exact List.forall_mem_append.mpr ⟨unobserving, by simp [Unobserving]⟩
  · simp only [if_neg ready]
    exact ⟨_, rfl, @asked [.fdIsSet _] [] rfl (by simp), rfl, fun fd member => .inl member⟩

theorem watches_of_visited {it : Fin config.server.clientSockets.length} {server : Server} {position : Nat}
    {calls : List Call} (visited : Visited input config.server it server position calls) {pc : Pc} :
    Watches input config { config with server := server, pc := pc, trace := config.trace ++ calls } calls := by
  have masterSocket : server.masterSocket = config.server.masterSocket := by
    cases visited with
    | handled _ _ _ _ _ _ _ effect => cases effect <;> rfl
    | _ => rfl
  by_cases closing : config.server.serverState = .closing
  · cases visited with
    | closing =>
      refine ⟨rfl, ?_, rfl, ?_⟩
      · rw [watched_of_unobserving (unobserving_erase _ it)]
        simp
      · intro fd member
        rw [erase_fst, ← List.eraseIdx_map] at member
        exact .inl (List.mem_of_mem_eraseIdx member)
    | _ => contradiction
  · have round := round_of_visited closing visited
    obtain ⟨rest, rfl, unobserving⟩ := round.shape
    refine ⟨rfl, ?_, masterSocket, ?_⟩
    · intro fd member
      have own : watched (looks input config.server (config.server.clientSockets.get it)) =
          [(config.server.clientSockets.get it).socket] := by
        unfold looks
        split_ifs <;> rfl
      rw [watched_append, watched_of_unobserving unobserving, own, List.append_nil, List.mem_singleton] at member
      exact .inr (member ▸ List.mem_map_of_mem (List.get_mem _ _))
    · have sockets (sessions : List ClientSocket) :
          sessions.map ClientSocket.socket = (sessions.map identity).map Identity.socket := by
        rw [List.map_map]
        rfl
      intro fd member
      rw [sockets, round.sessions] at member
      rw [sockets]
      split_ifs at member
      · rw [← List.eraseIdx_map] at member
        exact .inl (List.mem_of_mem_eraseIdx member)
      · exact .inl member

theorem frame_of_loopEnd (closingRequested : Bool) (server : Server) :
    (loopEnd closingRequested server).1.clientSockets = server.clientSockets ∧
      (loopEnd closingRequested server).1.masterSocket = server.masterSocket ∧
      ∀ call ∈ (loopEnd closingRequested server).2, Unobserving call := by
  unfold loopEnd
  split_ifs
  · refine ⟨rfl, rfl, fun call member => ?_⟩
    obtain ⟨client, -, made⟩ := List.mem_flatMap.mp member
    exact unobserving_close client call made
  · exact ⟨rfl, rfl, by simp⟩
  · exact ⟨rfl, rfl, by simp⟩

theorem watches_of_step (stepped : step host input config = .ok next) : ∃ calls, Watches input config next calls := by
  cases reached : config.pc with
  | poolActivity => exact watches_of_poolActivity reached stepped
  | handleNewConnections => exact watches_of_handleNewConnections reached stepped
  | processRequests it =>
    simp only [step, reached] at stepped
    split_ifs at stepped with present
    · obtain ⟨⟨server, position, calls⟩, visited, returned⟩ := bind_eq_ok.mp stepped
      obtain rfl := Except.ok.inj returned
      exact ⟨calls, watches_of_visited (visited_of_visit visited)⟩
    · obtain rfl := Except.ok.inj stepped
      exact ⟨[], (List.append_nil _).symm, by simp [watched], rfl, fun fd member => .inl member⟩
  | loopEnd =>
    simp only [step, reached] at stepped
    obtain rfl := Except.ok.inj stepped
    obtain ⟨sessions, masterSocket, unobserving⟩ := frame_of_loopEnd input.closingRequested config.server
    refine ⟨_, rfl, ?_, masterSocket, ?_⟩
    · rw [watched_of_unobserving unobserving]
      simp
    · intro fd member
      rw [sessions] at member
      exact .inl member
  | returning =>
    simp only [step, reached] at stepped
    obtain rfl := Except.ok.inj stepped
    refine ⟨_, rfl, ?_, rfl, by simp⟩
    have unobserving : ∀ call ∈ config.server.clientSockets.flatMap ClientSocket.destroy, Unobserving call := by
      intro call member
      obtain ⟨client, -, made⟩ := List.mem_flatMap.mp member
      exact unobserving_destroy client call made
    rw [watched_of_unobserving unobserving]
    simp
  | exited =>
    simp only [step, reached] at stepped
    obtain rfl := Except.ok.inj stepped
    exact ⟨[], (List.append_nil _).symm, by simp [watched], rfl, fun fd member => .inl member⟩

end Step

section Runs
variable (reserved : Config → Int → Prop)

/-- A descriptor that neither a connection nor anything else in the process has. -/
def Unused (config : Config) (fd : Int) : Prop := 0 ≤ fd ∧ ¬reserved config fd ∧ isOpen config.trace fd = false

/-- What the kernel promises: `accept` returns the lowest descriptor that is not in use. -/
def AcceptsLowest (input : Input) (config : Config) : Prop :=
  Accepts input config →
    Unused reserved config input.acceptedFd ∧ ∀ fd, Unused reserved config fd → input.acceptedFd ≤ fd

/-- When a session is taken into the table a descriptor with a place in the set is not in use. -/
def RoomInSet (input : Input) (config : Config) : Prop :=
  Admits input config → ∃ fd, Unused reserved config fd ∧ fd < fdSetSize

def Roomy (input : Input) (config : Config) : Prop := AcceptsLowest reserved input config ∧ RoomInSet reserved input config

/-- Every descriptor that was put into the set or looked up in it has a place there. -/
def StaysInSet (config : Config) : Prop := ∀ fd, .fdSet fd ∈ config.trace ∨ .fdIsSet fd ∈ config.trace → fd < fdSetSize

structure Bounded (config : Config) : Prop where
  masterSocket : config.server.masterSocket < fdSetSize
  sockets : ∀ fd ∈ config.server.clientSockets.map ClientSocket.socket, fd < fdSetSize
  watched : ∀ fd ∈ watched config.trace, fd < fdSetSize

variable {reserved}

theorem Roomy.of_other {input : Input} {config : Config} (other : config.pc ≠ .handleNewConnections) :
    Roomy reserved input config :=
  ⟨fun accepts => absurd accepts.1 other, fun admits => absurd admits.1.1 other⟩

theorem Bounded.step {host : Host} {input : Input} {config next : Config} (bounded : Bounded config)
    (roomy : Roomy reserved input config) (stepped : step host input config = .ok next) : Bounded next := by
  obtain ⟨calls, watches⟩ := watches_of_step stepped
  refine ⟨watches.masterSocket ▸ bounded.masterSocket, fun fd member => ?_, fun fd member => ?_⟩
  · rcases watches.sockets fd member with old | ⟨admits, rfl⟩
    · exact bounded.sockets fd old
    · obtain ⟨free, unused, small⟩ := roomy.2 admits
      exact ((roomy.1 admits.1).2 free unused).trans_lt small
  · rw [watches.trace, watched_append, List.mem_append] at member
    rcases member with before | now
    · exact bounded.watched fd before
    · rcases watches.watched fd now with rfl | session
      · exact bounded.masterSocket
      · exact bounded.sockets fd session

end Runs

/-- In a run in which every new session finds a descriptor with a place in the set, the set never overflows. -/
theorem select_set_never_overflows (host : Host) (reserved : Config → Int → Prop) (boot : Boot)
    (listening : boot.masterSocket < fdSetSize) {inputs : List Input} {config : Config}
    (ran : ServerRun host (Roomy reserved) boot inputs config) : StaysInSet config := by
  have bounded : Bounded config := by
    apply ran.invariant
    · exact ⟨listening, by simp [Boot.config], by simp [Boot.config, watched]⟩
    · exact fun input state next bounded roomy stepped => bounded.step roomy stepped
  intro fd looked
  exact bounded.watched fd ((mem_watched_iff fd config.trace).mpr looked)

/-- The standard descriptors and the listening one. -/
def processFds (_ : Config) (fd : Int) : Prop := fd ≤ 3

def silentBoot : Boot := { exampleBoot [] with sendHelloMsg := false }

/-- One client connects and is looked at. -/
theorem single_client_watched :
    ∃ config, ServerRun exampleHost (Roomy processFds) silentBoot [arrive 4, arrive 4, idle] config ∧
      .fdIsSet 4 ∈ config.trace ∧ StaysInSet config := by
  obtain ⟨first, polled⟩ : ∃ first, step exampleHost (arrive 4) silentBoot.config = .ok first := ⟨_, rfl⟩
  obtain ⟨second, admitted⟩ : ∃ second, step exampleHost (arrive 4) first = .ok second := by
    cases polled
    exact ⟨_, rfl⟩
  obtain ⟨third, looked⟩ : ∃ third, step exampleHost idle second = .ok third := by
    cases polled
    cases admitted
    exact ⟨_, rfl⟩
  have vacant : Unused processFds first 4 := by
    cases polled
    exact ⟨by decide, (by decide : ¬(4 : Int) ≤ 3), rfl⟩
  have lowest : AcceptsLowest processFds (arrive 4) first := by
    refine fun _ => ⟨vacant, ?_⟩
    rintro fd ⟨-, free, -⟩
    exact not_le.mp free
  have room : RoomInSet processFds (arrive 4) first := fun _ => ⟨4, vacant, by decide⟩
  have starting : silentBoot.config.pc ≠ .handleNewConnections := by decide
  have visiting : second.pc ≠ .handleNewConnections := by
    cases polled
    cases admitted
    decide
  have ran : ServerRun exampleHost (Roomy processFds) silentBoot [arrive 4, arrive 4, idle] third :=
    .snoc (.snoc (.snoc .nil (.of_other starting) polled) ⟨lowest, room⟩ admitted) (.of_other visiting) looked
  refine ⟨third, ran, ?_, select_set_never_overflows exampleHost processFds silentBoot (by decide) ran⟩
  cases polled
  cases admitted
  cases looked
  exact List.mem_append_right _ (List.mem_singleton.mpr rfl)

section Crowd

abbrev Reached (inputs : List Input) (config : Config) : Prop :=
  ServerRun exampleHost (AcceptsLowest processFds) silentBoot inputs config

theorem Reached.other {inputs : List Input} {config next : Config} (reached : Reached inputs config) {input : Input}
    (other : config.pc ≠ .handleNewConnections) (stepped : step exampleHost input config = .ok next) :
    Reached (inputs ++ [input]) next :=
  .snoc reached (Roomy.of_other other).1 stepped

theorem Reached.pass {inputs : List Input} {config : Config} {it : Nat} (reached : Reached inputs config)
    (visiting : config.pc = .processRequests it) (within : it ≤ config.server.clientSockets.length)
    (isOpen : config.server.serverState ≠ .closing)
    (quiet : ∀ client ∈ config.server.clientSockets, config.server.readfds client.socket = false) :
    ∃ calls, Reached (inputs ++ List.replicate (config.server.clientSockets.length - it + 1) idle)
      { config with pc := .loopEnd, trace := config.trace ++ calls } ∧ ∀ call ∈ calls, Quiet call := by
  induction left : config.server.clientSockets.length - it generalizing inputs config it with
  | zero =>
    have outside : ¬it < config.server.clientSockets.length := by omega
    have stepped : step exampleHost idle config = .ok { config with pc := .loopEnd } := by
      simp only [step, visiting, dif_neg outside]
    refine ⟨[], ?_, by simp⟩
    rw [List.append_nil]
    exact reached.other (by simp [visiting]) stepped
  | succ left ih =>
    have inside : it < config.server.clientSockets.length := by omega
    have silent := quiet _ (List.get_mem config.server.clientSockets ⟨it, inside⟩)
    have stepped : step exampleHost idle config = .ok { config with
        pc := .processRequests (it + 1),
        trace := config.trace ++ [.fdIsSet (config.server.clientSockets.get ⟨it, inside⟩).socket] } := by
      simp only [step, visiting, dif_pos inside, visit_idle isOpen silent, Except.bind]
    obtain ⟨calls, later, quietly⟩ := ih (reached.other (by simp [visiting]) stepped) rfl inside isOpen quiet
      (by simp only; omega)
    refine ⟨.fdIsSet (config.server.clientSockets.get ⟨it, inside⟩).socket :: calls, ?_, ?_⟩
    · rw [List.append_assoc, List.singleton_append, ← List.replicate_succ] at later
      rwa [List.append_assoc, List.singleton_append] at later
    · exact List.forall_mem_cons.mpr ⟨trivial, quietly⟩

/-- One after the other `count` clients connect and send nothing. -/
def crowdInputs : (count : Nat) → List Input
  | 0 => []
  | count + 1 => crowdInputs count ++ [arrive (4 + count), arrive (4 + count)] ++ List.replicate (count + 3) idle

structure Crowd (count : Nat) (config : Config) : Prop where
  reached : Reached (crowdInputs count) config
  pc : config.pc = .poolActivity
  serverState : config.server.serverState = .started
  masterSocket : config.server.masterSocket = 3
  sendHelloMsg : config.server.sendHelloMsg = false
  sockets : config.server.clientSockets.map ClientSocket.socket = (List.range count).map fun place : Nat => 4 + (place : Int)
  isOpen : ∀ fd, isOpen config.trace fd = true ↔ 4 ≤ fd ∧ fd < 4 + count

theorem crowd_nobody : Crowd 0 silentBoot.config where
  reached := .nil
  pc := rfl
  serverState := rfl
  masterSocket := rfl
  sendHelloMsg := rfl
  sockets := rfl
  isOpen fd := by
    have closed : SessionTable.isOpen silentBoot.config.trace fd = false := rfl
    rw [closed]
    simp

theorem Crowd.lowest {count : Nat} {config : Config} (crowd : Crowd count config) {calls : List Call}
    (quiet : ∀ call ∈ calls, Quiet call) {after : Config} (trace : after.trace = config.trace ++ calls) :
    AcceptsLowest processFds (arrive (4 + count)) after := by
  have same (fd : Int) : SessionTable.isOpen after.trace fd = SessionTable.isOpen config.trace fd := by
    rw [trace]
    exact isOpen_append_of_forall fun call made => (Untouched.of_quiet (quiet call made)).reopen_eq fd
  have vacant (fd : Int) : SessionTable.isOpen after.trace fd = false ↔ ¬(4 ≤ fd ∧ fd < 4 + count) := by
    rw [same, ← crowd.isOpen fd, Bool.not_eq_true]
  intro accepts
  refine ⟨⟨?_, ?_, ?_⟩, ?_⟩
  · show 0 ≤ 4 + (count : Int)
    omega
  · show ¬4 + (count : Int) ≤ 3
    omega
  · rw [vacant]
    show ¬(4 ≤ 4 + (count : Int) ∧ 4 + (count : Int) < 4 + count)
    omega
  · rintro fd ⟨-, free, unopened⟩
    rw [vacant] at unopened
    have above : ¬fd ≤ 3 := free
    show 4 + (count : Int) ≤ fd
    omega

theorem handleNewConnections_arrive {server : Server} (ready : server.readfds server.masterSocket = true)
    (silent : server.sendHelloMsg = false) (fresh : Handle) (count : Nat) :
    handleNewConnections (arrive (4 + count)) fresh server =
      ({ server with
          clientSockets := server.clientSockets ++
            [{ socket := 4 + count, ssl := some fresh, sslEnabled := true, clientID := server.uniqueClientCounter }],
          uniqueClientCounter := server.uniqueClientCounter + 1 }, fresh + 1,
        [.fdIsSet server.masterSocket, .accept (4 + count), .clientID server.uniqueClientCounter,
          .sslNew (some fresh), .sslSetFd (some fresh) (4 + count), .sslAccept (some fresh)]) := by
  have accepted : ¬(arrive (4 + count)).acceptedFd < 0 := not_lt.mpr (by show 0 ≤ 4 + (count : Int); omega)
  simp only [handleNewConnections, if_pos ready, if_neg accepted]
  simp [arrive, connect, idle, initSSL, handshakeLoop, pushBack_eq, silent]

theorem isOpen_after_arrival {trace polls rounds : List Call} (quietPolls : ∀ call ∈ polls, Quiet call)
    (quietRounds : ∀ call ∈ rounds, Quiet call) (master : Int) (id : BitVec 64) (fresh : Handle) (count : Nat) (fd : Int) :
    isOpen (trace ++ polls ++ [Call.fdIsSet master, .accept (4 + count), .clientID id, .sslNew (some fresh),
      .sslSetFd (some fresh) (4 + count), .sslAccept (some fresh)] ++ rounds) fd = true ↔
      isOpen trace fd = true ∨ fd = 4 + count := by
  have inert {calls : List Call} (quiet : ∀ call ∈ calls, Quiet call) (before : List Call) :
      isOpen (before ++ calls) fd = isOpen before fd :=
    isOpen_append_of_forall fun call made => (Untouched.of_quiet (quiet call made)).reopen_eq fd
  rw [inert quietRounds, isOpen, List.foldl_append]
  change (if 0 ≤ 4 + (count : Int) ∧ 4 + (count : Int) = fd then true else isOpen (trace ++ polls) fd) = true ↔ _
  rw [inert quietPolls]
  split_ifs with same
  · simp [same.2]
  · have other : fd ≠ 4 + count := by omega
    simp [other]

def knocked (count : Nat) (config : Config) : Config :=
  { config with
    server := { config.server with readfds := fun fd => filledFds config.server fd && decide (fd = 3) }
    pc := .handleNewConnections
    trace := config.trace ++ (poolActivity (arrive (4 + count)).select config.server).2 }

def welcomed (count : Nat) (config : Config) : Config where
  server := { (knocked count config).server with
    clientSockets := config.server.clientSockets ++
      [{ socket := 4 + count, ssl := some config.fresh, sslEnabled := true, clientID := config.server.uniqueClientCounter }]
    uniqueClientCounter := config.server.uniqueClientCounter + 1 }
  pc := .processRequests 0
  fresh := config.fresh + 1
  trace := (knocked count config).trace ++ [.fdIsSet config.server.masterSocket, .accept (4 + count),
    .clientID config.server.uniqueClientCounter, .sslNew (some config.fresh),
    .sslSetFd (some config.fresh) (4 + count), .sslAccept (some config.fresh)]

theorem Crowd.welcomes {count : Nat} {config : Config} (crowd : Crowd count config) :
    Reached (crowdInputs count ++ [arrive (4 + count), arrive (4 + count)]) (welcomed count config) := by
  have polling : step exampleHost (arrive (4 + count)) config = .ok (knocked count config) := by
    simp only [step, crowd.pc]
    rfl
  have ready : (knocked count config).server.readfds (knocked count config).server.masterSocket = true := by
    simp [knocked, filledFds, crowd.masterSocket]
  have admitting : step exampleHost (arrive (4 + count)) (knocked count config) = .ok (welcomed count config) := by
    have pc : (knocked count config).pc = .handleNewConnections := rfl
    simp only [step, pc]
    rw [handleNewConnections_arrive ready crowd.sendHelloMsg]
    rfl
  have twice := Execution.snoc (crowd.reached.other (by simp [crowd.pc]) polling)
    (crowd.lowest (quiet_poolActivity _ _) rfl) admitting
  rwa [List.append_assoc] at twice

/-- One turn of the main loop lets one more client in. -/
theorem Crowd.grow {count : Nat} {config : Config} (crowd : Crowd count config) : ∃ next, Crowd (count + 1) next := by
  have sockets : (welcomed count config).server.clientSockets.map ClientSocket.socket =
      (List.range (count + 1)).map fun place : Nat => 4 + (place : Int) := by
    simp only [welcomed, List.map_append, crowd.sockets, List.range_succ]
    rfl
  have silent : ∀ client ∈ (welcomed count config).server.clientSockets,
      (welcomed count config).server.readfds client.socket = false := by
    intro client present
    have member := List.mem_map_of_mem (f := ClientSocket.socket) present
    rw [sockets] at member
    obtain ⟨place, -, same⟩ := List.mem_map.mp member
    have other : ¬client.socket = 3 := by omega
    simp only [welcomed, knocked, other, decide_false, Bool.and_false]
  have started : (welcomed count config).server.serverState = .started := crowd.serverState
  obtain ⟨rounds, passed, quiet⟩ := crowd.welcomes.pass rfl (Nat.zero_le _) (by simp [started]) silent
  have ending : step exampleHost idle { welcomed count config with
        pc := .loopEnd, trace := (welcomed count config).trace ++ rounds } =
      .ok { welcomed count config with pc := .poolActivity, trace := (welcomed count config).trace ++ rounds } := by
    simp [step, loopEnd, idle, started]
  have turned : Reached (crowdInputs (count + 1))
      { welcomed count config with pc := .poolActivity, trace := (welcomed count config).trace ++ rounds } := by
    have length : (welcomed count config).server.clientSockets.length = count + 1 := by
      simpa using congrArg List.length sockets
    have ended := passed.other (by simp) ending
    rwa [length, Nat.sub_zero, List.append_assoc, ← List.replicate_succ'] at ended
  refine ⟨_, turned, rfl, started, crowd.masterSocket, crowd.sendHelloMsg, sockets, fun fd => ?_⟩
  refine (isOpen_after_arrival (quiet_poolActivity _ _) quiet _ _ _ count fd).trans ?_
  rw [crowd.isOpen fd]
  push_cast
  omega

theorem exists_crowd (count : Nat) : ∃ config, Crowd count config := by
  induction count with
  | zero => exact ⟨_, crowd_nobody⟩
  | succ count ih =>
    obtain ⟨config, crowd⟩ := ih
    exact crowd.grow

/-- With 1021 clients connected the next `PoolActivity` writes behind the set. -/
theorem crowd_overflows_set :
    ∃ config, ServerRun exampleHost (AcceptsLowest processFds) silentBoot (crowdInputs 1021 ++ [idle]) config ∧
      .fdSet 1024 ∈ config.trace ∧ ¬StaysInSet config := by
  obtain ⟨config, crowd⟩ := exists_crowd 1021
  have stepped : step exampleHost idle config = .ok { config with
      server := (poolActivity idle.select config.server).1, pc := .handleNewConnections,
      trace := config.trace ++ (poolActivity idle.select config.server).2 } := by
    simp only [step, crowd.pc]
  have last : (1024 : Int) ∈ config.server.clientSockets.map ClientSocket.socket := by
    rw [crowd.sockets]
    exact List.mem_map.mpr ⟨1020, List.mem_range.mpr (by decide), rfl⟩
  obtain ⟨client, present, socket⟩ := List.mem_map.mp last
  have put : Call.fdSet 1024 ∈ (poolActivity idle.select config.server).2 := by
    refine List.mem_append_left _ (List.mem_cons_of_mem _ (List.mem_flatMap.mpr ⟨client, present, ?_⟩))
    simp [socket]
  refine ⟨_, crowd.reached.other (by simp [crowd.pc]) stepped, List.mem_append_right _ put, fun stays => ?_⟩
  exact absurd (stays 1024 (.inl (List.mem_append_right _ put))) (by decide)

end Crowd

end Communo.SelectSet
