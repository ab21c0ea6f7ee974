import Communo.Dispatch

/-! What one step of the main loop can do, said once. Invariants of whole runs
are proved by cases on `Stepped` and never unfold the step function. -/

namespace Communo.Transitions
open Lib.ByteCodec Lib.CheckedMemory Lib.Runs Protocol NumParser Chat Session Handlers MainLoop Dispatch

/-- A call that opens, closes, frees, reads, writes and dispatches nothing. -/
def Quiet : Call → Prop
  | .fdSet _ | .fdIsSet _ | .select _ | .shutdown _ | .sslNew _ | .sslSetFd _ _ | .sslAccept _
  | .sslGetError _ | .sslShutdown _ => True
  | .accept fd => fd < 0
  | _ => False

/-- Besides quiet calls, only the one descriptor is closed and only the one handle freed. -/
def Releases (fd : Int) (ssl : Option Handle) : Call → Prop
  | .close closed => closed = fd
  | .sslFree freed => freed = ssl
  | call => Quiet call

theorem Releases.cases {fd : Int} {ssl : Option Handle} {call : Call} (releases : Releases fd ssl call) :
    call = .close fd ∨ call = .sslFree ssl ∨ Quiet call := by
  cases call with
  | close closed => exact Or.inl (congrArg Call.close releases)
  | sslFree freed => exact Or.inr (Or.inl (congrArg Call.sslFree releases))
  | _ => exact Or.inr (Or.inr releases)

/-- The packets among the calls, each with the handle it was written to. -/
def packetsWritten (calls : List Call) : List (Option Handle × List Byte) :=
  calls.filterMap fun
    | .sslWrite ssl packet => some (ssl, packet)
    | _ => none

@[simp]
theorem packetsWritten_append (first second : List Call) :
    packetsWritten (first ++ second) = packetsWritten first ++ packetsWritten second :=
  List.filterMap_append

@[simp]
theorem packetsWritten_send (view : View) (client : ClientSocket) (packet : List Byte) :
    packetsWritten (sendSSLPacketToClientSocket view client packet) = [(client.ssl, packet)] := by
  unfold sendSSLPacketToClientSocket
  split <;> rfl

section Sockets

theorem shiftDown_movedFrom (later : List ClientSocket) :
    shiftDown ClientSocket.movedFrom later = (later, []) := by
  induction later with
  | nil => rfl
  | cons next later ih =>
    have emptied : (ClientSocket.movedFrom.moveAssign next) = ([], next, ClientSocket.movedFrom) := rfl
    simp only [shiftDown, emptied, ih, List.append_nil]

theorem shiftDown_fst (hole : ClientSocket) (later : List ClientSocket) : (shiftDown hole later).1 = later := by
  cases later with
  | nil => rfl
  | cons next later => simp only [shiftDown, ClientSocket.moveAssign, shiftDown_movedFrom]

theorem releases_moveAssign (this other : ClientSocket) :
    ∀ call ∈ (this.moveAssign other).1, Releases this.socket this.ssl call := by
  intro call member
  simp only [ClientSocket.moveAssign, List.mem_append] at member
  rcases member with freed | closed
  · split at freed
    · rw [List.mem_singleton.mp freed]
      rfl
    · simp at freed
  · split at closed
    · rw [List.mem_singleton.mp closed]
      rfl
    · simp at closed

theorem releases_destroy (this : ClientSocket) :
    ∀ call ∈ this.destroy, Releases this.socket this.ssl call := by
  intro call member
  unfold ClientSocket.destroy at member
  split at member
  · simp only [List.mem_cons, List.not_mem_nil, or_false] at member
    rcases member with freed | shut
    · exact freed ▸ rfl
    · exact shut ▸ trivial
  · simp at member

theorem releases_close (this : ClientSocket) (ssl : Option Handle) :
    ∀ call ∈ this.close, Releases this.socket ssl call := by
  intro call member
  simp only [ClientSocket.close, List.mem_cons, List.not_mem_nil, or_false] at member
  rcases member with shut | closed
  · exact shut ▸ trivial
  · exact closed ▸ rfl

theorem releases_shiftDown (hole : ClientSocket) (later : List ClientSocket) :
    ∀ call ∈ (shiftDown hole later).2, Releases hole.socket hole.ssl call := by
  cases later with
  | nil => exact releases_destroy hole
  | cons next later =>
    have moved : (hole.moveAssign next).2.2 = ClientSocket.movedFrom := rfl
    intro call member
    simp only [shiftDown, moved, shiftDown_movedFrom, List.append_nil] at member
    exact releases_moveAssign hole next call member

/-- Erasing through the hand-written moves removes one element and leaves the others as they are. -/
theorem erase_fst (sockets : List ClientSocket) (position : Nat) :
    (erase sockets position).1 = sockets.eraseIdx position := by
  unfold erase
  rw [List.eraseIdx_eq_take_drop_succ]
  cases rest : sockets.drop position with
  | nil =>
    have short := List.drop_eq_nil_iff.mp rest
    simp [List.take_of_length_le short, List.drop_eq_nil_of_le (Nat.le_succ_of_le short)]
  | cons hole later =>
    have tail : sockets.drop (position + 1) = later := by
      rw [← List.drop_drop, rest, List.drop_one, List.tail_cons]
    rw [tail]
    simp only [shiftDown_fst]

theorem releases_erase (sockets : List ClientSocket) (it : Fin sockets.length) :
    ∀ call ∈ (erase sockets it).2, Releases (sockets.get it).socket (sockets.get it).ssl call := by
  have split : sockets.drop it = sockets.get it :: sockets.drop (it + 1) := List.drop_eq_getElem_cons it.isLt
  simp only [erase, split]
  exact releases_shiftDown _ _

theorem pushBack_eq (reallocate : Bool) (sockets : List ClientSocket) (client : ClientSocket) :
    pushBack reallocate sockets client = (sockets ++ [client], []) := by
  have silent : ClientSocket.movedFrom.destroy = [] := rfl
  unfold pushBack
  cases reallocate with
  | false => simp [ClientSocket.moveConstruct, silent]
  | true => simp [ClientSocket.moveConstruct, silent]

end Sockets

section Handshake

/-- The two ends of the handshake loop: an enabled session, or one without a handle. -/
def Negotiated (client : ClientSocket) (result : Bool × ClientSocket × List Call) : Prop :=
  (result.1 = true ∧ result.2.1 = { client with sslEnabled := true } ∧ ∀ call ∈ result.2.2, Quiet call) ∨
  (result.1 = false ∧ result.2.1 = { client with ssl := none, sslEnabled := false } ∧
    ∀ call ∈ result.2.2, Releases client.socket client.ssl call)

theorem negotiated_giveUp (client : ClientSocket) : Negotiated client (giveUp client) :=
  Or.inr ⟨rfl, rfl, by simp [giveUp, Releases, Quiet]⟩

theorem Negotiated.again {client : ClientSocket} {result : Bool × ClientSocket × List Call}
    (later : Negotiated client result) :
    Negotiated client (result.1, result.2.1, .sslAccept client.ssl :: .sslGetError client.ssl :: result.2.2) := by
  rcases later with ⟨succeeded, enabled, quiet⟩ | ⟨failed, dropped, released⟩
  · exact Or.inl ⟨succeeded, enabled, by simpa [Quiet] using quiet⟩
  · exact Or.inr ⟨failed, dropped, by simpa [Releases, Quiet] using released⟩

theorem negotiated_handshakeLoop (client : ClientSocket) (attempts : List Attempt) :
    Negotiated client (handshakeLoop client attempts) := by
  induction attempts with
  | nil => exact negotiated_giveUp client
  | cons attempt rest ih =>
    simp only [handshakeLoop]
    split
    · exact Or.inl ⟨rfl, rfl, by simp [Quiet]⟩
    · split
      · exact negotiated_giveUp client
      · split
        · exact negotiated_giveUp client
        · split
          · exact negotiated_giveUp client
          · split
            · split
              · exact ih.again
              · exact negotiated_giveUp client
            · split
              · exact negotiated_giveUp client
              · exact ih.again

/-- `InitSSL` either hands back the session with the fresh handle enabled, or
drops the handle and touches nothing but this connection. -/
theorem initSSL_cases (fresh : Handle) (handshake : Handshake) (client : ClientSocket) :
    (∃ calls, initSSL fresh handshake client = (true, { client with ssl := some fresh, sslEnabled := true }, calls) ∧
      handshake.allocated = true ∧ ∀ call ∈ calls, Quiet call) ∨
    ∃ dropped calls, initSSL fresh handshake client = (false, dropped, calls) ∧ dropped.ssl = none ∧
      ∀ call ∈ calls, Releases client.socket (some fresh) call := by
  unfold initSSL
  by_cases allocated : handshake.allocated
  · by_cases attached : handshake.attached
    · have looped := negotiated_handshakeLoop { client with ssl := some fresh } handshake.attempts
      simp only [allocated, attached, Bool.not_true, Bool.false_eq_true, if_false]
      rcases looped with ⟨succeeded, enabled, quiet⟩ | ⟨failed, dropped, released⟩
      · refine Or.inl ⟨_, by rw [succeeded, enabled], trivial, ?_⟩
        simpa [Quiet] using quiet
      · refine Or.inr ⟨_, _, by rw [failed, dropped], rfl, ?_⟩
        simpa [Releases, Quiet] using released
    · simp only [allocated, attached, Bool.not_true, Bool.not_false, Bool.false_eq_true, if_true, if_false]
      exact Or.inr ⟨_, _, rfl, rfl, by simp [ClientSocket.close, Releases, Quiet]⟩
  · simp only [allocated, Bool.not_false, if_true]
    exact Or.inr ⟨_, _, rfl, rfl, by simp [ClientSocket.close, Releases, Quiet]⟩

theorem opcodeOf_motd (position : Nat) :
    opcodeOf (motdPacket.drop position) ∈ [some .smsgMotd, some .opcodeStart, none] := by
  by_cases inside : position < 44
  · have tails : ∀ start < 44, opcodeOf (motdPacket.drop start) ∈ [some .smsgMotd, some .opcodeStart, none] := by decide
    exact tails position inside
  · have size : motdPacket.length = 44 := by decide
    rw [List.drop_eq_nil_of_le (by omega)]
    decide

theorem plainReply_motd (ssl : Option Handle) (position : Nat) :
    PlainReply (.sslWrite ssl (motdPacket.drop position)) := by
  have starts := opcodeOf_motd position
  simp only [List.mem_cons, List.not_mem_nil, or_false] at starts
  rcases starts with motd | empty | unknown
  · simp [PlainReply, motd]
  · simp [PlainReply, empty]
  · simp [PlainReply, unknown]

theorem motdLoop_calls (written : Option Handle → List Byte → Int) (ssl : Option Handle) (rounds position : Nat) :
    ∀ call ∈ motdLoop written ssl rounds (motdPacket.drop position),
      (∃ start < motdPacket.length, call = .sslWrite ssl (motdPacket.drop start)) ∨ call = .sslGetError ssl := by
  induction rounds generalizing position with
  | zero => simp [motdLoop]
  | succ rounds ih =>
    intro call member
    simp only [motdLoop] at member
    split at member
    · simp at member
    · next left =>
      have inside : position < motdPacket.length := by
        by_contra past
        exact left (List.drop_eq_nil_of_le (not_lt.mp past))
      split at member
      · simp only [List.mem_cons, List.not_mem_nil, or_false] at member
        exact member.imp_left fun same => ⟨position, inside, same⟩
      · rw [List.drop_drop] at member
        rcases List.mem_cons.mp member with same | later
        · exact Or.inl ⟨position, inside, same⟩
        · exact ih _ call later

theorem plainReply_motdLoop (written : Option Handle → List Byte → Int) (ssl : Option Handle) (rounds : Nat)
    (position : Nat) : ∀ call ∈ motdLoop written ssl rounds (motdPacket.drop position), PlainReply call := by
  intro call member
  rcases motdLoop_calls written ssl rounds position call member with ⟨start, -, same⟩ | same
  · exact same ▸ plainReply_motd ssl start
  · exact same ▸ trivial

end Handshake

/-- Every way a step of the main loop can end without an exception, with the calls it makes. -/
inductive Stepped (input : Input) (config : Config) : Config → List Call → Prop where
  | polled (readfds : Int → Bool) (calls : List Call) (reached : config.pc = .poolActivity)
      (quiet : ∀ call ∈ calls, Quiet call) :
      Stepped input config
        { config with
          server := { config.server with readfds := readfds },
          pc := .handleNewConnections,
          trace := config.trace ++ calls } calls
  | unanswered (calls : List Call) (reached : config.pc = .handleNewConnections)
      (quiet : ∀ call ∈ calls, Quiet call) :
      Stepped input config { config with pc := .processRequests 0, trace := config.trace ++ calls } calls
  | refused (fresh : Handle) (calls : List Call) (reached : config.pc = .handleNewConnections)
      (ready : config.server.readfds config.server.masterSocket = true) (accepted : 0 ≤ input.acceptedFd)
      (later : config.fresh ≤ fresh)
      (released : ∀ call ∈ calls, Releases input.acceptedFd (some config.fresh) call) :
      Stepped input config
        { server := { config.server with uniqueClientCounter := config.server.uniqueClientCounter + 1 },
          pc := .processRequests 0,
          fresh := fresh,
          trace := config.trace ++ ([Call.fdIsSet config.server.masterSocket, .accept input.acceptedFd,
            .clientID config.server.uniqueClientCounter] ++ calls ++ [Call.close input.acceptedFd]) }
        ([Call.fdIsSet config.server.masterSocket, .accept input.acceptedFd,
            .clientID config.server.uniqueClientCounter] ++ calls ++ [Call.close input.acceptedFd])
  | admitted (calls greeting : List Call) (reached : config.pc = .handleNewConnections)
      (ready : config.server.readfds config.server.masterSocket = true) (accepted : 0 ≤ input.acceptedFd)
      (quiet : ∀ call ∈ calls, Quiet call)
      (greets : ∀ call ∈ greeting, PlainReply call) :
      Stepped input config
        { server := { config.server with
            uniqueClientCounter := config.server.uniqueClientCounter + 1,
            clientSockets := config.server.clientSockets ++ [
              { socket := input.acceptedFd,
                ssl := some config.fresh,
                sslEnabled := true,
                clientID := config.server.uniqueClientCounter }] },
          pc := .processRequests 0,
          fresh := config.fresh + 1,
          trace := config.trace ++ ([Call.fdIsSet config.server.masterSocket, .accept input.acceptedFd,
            .clientID config.server.uniqueClientCounter] ++ calls ++ greeting) }
        ([Call.fdIsSet config.server.masterSocket, .accept input.acceptedFd,
            .clientID config.server.uniqueClientCounter] ++ calls ++ greeting)
  | visited (it : Nat) (present : it < config.server.clientSockets.length)
      (reached : config.pc = .processRequests it) (next : Server) (position : Nat) (calls : List Call)
      (effect : Visited input config.server ⟨it, present⟩ next position calls) :
      Stepped input config
        { config with server := next, pc := .processRequests position, trace := config.trace ++ calls } calls
  | swept (it : Nat) (reached : config.pc = .processRequests it)
      (done : config.server.clientSockets.length ≤ it) :
      Stepped input config { config with pc := .loopEnd } []
  | looped (serverState : ServerState) (pc : Pc) (reached : config.pc = .loopEnd)
      (settled : serverState = config.server.serverState ∨ serverState = .closed)
      (next : pc = if serverState = .closed then .returning else .poolActivity) :
      Stepped input config
        { config with
          server := { config.server with serverState := serverState }, pc := pc } []
  | closed (reached : config.pc = .loopEnd) :
      Stepped input config
        { config with
          server := { config.server with serverState := .closed },
          pc := .returning,
          trace := config.trace ++ config.server.clientSockets.flatMap ClientSocket.close }
        (config.server.clientSockets.flatMap ClientSocket.close)
  | returned (reached : config.pc = .returning) :
      Stepped input config
        { config with
          server := { config.server with clientSockets := [] },
          pc := .exited,
          trace := config.trace ++ config.server.clientSockets.flatMap ClientSocket.destroy }
        (config.server.clientSockets.flatMap ClientSocket.destroy)
  | exited (reached : config.pc = .exited) :
      Stepped input config config []

theorem Stepped.trace_eq {input : Input} {config next : Config} {calls : List Call}
    (stepped : Stepped input config next calls) : next.trace = config.trace ++ calls := by
  cases stepped <;> simp

section Inversion
variable {host : Host} {input : Input} {config next : Config}

theorem quiet_poolActivity (select : SelectResult) (server : Server) :
    ∀ call ∈ (poolActivity select server).2, Quiet call := by
  intro call member
  simp only [poolActivity, List.cons_append, List.mem_cons, List.mem_append, List.not_mem_nil, or_false,
    List.mem_flatMap] at member
  rcases member with same | ⟨client, -, watched⟩ | same
  · exact same ▸ trivial
  · split at watched
    · exact List.mem_singleton.mp watched ▸ trivial
    · simp at watched
  · exact same ▸ trivial

theorem stepped_of_handleNewConnections (reached : config.pc = .handleNewConnections) :
    ∃ calls, Stepped input config
      { server := (handleNewConnections input config.fresh config.server).1,
        pc := .processRequests 0,
        fresh := (handleNewConnections input config.fresh config.server).2.1,
        trace := config.trace ++ (handleNewConnections input config.fresh config.server).2.2 } calls := by
  unfold handleNewConnections
  by_cases ready : config.server.readfds config.server.masterSocket = true
  · by_cases failed : input.acceptedFd < 0
    · simp only [if_pos ready, if_pos failed]
      exact ⟨_, .unanswered _ reached (by simp [Quiet, failed])⟩
    · have accepted : 0 ≤ input.acceptedFd := not_lt.mp failed
      simp only [if_pos ready, if_neg failed]
      rcases initSSL_cases config.fresh input.handshake
          { socket := input.acceptedFd, clientID := config.server.uniqueClientCounter } with
        ⟨calls, outcome, allocated, quiet⟩ | ⟨dropped, calls, outcome, plain, released⟩
      · simp only [outcome, allocated, if_true, pushBack_eq, List.append_nil]
        refine ⟨_, .admitted calls _ reached ready accepted quiet ?_⟩
        intro call member
        split at member
        · exact plainReply_motdLoop _ _ _ 0 call member
        · simp at member
      · have silent : dropped.destroy = [] := by simp [ClientSocket.destroy, plain]
        simp only [outcome, Bool.false_eq_true, if_false, silent, List.append_nil]
        refine ⟨_, .refused _ calls reached ready accepted ?_ released⟩
        split
        · exact Nat.le_succ _
        · exact le_rfl
  · simp only [if_neg ready]
    exact ⟨_, .unanswered _ reached (by simp [Quiet])⟩

theorem stepped_of_loopEnd (reached : config.pc = .loopEnd) :
    ∃ calls, Stepped input config
      { config with
        server := (loopEnd input.closingRequested config.server).1,
        trace := config.trace ++ (loopEnd input.closingRequested config.server).2,
        pc := if (loopEnd input.closingRequested config.server).1.serverState = .closed then .returning
          else .poolActivity } calls := by
  unfold loopEnd
  by_cases requested : input.closingRequested = true
  · simp only [if_pos requested, if_true]
    exact ⟨_, .closed reached⟩
  · by_cases closing : config.server.serverState = .closing
    · simp only [if_neg requested, if_pos closing, if_true, List.append_nil]
      exact ⟨_, .looped .closed _ reached (Or.inr rfl) rfl⟩
    · simp only [if_neg requested, if_neg closing, List.append_nil]
      exact ⟨_, .looped config.server.serverState _ reached (Or.inl rfl) rfl⟩

theorem stepped_of_step (stepped : step host input config = .ok next) : ∃ calls, Stepped input config next calls := by
  unfold step at stepped
  split at stepped
  · next reached =>
    obtain rfl := Except.ok.inj stepped
    exact ⟨_, .polled _ _ reached (quiet_poolActivity input.select config.server)⟩
  · next reached =>
    obtain rfl := Except.ok.inj stepped
    exact stepped_of_handleNewConnections reached
  · next it reached =>
    split at stepped
    · next present =>
      obtain ⟨⟨server, position, calls⟩, visited, returned⟩ := bind_eq_ok.mp stepped
      obtain rfl := Except.ok.inj returned
      exact ⟨_, .visited it present reached server position calls (visited_of_visit visited)⟩
    · next done =>
      obtain rfl := Except.ok.inj stepped
      exact ⟨_, .swept it reached (not_lt.mp done)⟩
  · next reached =>
    obtain rfl := Except.ok.inj stepped
    exact stepped_of_loopEnd reached
  · next reached =>
    obtain rfl := Except.ok.inj stepped
    exact ⟨_, .returned reached⟩
  · next reached =>
    obtain rfl := Except.ok.inj stepped
    exact ⟨_, .exited reached⟩

end Inversion

end Communo.Transitions
