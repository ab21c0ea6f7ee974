import Communo.Transitions
import Communo.Survival

/-! The room table along whole runs. The join handler looks a room up through
`operator[]` even when its ID is unknown, and that lookup creates the room. -/

namespace Communo.RoomTable
open Lib.ByteCodec Lib.CheckedMemory Lib.Runs Protocol NumParser Chat Session Handlers MainLoop Dispatch Transitions
  Survival

section Verdict
variable {behindHash : Byte → Mem} {chatRooms : ChatRooms} {roomID : Byte} {hash : List Byte}

theorem joinVerdict_table {error : ChatErr} {table : ChatRooms}
    (verdict : joinVerdict behindHash chatRooms roomID hash = .ok (error, table)) :
    table = (index chatRooms roomID).2 := by
  simp only [joinVerdict] at verdict
  split at verdict
  · have present : checkRoomID (isRoomProtected chatRooms roomID).2 roomID := by
      simp only [isRoomProtected, checkRoomID_index, decide_true, Bool.or_true]
    obtain ⟨checked, compared, verdict⟩ := bind_eq_ok.mp verdict
    obtain ⟨roomHash, -, compared⟩ := bind_eq_ok.mp compared
    have kept := index_of_checkRoomID present
    have settled : checked.2 = table := (Prod.mk.inj (Except.ok.inj verdict)).2
    have looked : (index (isRoomProtected chatRooms roomID).2 roomID).2 = checked.2 :=
      congrArg Prod.snd (Except.ok.inj compared)
    calc
      table = (index (isRoomProtected chatRooms roomID).2 roomID).2 := by rw [looked, settled]
      _ = (index chatRooms roomID).2 := kept
  · exact (Prod.mk.inj (Except.ok.inj verdict)).2.symm

theorem joinVerdict_absent (absent : checkRoomID chatRooms roomID = false) :
    joinVerdict behindHash chatRooms roomID hash = .ok (.invalidRoom, (index chatRooms roomID).2) := by
  have missing : chatRooms.lookup roomID = none := by simpa [checkRoomID] using absent
  simp [joinVerdict, isRoomProtected, index, missing, absent]

theorem joinVerdict_open {room : ChatRoom} (found : chatRooms.lookup roomID = some room)
    (unlocked : room.passwordHash = []) :
    joinVerdict behindHash chatRooms roomID hash = .ok (.ok, chatRooms) := by
  simp [joinVerdict, isRoomProtected, index, checkRoomID, found, unlocked]

end Verdict

def JoinsRoom (roomID : Byte) (packet : List Byte) : Prop :=
  opcodeOf packet = some .cmsgJoinRoom ∧ packet.length = 35 ∧ packet[2]? = some roomID

def ReceivesJoin (roomID : Byte) (input : Input) (config : Config) : Prop :=
  ∃ received, Receives input config received ∧ JoinsRoom roomID received.bytes

def joinReply (roomID : Byte) (error : ChatErr) : List Byte :=
  if error = .ok then opcodeBytes .smsgJoinChatRoomOk ++ [roomID]
  else opcodeBytes .smsgJoinChatRoomErr ++ [error.code]

/-- The step answers the session it reads from with `ERR_INVALID_ROOM` and changes no session. -/
def RefusesInvalidRoom (host : Host) (input : Input) (config : Config) : Prop :=
  ∃ (it : Nat) (present : it < config.server.clientSockets.length) (next : Config),
    config.pc = .processRequests it ∧ step host input config = .ok next ∧
    next.server.clientSockets = config.server.clientSockets ∧
    packetsWritten (next.trace.drop config.trace.length) =
      [((config.server.clientSockets.get ⟨it, present⟩).ssl,
        opcodeBytes .smsgJoinChatRoomErr ++ [ChatErr.invalidRoom.code])]

section Step
variable {host : Host} {input : Input} {config next : Config} {calls : List Call} {roomID : Byte}

theorem answered_of_receivesJoin (joins : ReceivesJoin roomID input config)
    (stepped : Stepped input config next calls) :
    ∃ (it : Nat) (present : it < config.server.clientSockets.length) (behindHash : Byte → Mem) (hash : List Byte)
      (error : ChatErr), config.pc = .processRequests it ∧
      joinVerdict behindHash config.server.chatRooms roomID hash = .ok (error, next.server.chatRooms) ∧
      packetsWritten calls = [((config.server.clientSockets.get ⟨it, present⟩).ssl, joinReply roomID error)] ∧
      (error ≠ .ok → next.server.clientSockets = config.server.clientSockets) := by
  obtain ⟨received, ⟨it, present, reached, isOpen, ready, data⟩, isJoin, size, named⟩ := joins
  cases stepped with
  | visited it' present' reached' server position calls effect =>
    obtain rfl := Pc.processRequests.inj (reached.symm.trans reached')
    refine ⟨it, present, ?_⟩
    cases effect with
    | closing closing => exact absurd closing isOpen
    | idle _ quiet => exact absurd (quiet.symm.trans ready) (by simp)
    | lost _ _ lost => exact absurd data (lost received)
    | short _ _ other data' single =>
      obtain rfl := ReadResult.data.inj (data.symm.trans data')
      omega
    | handled _ _ other data' _ server calls effect =>
      obtain rfl := ReadResult.data.inj (data.symm.trans data')
      cases effect with
      | plain _ other => exact absurd ⟨isJoin, size⟩ other
      | counted isIncrement => exact absurd (isJoin.symm.trans isIncrement) (by decide)
      | said isSay => exact absurd (isJoin.symm.trans isSay) (by decide)
      | joined room chatRooms _ _ named' verdict =>
        obtain rfl := Option.some.inj (named.symm.trans named')
        refine ⟨_, _, .ok, reached, verdict, ?_, fun failed => absurd rfl failed⟩
        rw [packetsWritten_append, packetsWritten_send]
        rfl
      | refused room error chatRooms _ _ named' failed verdict =>
        obtain rfl := Option.some.inj (named.symm.trans named')
        refine ⟨_, _, error, reached, verdict, ?_, fun _ => rfl⟩
        rw [packetsWritten_append, packetsWritten_send, joinReply, if_neg failed]
        rfl
  | swept it' reached' done =>
    obtain rfl := Pc.processRequests.inj (reached.symm.trans reached')
    omega
  | _ => simp_all

theorem table_of_receivesJoin (joins : ReceivesJoin roomID input config) (stepped : Stepped input config next calls) :
    next.server.chatRooms = (index config.server.chatRooms roomID).2 := by
  obtain ⟨_, _, _, _, _, _, verdict, _, _⟩ := answered_of_receivesJoin joins stepped
  exact joinVerdict_table verdict

theorem table_of_no_join (stepped : Stepped input config next calls)
    (other : ∀ roomID, ¬ReceivesJoin roomID input config) : next.server.chatRooms = config.server.chatRooms := by
  cases stepped with
  | visited it present reached server position calls effect =>
    cases effect with
    | handled isOpen ready received data _ server calls effect =>
      have receives : Receives input config received := ⟨it, present, reached, isOpen, ready, data⟩
      cases effect with
      | joined roomID _ isJoin size named => exact absurd ⟨received, receives, isJoin, size, named⟩ (other roomID)
      | refused roomID _ _ isJoin size named => exact absurd ⟨received, receives, isJoin, size, named⟩ (other roomID)
      | _ => rfl
    | _ => rfl
  | _ => rfl

end Step

section Runs
variable {host : Host} {boot : Boot} {inputs : List Input} {config : Config} {roomID : Byte}

/-- A step leaves the table alone or does one lookup through `operator[]` in it. -/
theorem table_cases {input : Input} {config next : Config} (stepped : step host input config = .ok next) :
    next.server.chatRooms = config.server.chatRooms ∧ (∀ roomID, ¬ReceivesJoin roomID input config) ∨
      ∃ roomID, ReceivesJoin roomID input config ∧
        next.server.chatRooms = (index config.server.chatRooms roomID).2 := by
  obtain ⟨calls, effect⟩ := stepped_of_step stepped
  by_cases joins : ∃ roomID, ReceivesJoin roomID input config
  · obtain ⟨roomID, receives⟩ := joins
    exact Or.inr ⟨roomID, receives, table_of_receivesJoin receives effect⟩
  · have other : ∀ roomID, ¬ReceivesJoin roomID input config := not_exists.mp joins
    exact Or.inl ⟨table_of_no_join effect other, other⟩

theorem checkRoomID_step {input : Input} {config next : Config} (stepped : step host input config = .ok next)
    (present : checkRoomID config.server.chatRooms roomID) : checkRoomID next.server.chatRooms roomID := by
  rcases table_cases stepped with ⟨kept, -⟩ | ⟨other, -, looked⟩
  · rw [kept]
    exact present
  · rw [looked, checkRoomID_index, present, Bool.true_or]

/-- The rooms that were not loaded are those someone has asked for, and they are open. -/
theorem lookup_of_run (ran : ServerRun host (fun _ _ => True) boot inputs config)
    (absent : checkRoomID (loadRooms boot.rows) roomID = false)
    (present : checkRoomID config.server.chatRooms roomID = true) :
    config.server.chatRooms.lookup roomID = some {} := by
  have created : checkRoomID config.server.chatRooms roomID = true →
      config.server.chatRooms.lookup roomID = some {} := by
    refine ran.invariant (I := fun config => checkRoomID config.server.chatRooms roomID = true →
      config.server.chatRooms.lookup roomID = some {}) ?_ ?_
    · intro loaded
      exact absurd (absent.symm.trans loaded) (by simp)
    · intro input config next before _ stepped now
      rcases table_cases stepped with ⟨kept, -⟩ | ⟨other, -, looked⟩
      · rw [kept] at now ⊢
        exact before now
      · rw [looked] at now ⊢
        rw [lookup_index]
        rw [checkRoomID_index] at now
        by_cases same : roomID = other
        · subst same
          cases found : config.server.chatRooms.lookup roomID with
          | none => simp
          | some room => simp [← before (by simp [checkRoomID, found]), found]
        · simp only [same, decide_false, Bool.or_false] at now
          rw [if_neg same]
          exact before now
  exact created present

theorem checkRoomID_eq_false_iff (ran : ServerRun host (fun _ _ => True) boot inputs config)
    (absent : checkRoomID (loadRooms boot.rows) roomID = false) :
    checkRoomID config.server.chatRooms roomID = false ↔
      ServerRun host (fun input config => ¬ReceivesJoin roomID input config) boot inputs config := by
  constructor
  · intro final
    refine ran.allowed_of_final (J := fun config => checkRoomID config.server.chatRooms roomID = false) ?_ final
    intro input config next _ stepped missing
    constructor
    · by_contra present
      have later := checkRoomID_step stepped (Bool.not_eq_false _ ▸ present)
      exact absurd (missing.symm.trans later) (by simp)
    · intro joins
      obtain ⟨calls, effect⟩ := stepped_of_step stepped
      rw [table_of_receivesJoin joins effect, checkRoomID_index] at missing
      simp at missing
  · intro strict
    refine strict.invariant (I := fun config => checkRoomID config.server.chatRooms roomID = false) absent ?_
    intro input config next missing other stepped
    rcases table_cases stepped with ⟨kept, -⟩ | ⟨joinedID, joins, looked⟩
    · rw [kept]
      exact missing
    · have different : roomID ≠ joinedID := fun same => other (same ▸ joins)
      rw [looked, checkRoomID_index, missing]
      simp [different]

theorem table_eq_loaded_iff (ran : ServerRun host (fun _ _ => True) boot inputs config) :
    config.server.chatRooms = loadRooms boot.rows ↔
      ServerRun host (fun input config => ∀ roomID, checkRoomID (loadRooms boot.rows) roomID = false →
        ¬ReceivesJoin roomID input config) boot inputs config := by
  constructor
  · intro final
    refine ran.allowed_of_final (J := fun config => ∀ roomID, checkRoomID config.server.chatRooms roomID →
      checkRoomID (loadRooms boot.rows) roomID) ?_ (fun roomID present => final ▸ present)
    intro input config next _ stepped loaded
    constructor
    · intro roomID present
      exact loaded roomID (checkRoomID_step stepped present)
    · intro roomID absent joins
      obtain ⟨calls, effect⟩ := stepped_of_step stepped
      have created : checkRoomID next.server.chatRooms roomID := by
        rw [table_of_receivesJoin joins effect, checkRoomID_index]
        simp
      exact absurd (absent.symm.trans (loaded roomID created)) (by simp)
  · intro strict
    refine strict.invariant (I := fun config => config.server.chatRooms = loadRooms boot.rows) rfl ?_
    intro input config next kept harmless stepped
    rcases table_cases stepped with ⟨same, -⟩ | ⟨roomID, joins, looked⟩
    · exact same.trans kept
    · have present : checkRoomID config.server.chatRooms roomID := by
        rw [kept]
        by_contra missing
        exact harmless roomID (Bool.not_eq_true _ ▸ missing) joins
      rw [looked, index_of_checkRoomID present]
      exact kept

end Runs

theorem step_total_of_receivesJoin (host : Host) {input : Input} {config : Config} {roomID : Byte}
    (joins : ReceivesJoin roomID input config) : ∃ next, step host input config = .ok next := by
  obtain ⟨received, ⟨it, present, reached, isOpen, ready, data⟩, isJoin, -⟩ := joins
  cases stepped : step host input config with
  | ok next => exact ⟨next, rfl⟩
  | error fault =>
    obtain ⟨-, other, ⟨_, _, _, _, _, data'⟩, isAddition, -⟩ := (step_eq_error_iff host input config fault).mp stepped
    obtain rfl := ReadResult.data.inj (data.symm.trans data')
    exact absurd (isJoin.symm.trans isAddition) (by decide)

theorem refusesInvalidRoom_iff {host : Host} {boot : Boot} {inputs : List Input} {config : Config} {roomID : Byte}
    (ran : ServerRun host (fun _ _ => True) boot inputs config)
    (absent : checkRoomID (loadRooms boot.rows) roomID = false) {input : Input}
    (joins : ReceivesJoin roomID input config) :
    RefusesInvalidRoom host input config ↔ checkRoomID config.server.chatRooms roomID = false := by
  constructor
  · rintro ⟨it, present, next, reached, stepped, -, written⟩
    obtain ⟨calls, effect⟩ := stepped_of_step stepped
    obtain ⟨_, _, behindHash, hash, error, _, verdict, answered, -⟩ := answered_of_receivesJoin joins effect
    rw [effect.trace_eq, List.drop_left, answered] at written
    by_contra known
    have found := lookup_of_run ran absent (Bool.not_eq_false _ ▸ known)
    have welcome : joinVerdict behindHash config.server.chatRooms roomID hash = .ok (.ok, config.server.chatRooms) :=
      joinVerdict_open found rfl
    have accepted : error = .ok := (Prod.mk.inj (Except.ok.inj (verdict.symm.trans welcome))).1
    have reply := (Prod.mk.inj (List.cons.inj written).1).2
    rw [accepted, joinReply, if_pos rfl] at reply
    have opcodes := congrArg opcodeOf reply
    simp at opcodes
  · intro missing
    obtain ⟨next, stepped⟩ := step_total_of_receivesJoin host joins
    obtain ⟨calls, effect⟩ := stepped_of_step stepped
    obtain ⟨it, present, behindHash, hash, error, reached, verdict, answered, unchanged⟩ :=
      answered_of_receivesJoin joins effect
    have rejected := verdict.symm.trans (joinVerdict_absent missing)
    have invalid : error = .invalidRoom := (Prod.mk.inj (Except.ok.inj rejected)).1
    refine ⟨it, present, next, reached, stepped, unchanged (by simp [invalid]), ?_⟩
    rw [effect.trace_eq, List.drop_left, answered, invalid]
    rfl

/-- The table stays as it was loaded exactly in the runs whose join requests name loaded rooms only. A request
for a room that was not loaded is refused exactly when it is the first one in the run for that room. -/
theorem roomTable_unchanged_iff (host : Host) (boot : Boot) (inputs : List Input) (config : Config)
    (ran : ServerRun host (fun _ _ => True) boot inputs config) :
    (config.server.chatRooms = loadRooms boot.rows ↔
      ServerRun host (fun input config => ∀ roomID, checkRoomID (loadRooms boot.rows) roomID = false →
        ¬ReceivesJoin roomID input config) boot inputs config) ∧
    ∀ roomID, checkRoomID (loadRooms boot.rows) roomID = false → ∀ input, ReceivesJoin roomID input config →
      (RefusesInvalidRoom host input config ↔
        ServerRun host (fun input config => ¬ReceivesJoin roomID input config) boot inputs config) := by
  refine ⟨table_eq_loaded_iff ran, ?_⟩
  intro roomID absent input joins
  rw [refusesInvalidRoom_iff ran absent joins]
  exact checkRoomID_eq_false_iff ran absent

def joinSeven : Received :=
  { bytes := [0, 12, 7] ++ List.replicate 32 1, nonempty := by decide, fits := by decide }

/-- A run with one ping keeps the empty table, and the first request for room 7 is refused. -/
theorem roomTable_unchanged_ping :
    ∃ config, ServerRun exampleHost (fun input config => ∀ roomID,
        checkRoomID (loadRooms (exampleBoot []).rows) roomID = false → ¬ReceivesJoin roomID input config)
        (exampleBoot []) untilRead config ∧
      RefusesInvalidRoom exampleHost (deliver joinSeven) config := by
  obtain ⟨config, ran⟩ : ∃ config, run (step exampleHost) untilRead (exampleBoot []).config = .ok config := ⟨_, rfl⟩
  have execution : ServerRun exampleHost (fun _ _ => True) (exampleBoot []) untilRead config := Execution.of_run .nil ran
  have settled := roomTable_unchanged_iff exampleHost (exampleBoot []) untilRead config execution
  refine ⟨config, settled.1.mp ?_, (settled.2 7 rfl (deliver joinSeven) ?_).mpr ?_⟩
  · cases ran
    rfl
  · cases ran
    exact ⟨joinSeven, ⟨0, by decide, rfl, by decide, rfl, rfl⟩, by decide, by decide, by decide⟩
  · refine (checkRoomID_eq_false_iff execution rfl).mp ?_
    cases ran
    rfl

/-- After one request for a room that does not exist the table has a new entry, and
the second request for it is answered with `SMSG_JOIN_CHAT_ROOM_OK`. -/
theorem joinSeven_creates_room :
    ∃ (inputs : List Input) (config next : Config),
      ServerRun exampleHost (fun _ _ => True) (exampleBoot []) inputs config ∧
      checkRoomID (loadRooms (exampleBoot []).rows) 7 = false ∧ ReceivesJoin 7 (deliver joinSeven) config ∧
      config.server.chatRooms ≠ loadRooms (exampleBoot []).rows ∧
      step exampleHost (deliver joinSeven) config = .ok next ∧
      packetsWritten (next.trace.drop config.trace.length) = [(some 0, opcodeBytes .smsgJoinChatRoomOk ++ [7])] ∧
      next.server.clientSockets.map (fun client => (client.chatRoomJoined, client.joinedChatRoomID)) = [(true, 7)] := by
  obtain ⟨config, ran⟩ : ∃ config, run (step exampleHost) (untilRead ++ [deliver joinSeven, idle, idle,
      deliver joinSeven, idle]) (exampleBoot []).config = .ok config := ⟨_, rfl⟩
  obtain ⟨next, stepped⟩ : ∃ next, step exampleHost (deliver joinSeven) config = .ok next := by
    cases ran
    exact ⟨_, rfl⟩
  refine ⟨_, config, next, Execution.of_run .nil ran, rfl, ?_, ?_, stepped, ?_, ?_⟩
  · cases ran
    exact ⟨joinSeven, ⟨0, by decide, rfl, by decide, rfl, rfl⟩, by decide, by decide, by decide⟩
  · cases ran
    intro same
    exact absurd (congrArg (fun table => checkRoomID table 7) same) (by decide)
  · cases ran
    cases stepped
    rfl
  · cases ran
    cases stepped
    rfl

end Communo.RoomTable
