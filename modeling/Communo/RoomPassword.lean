import Communo.RoomTable

/-! Room passwords from the database row to the verdict on a join request. The
loader takes the stored hash for C text, the check takes it for 32 bytes. -/

namespace Communo.RoomPassword
open Lib.ByteCodec Lib.CheckedMemory Protocol NumParser Chat Session Handlers MainLoop Dispatch Transitions RoomTable

theorem lookup_foldl_emplace (rows : List Row) (chatRooms : ChatRooms) (roomID : Byte) :
    (rows.foldl (fun table row => emplace table row.roomID row.room) chatRooms).lookup roomID =
      (chatRooms.lookup roomID).or ((rows.find? fun row => row.roomID = roomID).map Row.room) := by
  induction rows generalizing chatRooms with
  | nil => simp
  | cons row rows ih =>
    rw [List.foldl_cons, ih, lookup_emplace]
    by_cases same : row.roomID = roomID
    · subst same
      cases chatRooms.lookup row.roomID <;> simp
    · have different : ¬roomID = row.roomID := fun equal => same equal.symm
      simp [same, different]

theorem roomID_injective {rows : List Row} (schema : Schema rows) {first second : Row} (inFirst : first ∈ rows)
    (inSecond : second ∈ rows) (same : first.roomID = second.roomID) : first = second := by
  have firstRange := schema.range first inFirst
  have secondRange := schema.range second inSecond
  have equal : first.id = second.id := by
    have bits := congrArg BitVec.toNat same
    simp only [Row.roomID, BitVec.toNat_ofInt] at bits
    omega
  exact List.inj_on_of_nodup_map schema.unique inFirst inSecond equal

theorem lookup_loadRooms {rows : List Row} (schema : Schema rows) {row : Row} (member : row ∈ rows) :
    (loadRooms rows).lookup row.roomID = some row.room := by
  have found : rows.find? (fun other => other.roomID = row.roomID) = some row := by
    cases first : rows.find? (fun other => other.roomID = row.roomID) with
    | none =>
      have missing := List.find?_eq_none.mp first row member
      simp at missing
    | some other =>
      have same : other.roomID = row.roomID := by simpa using List.find?_some first
      rw [roomID_injective schema (List.mem_of_find?_eq_some first) member same]
  rw [loadRooms, lookup_foldl_emplace, found]
  simp

section Verdict
variable {behindHash : Byte → Mem} {chatRooms : ChatRooms} {roomID : Byte} {room : ChatRoom} {hash : List Byte}

theorem joinVerdict_protected (found : chatRooms.lookup roomID = some room) (locked : room.passwordHash ≠ []) :
    joinVerdict behindHash chatRooms roomID hash =
      (readBytes (hashMemory room.passwordHash (behindHash roomID)) 0 digestLength).bind fun roomHash =>
        .ok (if roomHash = hash then .ok else .invalidRoomPassword, chatRooms) := by
  have nonempty : room.passwordHash.isEmpty = false := by simpa using locked
  simp only [joinVerdict, isRoomProtected, index, checkRoomID, found, nonempty, checkPasswordHash]
  cases (readBytes (hashMemory room.passwordHash (behindHash roomID)) 0 digestLength : Checked Exn (List Byte)) with
  | error fault => rfl
  | ok roomHash =>
    by_cases same : roomHash = hash
    · simp [same, Except.bind]
    · simp [same, Except.bind]

theorem readBytes_hashMemory {stored : List Byte} (behind : Mem) (size : stored.length = digestLength)
    (clean : 0 ∉ stored.take 31) :
    (readBytes (hashMemory (cString stored) behind) 0 digestLength : Checked Exn (List Byte)) = .ok stored := by
  have reaches : 31 ≤ (cString stored).length := by
    rw [le_length_cString_iff]
    exact ⟨by simp only [size, digestLength]; omega, clean⟩
  have agrees : ∀ address < stored.length, hashMemory (cString stored) behind address = stored[address]? := by
    intro address inside
    have before : address ≤ (cString stored).length := by simp only [size, digestLength] at inside; omega
    rw [hashMemory, if_pos before, getElem?_cString inside before]
  rw [readBytes_slice agrees (by rw [size, Nat.zero_add])]
  simp [size]

/-- A NUL among the first 31 bytes makes the check run off the stored text. -/
theorem readBytes_hashMemory_stray {stored : List Byte} (cut : (cString stored).length < 31) :
    (readBytes (hashMemory (cString stored) fun _ => none) 0 digestLength : Checked Exn (List Byte)) =
      .error .stray := by
  apply readBytes_stray 31 (by decide)
  simp only [hashMemory, Nat.zero_add]
  exact if_neg (by omega)

end Verdict

def joinPacket (roomID : Byte) (hash : List Byte) : List Byte := opcodeBytes .cmsgJoinRoom ++ (roomID :: hash)

def AnswersJoinOk (host : Host) (view : View) (server : Server) (client : Fin server.clientSockets.length)
    (roomID : Byte) : Prop :=
  ∃ next calls, callHandler host view server client 35 = .ok (next, calls) ∧
    packetsWritten calls = [((server.clientSockets.get client).ssl, opcodeBytes .smsgJoinChatRoomOk ++ [roomID])]

/-- On a server with these rooms loaded a join request for the row's room is accepted exactly with its
password, and is decided without a look behind the stored hash. -/
def EnforcesPassword (host : Host) (rows : List Row) (row : Row) : Prop :=
  ∀ (server : Server) (client : Fin server.clientSockets.length) (view : View) (hash : List Byte),
    server.chatRooms = loadRooms rows → hash.length = digestLength → Delivers view (joinPacket row.roomID hash) →
    (AnswersJoinOk host view server client row.roomID ↔ row.passwordHash = none ∨ row.passwordHash = some hash) ∧
    ∃ result, callHandler host { view with behindHash := fun _ _ => none } server client 35 = .ok result

section Dispatched
variable {host : Host} {view : View} {server : Server} {client : Fin server.clientSockets.length} {roomID : Byte}
  {hash : List Byte} (delivers : Delivers view (joinPacket roomID hash)) (size : hash.length = digestLength)
include delivers size

theorem callHandler_joinPacket :
    callHandler host view server client 35 = callHandlerJoinRoom view server client 2 ∧
      (joinPacket roomID hash).length = 35 ∧ (joinPacket roomID hash)[2]? = some roomID ∧
      (joinPacket roomID hash).drop 3 = hash := by
  have length : (joinPacket roomID hash).length = 35 := by simp [joinPacket, size, digestLength]
  have opcode : opcodeOf (joinPacket roomID hash) = some .cmsgJoinRoom := opcodeOf_append _ _
  refine ⟨?_, length, by simp [joinPacket], by simp [joinPacket, List.drop_append]⟩
  have dispatched := callHandler_delivered delivers (by omega) host server client
  rw [length, opcode] at dispatched
  rw [dispatched]
  simp only [switchOpcode, digestLength, if_true]

theorem answersJoinOk_iff :
    AnswersJoinOk host view server client roomID ↔
      ∃ table, joinVerdict view.behindHash server.chatRooms roomID hash = .ok (.ok, table) := by
  obtain ⟨dispatched, length, named, rest⟩ := @callHandler_joinPacket host view server client roomID hash delivers size
  unfold AnswersJoinOk
  rw [dispatched, callHandlerJoinRoom_delivered delivers length named, rest]
  constructor
  · rintro ⟨next, calls, handled, written⟩
    obtain ⟨⟨error, table⟩, verdict, handled⟩ := bind_eq_ok.mp handled
    by_cases accepted : error = .ok
    · exact ⟨table, accepted ▸ verdict⟩
    · simp only [if_neg accepted, Except.ok.injEq, Prod.mk.injEq] at handled
      rw [← handled.2, packetsWritten_send] at written
      have opcodes := congrArg opcodeOf (Prod.mk.inj (List.cons.inj written).1).2
      simp at opcodes
  · rintro ⟨table, verdict⟩
    simp only [verdict, bind_ok, if_true]
    exact ⟨_, _, rfl, packetsWritten_send _ _ _⟩

theorem callHandler_join_ok_iff :
    (∃ result, callHandler host view server client 35 = .ok result) ↔
      ∃ verdict, joinVerdict view.behindHash server.chatRooms roomID hash = .ok verdict := by
  obtain ⟨dispatched, length, named, rest⟩ := @callHandler_joinPacket host view server client roomID hash delivers size
  rw [dispatched, callHandlerJoinRoom_delivered delivers length named, rest]
  constructor
  · rintro ⟨result, handled⟩
    obtain ⟨verdict, decided, -⟩ := bind_eq_ok.mp handled
    exact ⟨verdict, decided⟩
  · rintro ⟨verdict, decided⟩
    rw [decided, bind_ok]
    split <;> exact ⟨_, rfl⟩

end Dispatched

/-- Without a NUL among its first 31 bytes a stored hash decides every request for its room. -/
theorem joinVerdict_of_row {rows : List Row} {row : Row} (schema : Schema rows) (member : row ∈ rows)
    (clean : ∀ stored, row.passwordHash = some stored → 0 ∉ stored.take 31) (behindHash : Byte → Mem)
    (hash : List Byte) :
    joinVerdict behindHash (loadRooms rows) row.roomID hash =
      .ok (if row.passwordHash = none ∨ row.passwordHash = some hash then .ok else .invalidRoomPassword,
        loadRooms rows) := by
  have found := lookup_loadRooms schema member
  cases column : row.passwordHash with
  | none =>
    have unlocked : row.room.passwordHash = [] := by simp [Row.room, columnText, column]
    simpa using joinVerdict_open found unlocked
  | some stored =>
    have size : stored.length = digestLength := schema.hashed row member stored column
    have loaded : row.room.passwordHash = cString stored := by simp [Row.room, columnText, column]
    have locked : row.room.passwordHash ≠ [] := by
      have reaches := (le_length_cString_iff stored 31).mpr
        ⟨by simp only [size, digestLength]; omega, clean stored column⟩
      rw [loaded, ← List.length_pos_iff]
      omega
    rw [joinVerdict_protected found locked, loaded, readBytes_hashMemory _ size (clean stored column), bind_ok]
    simp

/-- The password of a room is enforced exactly when its hash is NULL or has no NUL among its first 31 bytes. -/
theorem password_enforced_iff (host : Host) (rows : List Row) (row : Row) (schema : Schema rows) (member : row ∈ rows) :
    EnforcesPassword host rows row ↔ ∀ stored, row.passwordHash = some stored → 0 ∉ stored.take 31 := by
  constructor
  · intro enforces stored column cut
    have short : (cString stored).length < 31 := by
      by_contra long
      exact ((le_length_cString_iff stored 31).mp (not_lt.mp long)).2 cut
    have found := lookup_loadRooms schema member
    have loaded : row.room.passwordHash = cString stored := by simp [Row.room, columnText, column]
    let server : Server := { exampleServer with chatRooms := loadRooms rows }
    let client : Fin server.clientSockets.length := ⟨0, Nat.zero_lt_succ 1⟩
    let hash : List Byte := List.replicate 32 1
    let view : View := exampleView (holding (joinPacket row.roomID hash))
    have size : hash.length = digestLength := rfl
    have delivers : Delivers view (joinPacket row.roomID hash) := fun _ _ => rfl
    have delivers' : Delivers { view with behindHash := fun _ _ => none } (joinPacket row.roomID hash) := delivers
    obtain ⟨answered, confined⟩ := enforces server client view hash rfl size delivers
    by_cases empty : cString stored = []
    · have accepted : AnswersJoinOk host view server client row.roomID :=
        (answersJoinOk_iff delivers size).mpr ⟨_, joinVerdict_open found (loaded.trans empty)⟩
      rcases answered.mp accepted with unprotected | same
      · simp [column] at unprotected
      · have equal : stored = hash := Option.some.inj (column.symm.trans same)
        rw [equal] at cut
        exact absurd cut (by decide)
    · obtain ⟨verdict, decided⟩ := (callHandler_join_ok_iff delivers' size).mp confined
      have locked : row.room.passwordHash ≠ [] := loaded ▸ empty
      rw [joinVerdict_protected found locked, loaded, readBytes_hashMemory_stray short] at decided
      simp [Except.bind] at decided
  · intro clean server client view hash rooms size delivers
    have delivers' : Delivers { view with behindHash := fun _ _ => none } (joinPacket row.roomID hash) := delivers
    constructor
    · rw [answersJoinOk_iff delivers size, rooms, joinVerdict_of_row schema member clean]
      by_cases allowed : row.passwordHash = none ∨ row.passwordHash = some hash
      · simp [allowed]
      · simp [allowed]
    · rw [callHandler_join_ok_iff delivers' size, rooms]
      exact ⟨_, joinVerdict_of_row schema member clean _ hash⟩

/-- An open room, one with an ordinary hash and one whose hash begins with a NUL. -/
def sampleRows : List Row := [
  { id := 1, name := some (text "General"), passwordHash := none },
  { id := 2, name := some (text "Staff"), passwordHash := some (List.replicate 32 0x5e) },
  { id := 3, name := some (text "Vault"), passwordHash := some (0 :: List.replicate 31 0x5e) }]

theorem sampleRows_schema : Schema sampleRows where
  range := by decide
  unique := by decide
  named := by decide
  hashed := by decide

theorem password_enforced_staff :
    EnforcesPassword exampleHost sampleRows
      { id := 2, name := some (text "Staff"), passwordHash := some (List.replicate 32 0x5e) } :=
  (password_enforced_iff exampleHost sampleRows _ sampleRows_schema (by decide)).mpr (by
    rintro stored column
    obtain rfl := Option.some.inj column
    decide)

/-- The room behind a hash that begins with a NUL lets everyone in. -/
theorem vault_password_ignored :
    ¬EnforcesPassword exampleHost sampleRows
      { id := 3, name := some (text "Vault"), passwordHash := some (0 :: List.replicate 31 0x5e) } := by
  intro enforces
  have answered := (enforces { exampleServer with chatRooms := loadRooms sampleRows } ⟨0, by decide⟩
    (exampleView (holding (joinPacket 3 (List.replicate 32 7)))) (List.replicate 32 7) rfl rfl (fun _ _ => rfl)).1
  exact absurd (answered.mp ⟨_, _, rfl, rfl⟩) (by decide)

end Communo.RoomPassword
