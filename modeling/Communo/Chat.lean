import Communo.NumParser

/-! The chat-room table: how it is loaded from the database and how the join
handler consults it. Lookups through `operator[]` return the table as well,
because they may insert. -/

namespace Communo.Chat
open Lib.ByteCodec Lib.CheckedMemory Protocol NumParser

structure ChatRoom where
  name : List Byte := []
  passwordHash : List Byte := []
  deriving DecidableEq, Repr

/-- `m_ChatRooms`; the order of the entries stands for no particular iteration order. -/
abbrev ChatRooms := AList (fun _ : Byte => ChatRoom)

/-- A row of `chat_rooms` as SQLite hands it over, `none` for NULL. -/
structure Row where
  id : Int
  name : Option (List Byte)
  passwordHash : Option (List Byte)
  deriving DecidableEq, Repr

structure Schema (rows : List Row) : Prop where
  range : ∀ row ∈ rows, 0 ≤ row.id ∧ row.id ≤ 255
  unique : (rows.map Row.id).Nodup
  named : ∀ row ∈ rows, row.name.isSome
  hashed : ∀ row ∈ rows, ∀ hash ∈ row.passwordHash, hash.length = digestLength

/-- `sqlite3_column_text` read as a C string, with the empty string for a null pointer. -/
def columnText (value : Option (List Byte)) : List Byte := (value.map cString).getD []

def Row.roomID (row : Row) : Byte := BitVec.ofInt 8 row.id

def Row.room (row : Row) : ChatRoom :=
  { name := columnText row.name, passwordHash := columnText row.passwordHash }

def emplace (chatRooms : ChatRooms) (roomID : Byte) (room : ChatRoom) : ChatRooms :=
  if (chatRooms.lookup roomID).isSome then chatRooms else chatRooms.insert roomID room

def loadRooms (rows : List Row) : ChatRooms :=
  rows.foldl (fun chatRooms row => emplace chatRooms row.roomID row.room) ∅

def checkRoomID (chatRooms : ChatRooms) (roomID : Byte) : Bool := (chatRooms.lookup roomID).isSome

/-- `m_ChatRooms[roomID]`: the entry, created empty when it is missing. -/
def index (chatRooms : ChatRooms) (roomID : Byte) : ChatRoom × ChatRooms :=
  match chatRooms.lookup roomID with
  | some room => (room, chatRooms)
  | none => ({}, chatRooms.insert roomID {})

def isRoomProtected (chatRooms : ChatRooms) (roomID : Byte) : Bool × ChatRooms :=
  (!(index chatRooms roomID).1.passwordHash.isEmpty, (index chatRooms roomID).2)

/-- The memory at `passwordHash.data()`: the characters, the terminator, then whatever lies behind. -/
def hashMemory (passwordHash : List Byte) (behind : Mem) : Mem :=
  fun address => if address ≤ passwordHash.length then (passwordHash ++ [0])[address]? else behind address

def checkPasswordHash (behindHash : Byte → Mem) (chatRooms : ChatRooms) (roomID : Byte) (hash : List Byte) :
    Checked Exn (Bool × ChatRooms) :=
  let room := index chatRooms roomID
  (readBytes (hashMemory room.1.passwordHash (behindHash roomID)) 0 digestLength).bind fun roomHash =>
    .ok (roomHash == hash, room.2)

def getRoomName (chatRooms : ChatRooms) (roomID : Byte) : Checked Exn (List Byte) :=
  match chatRooms.lookup roomID with
  | some room => .ok room.name
  | none => .error (.thrown .outOfRange)

def roomLine (roomID : Byte) (room : ChatRoom) : List Byte :=
  text "[" ++ decimal roomID.toNat ++ text "] " ++ room.name ++
    (if room.passwordHash.isEmpty then text " (open)" else text " (protected)")

def roomLines : List (Sigma fun _ : Byte => ChatRoom) → List Byte
  | [] => []
  | [⟨roomID, room⟩] => roomLine roomID room
  | ⟨roomID, room⟩ :: rest => roomLine roomID room ++ text "\n" ++ roomLines rest

/-- The order in which an `unordered_map` is traversed is the library's choice. -/
structure Traversal where
  order : List (Sigma fun _ : Byte => ChatRoom) → List (Sigma fun _ : Byte => ChatRoom)
  complete : ∀ entries, (order entries).Perm entries

def getChatRoomsStr (traversal : Traversal) (chatRooms : ChatRooms) : List Byte :=
  roomLines (traversal.order chatRooms.entries)

theorem lookup_emplace (chatRooms : ChatRooms) (roomID other : Byte) (room : ChatRoom) :
    (emplace chatRooms roomID room).lookup other =
      if other = roomID then some ((chatRooms.lookup roomID).getD room) else chatRooms.lookup other := by
  unfold emplace
  by_cases same : other = roomID
  · subst same
    cases present : chatRooms.lookup other <;> simp [present]
  · cases present : chatRooms.lookup roomID <;> simp [same, AList.lookup_insert_ne same]

theorem index_of_checkRoomID {chatRooms : ChatRooms} {roomID : Byte} (present : checkRoomID chatRooms roomID) :
    (index chatRooms roomID).2 = chatRooms := by
  unfold checkRoomID at present
  unfold index
  cases found : chatRooms.lookup roomID with
  | none => simp [found] at present
  | some room => rfl

theorem lookup_index (chatRooms : ChatRooms) (roomID other : Byte) :
    (index chatRooms roomID).2.lookup other =
      if other = roomID then some ((chatRooms.lookup roomID).getD {}) else chatRooms.lookup other := by
  unfold index
  cases found : chatRooms.lookup roomID with
  | some room =>
    by_cases same : other = roomID
    · subst same
      simp [found]
    · simp [same]
  | none =>
    by_cases same : other = roomID
    · subst same
      simp
    · simp [same, AList.lookup_insert_ne same]

theorem checkRoomID_index (chatRooms : ChatRooms) (roomID other : Byte) :
    checkRoomID (index chatRooms roomID).2 other = (checkRoomID chatRooms other || decide (other = roomID)) := by
  unfold checkRoomID
  rw [lookup_index]
  by_cases same : other = roomID
  · simp [same]
  · simp [same]

end Communo.Chat
