import Communo.ClientList
import Communo.Lib.Transducers

/-! What the server is for, without bytes: a service with members, rooms and a
counter that takes one query at a time and answers it with messages to members.
Its values carry what no run can break. -/

namespace Communo.ChatService
open Lib.ByteCodec Lib.CheckedMemory Lib.Transducers Protocol NumParser Chat Session Handlers MainLoop ClientList

inductive Query where
  | echo (payload : List Byte)
  | add (numbers : List Number)
  | broadcast (payload : List Byte)
  | getClients
  | tell (clientID : BitVec 64) (message : List Byte)
  | ping
  | uptime
  | increment
  | getCounter
  | getRooms
  | getRoomInfo
  | join (roomID : Byte) (hash : List Byte)
  | say (payload : List Byte)
  -- the opcode is known but the rest has the wrong length
  | malformed
  | unknown
  -- not even an opcode
  | short
  deriving DecidableEq, Repr

/-- What a member is told, in reply or because of what another one asked for. -/
inductive Answer where
  | motd
  | echo (payload : List Byte)
  | sum (value : BitVec 64)
  | broadcast (payload : List Byte)
  | clients (entries : List (BitVec 64 × List Byte))
  | tooManyClients
  | told (error : ChatErr)
  | privateMessage (sender : BitVec 64) (message : List Byte)
  | pong
  | uptime (seconds : Nat)
  | counter (value : BitVec 64)
  | message (content : List Byte)
  | joined (roomID : Byte)
  | notJoined (error : ChatErr)
  | sayOk
  | sayErr (error : ChatErr)
  | say (payload : List Byte)
  | invalid
  deriving DecidableEq, Repr

def Answer.bytes (order : ByteOrder) : Answer → List Byte
  | .motd => motdPacket
  | .echo payload => opcodeBytes .smsgEchoRequest ++ payload
  | .sum value => opcodeBytes .smsgAdditionRequest ++ toBytes order 8 value.toNat
  | .broadcast payload => opcodeBytes .smsgBroadcast ++ payload
  | .clients entries => opcodeBytes .smsgClientList ++ (ChatErr.ok.code :: entries.flatMap entryBytes)
  | .tooManyClients => opcodeBytes .smsgClientList ++ [ChatErr.tooMuchClients.code]
  | .told error => opcodeBytes .smsgPrivateMsgErr ++ [error.code]
  | .privateMessage sender content => opcodeBytes .smsgPrivateMessage ++ (toBytes order 8 sender.toNat ++ content)
  | .pong => opcodeBytes .smsgPong
  | .uptime seconds => opcodeBytes .smsgUptime ++ uptimeText seconds
  | .counter value => opcodeBytes .smsgCounter ++ toBytes order 8 value.toNat
  | .message content => opcodeBytes .smsgMessage ++ cString content
  | .joined roomID => opcodeBytes .smsgJoinChatRoomOk ++ [roomID]
  | .notJoined error => opcodeBytes .smsgJoinChatRoomErr ++ [error.code]
  | .sayOk => opcodeBytes .smsgSayOk
  | .sayErr error => opcodeBytes .smsgSayErr ++ [error.code]
  | .say payload => opcodeBytes .smsgSay ++ payload
  | .invalid => text "Invalid packet."

structure Member where
  handle : Handle
  clientID : BitVec 64
  username : List Byte
  room : Option Byte
  deriving DecidableEq, Repr

def Member.enter (roomID : Byte) (handle : Handle) (member : Member) : Member :=
  if member.handle = handle then { member with room := some roomID } else member

theorem Member.enter_handle (roomID : Byte) (handle : Handle) (member : Member) :
    (Member.enter roomID handle member).handle = member.handle := by
  unfold Member.enter
  split <;> rfl

theorem handles_enter (members : List Member) (roomID : Byte) (handle : Handle) :
    (members.map (Member.enter roomID handle)).map Member.handle = members.map Member.handle := by
  rw [List.map_map]
  exact List.map_congr_left fun member _ => Member.enter_handle roomID handle member

/-- No two members share a handle, handles below `bound` are spent, and whoever is in a room is in one that exists. -/
structure Service where
  members : List Member
  rooms : ChatRooms
  counter : BitVec 64
  nextID : BitVec 64
  bound : Handle
  distinct : (members.map Member.handle).Nodup
  spent : ∀ member ∈ members, member.handle < bound
  settled : ∀ member ∈ members, ∀ roomID, member.room = some roomID → checkRoomID rooms roomID = true

namespace Service

def opening (rooms : ChatRooms) : Service where
  members := []
  rooms := rooms
  counter := 0
  nextID := 0
  bound := 0
  distinct := .nil
  spent := by simp
  settled := by simp

def handles (service : Service) : List Handle := service.members.map Member.handle

def find? (service : Service) (handle : Handle) : Option Member := service.members.find? fun member => member.handle = handle

def welcome (service : Service) (handle : Handle) (fresh : service.bound ≤ handle) : Service where
  members := service.members ++ [{
    handle := handle, clientID := service.nextID, username := text "<unk>", room := none }]
  rooms := service.rooms
  counter := service.counter
  nextID := service.nextID + 1
  bound := handle + 1
  distinct := by
    rw [List.map_append, List.nodup_append]
    refine ⟨service.distinct, by simp, ?_⟩
    rintro old present new added rfl
    simp only [List.map_cons, List.map_nil, List.mem_singleton] at added
    obtain ⟨member, inside, rfl⟩ := List.mem_map.mp present
    exact absurd (service.spent member inside) (not_lt.mpr (added ▸ fresh))
  spent member present := by
    rcases List.mem_append.mp present with old | new
    · exact (lt_of_lt_of_le (service.spent member old) fresh).trans (Nat.lt_succ_self handle)
    · rw [List.mem_singleton.mp new]
      exact Nat.lt_succ_self handle
  settled member present roomID inside := by
    rcases List.mem_append.mp present with old | new
    · exact service.settled member old roomID inside
    · rw [List.mem_singleton.mp new] at inside
      cases inside

/-- An ID that is given out and lost. -/
def skip (service : Service) : Service := { service with nextID := service.nextID + 1 }

def dismiss (service : Service) (handle : Handle) : Service :=
  { service with
    members := service.members.filter fun member => member.handle ≠ handle
    distinct := service.distinct.sublist (List.filter_sublist.map Member.handle)
    spent := fun member present => service.spent member (List.mem_of_mem_filter present)
    settled := fun member present => service.settled member (List.mem_of_mem_filter present) }

def dismissAll (service : Service) : Service := { service with members := [], distinct := .nil, spent := by simp, settled := by simp }

def count (service : Service) : Service := { service with counter := service.counter + 1 }

/-- Asking for a room that does not exist creates it, without a name and open to everybody. -/
def visit (service : Service) (roomID : Byte) : Service :=
  { service with
    rooms := (index service.rooms roomID).2
    settled := fun member present other inside => by
      rw [checkRoomID_index, service.settled member present other inside]
      rfl }

def enter (service : Service) (handle : Handle) (roomID : Byte) (exists_ : checkRoomID service.rooms roomID = true) :
    Service :=
  { service with
    members := service.members.map (Member.enter roomID handle)
    distinct := by
      rw [handles_enter]
      exact service.distinct
    spent := fun member present => by
      obtain ⟨before, old, rfl⟩ := List.mem_map.mp present
      rw [Member.enter_handle]
      exact service.spent before old
    settled := fun member present other inside => by
      obtain ⟨before, old, rfl⟩ := List.mem_map.mp present
      unfold Member.enter at inside
      split at inside
      · cases inside
        exact exists_
      · exact service.settled before old other inside }

/-- The bytes that a digest is compared with: the stored ones, a NUL, and what lies behind. -/
def comparedHash (ambient : Ambient) (roomID : Byte) (stored : List Byte) : List Byte :=
  (List.range digestLength).map fun position => (stored ++ [0])[position]?.getD (ambient.behindHash roomID position)

def verdict (ambient : Ambient) (service : Service) (roomID : Byte) (hash : List Byte) : ChatErr :=
  match service.rooms.lookup roomID with
  | none => .invalidRoom
  | some room =>
      if room.passwordHash = [] ∨ comparedHash ambient roomID room.passwordHash = hash then .ok
      else .invalidRoomPassword

@[simp]
theorem visit_rooms (service : Service) (roomID : Byte) : (service.visit roomID).rooms = (index service.rooms roomID).2 := rfl

theorem checkRoomID_visit (service : Service) (roomID : Byte) :
    checkRoomID (service.visit roomID).rooms roomID = true := by
  simp only [visit_rooms, checkRoomID_index, decide_true, Bool.or_true]

def join (ambient : Ambient) (service : Service) (handle : Handle) (roomID : Byte) (hash : List Byte) : Service :=
  if service.verdict ambient roomID hash = .ok then
    (service.visit roomID).enter handle roomID (service.checkRoomID_visit roomID)
  else service.visit roomID

section Fields
variable (ambient : Ambient) (service : Service) (handle : Handle) (roomID : Byte)

@[simp]
theorem welcome_members (fresh : service.bound ≤ handle) :
    (service.welcome handle fresh).members = service.members ++ [{
      handle := handle, clientID := service.nextID, username := text "<unk>", room := none }] := rfl

@[simp]
theorem dismiss_members :
    (service.dismiss handle).members = service.members.filter fun member => member.handle ≠ handle := rfl

@[simp]
theorem enter_members (exists_ : checkRoomID service.rooms roomID = true) :
    (service.enter handle roomID exists_).members = service.members.map (Member.enter roomID handle) := rfl

@[simp]
theorem visit_members : (service.visit roomID).members = service.members := rfl

theorem join_members (hash : List Byte) :
    (service.join ambient handle roomID hash).members =
      if service.verdict ambient roomID hash = .ok then service.members.map (Member.enter roomID handle)
      else service.members := by
  unfold join
  split <;> rfl

theorem join_bound (hash : List Byte) : (service.join ambient handle roomID hash).bound = service.bound := by
  unfold join
  split <;> rfl

@[simp]
theorem join_handles (hash : List Byte) : (service.join ambient handle roomID hash).handles = service.handles := by
  unfold handles
  rw [join_members]
  split
  · rw [handles_enter]
  · rfl

end Fields

def total (host : Host) (numbers : List Number) : BitVec 64 :=
  numbers.foldl (fun sum number => host.addDouble sum (host.toDouble number)) 0

def listing (service : Service) (member : Member) : List (BitVec 64 × List Byte) :=
  service.members.map fun listed =>
    (listed.clientID, if listed.clientID = member.clientID then listed.username ++ text " (you)" else listed.username)

def roomInfo (service : Service) (member : Member) : List Byte :=
  match member.room with
  | none => text "No joined room"
  | some roomID => text "Joined: " ++ ((service.rooms.lookup roomID).map ChatRoom.name).getD []

def answers (host : Host) (ambient : Ambient) (service : Service) (member : Member) : Query → List (Handle × Answer)
  | .echo payload => [(member.handle, .echo payload)]
  | .add numbers => [(member.handle, .sum (total host numbers))]
  | .broadcast payload => service.members.map fun other => (other.handle, .broadcast payload)
  | .getClients =>
      [(member.handle, if encodedSize (service.listing member) ≤ 4096 then .clients (service.listing member)
        else .tooManyClients)]
  | .tell clientID message =>
      if clientID = member.clientID then [(member.handle, .told .msgToSelf)]
      else
        match service.members.find? fun other => other.clientID = clientID with
        | none => [(member.handle, .told .noClientFound)]
        | some other => [(member.handle, .told .ok), (other.handle, .privateMessage member.clientID message)]
  | .ping => [(member.handle, .pong)]
  | .uptime => [(member.handle, .uptime ambient.seconds)]
  | .increment => []
  | .getCounter => [(member.handle, .counter service.counter)]
  | .getRooms => [(member.handle, .message (getChatRoomsStr host.traversal service.rooms))]
  | .getRoomInfo => [(member.handle, .message (service.roomInfo member))]
  | .join roomID hash =>
      [(member.handle, if service.verdict ambient roomID hash = .ok then .joined roomID
        else .notJoined (service.verdict ambient roomID hash))]
  | .say payload =>
      match member.room with
      | none => [(member.handle, .sayErr .noRoomJoined)]
      | some roomID => (member.handle, .sayOk) ::
          (service.members.filter fun other => other.room = some roomID).map fun other => (other.handle, .say payload)
  | .malformed => []
  | .unknown => [(member.handle, .message (text "Unknown or unhandled opcode."))]
  | .short => [(member.handle, .invalid)]

def update (ambient : Ambient) (service : Service) (handle : Handle) : Query → Service
  | .increment => service.count
  | .join roomID hash => service.join ambient handle roomID hash
  | _ => service

section Update
variable (ambient : Ambient) (service : Service) (handle : Handle) (query : Query)

@[simp]
theorem update_bound : (service.update ambient handle query).bound = service.bound := by
  cases query with
  | join roomID hash => exact join_bound ambient service handle roomID hash
  | _ => rfl

@[simp]
theorem update_handles : (service.update ambient handle query).handles = service.handles := by
  cases query with
  | join roomID hash => exact join_handles ambient service handle roomID hash
  | _ => rfl

end Update

end Service

inductive Event where
  | arrived (handle : Handle) (greeted : Bool)
  | refused
  | left (handle : Handle)
  | asked (handle : Handle) (query : Query) (ambient : Ambient)
  | ended

/-- Only members leave and ask, and nobody arrives under a handle that is spent. -/
def react (host : Host) (service : Service) : Event → Option (Service × List (Handle × Answer))
  | .arrived handle greeted =>
      if fresh : service.bound ≤ handle then
        some (service.welcome handle fresh, if greeted then [(handle, .motd)] else [])
      else none
  | .refused => some (service.skip, [])
  | .left handle => if handle ∈ service.handles then some (service.dismiss handle, []) else none
  | .asked handle query ambient =>
      (service.find? handle).map fun member =>
        (service.update ambient handle query, service.answers host ambient member query)
  | .ended => some (service.dismissAll, [])

end Communo.ChatService
