import Communo.Lib.CheckedMemory

/-! The packet vocabulary shared by client and server: opcodes, error codes and
the few byte-string conventions every packet is built with. -/

namespace Communo.Protocol
open Lib.ByteCodec

inductive Opcode where
  | opcodeStart
  | cmsgEchoRequest
  | cmsgAdditionRequest
  | cmsgBroadcastMessage
  | cmsgGetClientList
  | cmsgSendMsgToClient
  | cmsgUptime
  | cmsgPing
  | cmsgIncrementCounter
  | cmsgGetCounter
  | cmsgGetChatRooms
  | cmsgGetRoomInfo
  | cmsgJoinRoom
  | cmsgSay
  | smsgMotd
  | smsgMessage
  | smsgEchoRequest
  | smsgAdditionRequest
  | smsgBroadcast
  | smsgClientList
  | smsgPrivateMsgErr
  | smsgPrivateMessage
  | smsgUptime
  | smsgPong
  | smsgCounter
  | smsgJoinChatRoomOk
  | smsgJoinChatRoomErr
  | smsgSayOk
  | smsgSayErr
  | smsgSay
  | opcodeMax
  deriving DecidableEq, Repr

def Opcode.code : Opcode → Nat
  | .opcodeStart => 0x0000
  | .cmsgEchoRequest => 0x0001
  | .cmsgAdditionRequest => 0x0002
  | .cmsgBroadcastMessage => 0x0003
  | .cmsgGetClientList => 0x0004
  | .cmsgSendMsgToClient => 0x0005
  | .cmsgUptime => 0x0006
  | .cmsgPing => 0x0007
  | .cmsgIncrementCounter => 0x0008
  | .cmsgGetCounter => 0x0009
  | .cmsgGetChatRooms => 0x000A
  | .cmsgGetRoomInfo => 0x000B
  | .cmsgJoinRoom => 0x000C
  | .cmsgSay => 0x000D
  | .smsgMotd => 0x0FFF
  | .smsgMessage => 0x1000
  | .smsgEchoRequest => 0x1001
  | .smsgAdditionRequest => 0x1002
  | .smsgBroadcast => 0x1003
  | .smsgClientList => 0x1004
  | .smsgPrivateMsgErr => 0x1005
  | .smsgPrivateMessage => 0x1006
  | .smsgUptime => 0x1007
  | .smsgPong => 0x1008
  | .smsgCounter => 0x1009
  | .smsgJoinChatRoomOk => 0x100A
  | .smsgJoinChatRoomErr => 0x100B
  | .smsgSayOk => 0x100C
  | .smsgSayErr => 0x100D
  | .smsgSay => 0x100E
  | .opcodeMax => 0x8000

/-- The label a `switch` over a received 16-bit value jumps to. -/
def Opcode.ofCode : Nat → Option Opcode
  | 0x0000 => some .opcodeStart
  | 0x0001 => some .cmsgEchoRequest
  | 0x0002 => some .cmsgAdditionRequest
  | 0x0003 => some .cmsgBroadcastMessage
  | 0x0004 => some .cmsgGetClientList
  | 0x0005 => some .cmsgSendMsgToClient
  | 0x0006 => some .cmsgUptime
  | 0x0007 => some .cmsgPing
  | 0x0008 => some .cmsgIncrementCounter
  | 0x0009 => some .cmsgGetCounter
  | 0x000A => some .cmsgGetChatRooms
  | 0x000B => some .cmsgGetRoomInfo
  | 0x000C => some .cmsgJoinRoom
  | 0x000D => some .cmsgSay
  | 0x0FFF => some .smsgMotd
  | 0x1000 => some .smsgMessage
  | 0x1001 => some .smsgEchoRequest
  | 0x1002 => some .smsgAdditionRequest
  | 0x1003 => some .smsgBroadcast
  | 0x1004 => some .smsgClientList
  | 0x1005 => some .smsgPrivateMsgErr
  | 0x1006 => some .smsgPrivateMessage
  | 0x1007 => some .smsgUptime
  | 0x1008 => some .smsgPong
  | 0x1009 => some .smsgCounter
  | 0x100A => some .smsgJoinChatRoomOk
  | 0x100B => some .smsgJoinChatRoomErr
  | 0x100C => some .smsgSayOk
  | 0x100D => some .smsgSayErr
  | 0x100E => some .smsgSay
  | 0x8000 => some .opcodeMax
  | _ => none

@[simp]
theorem Opcode.ofCode_code (opcode : Opcode) : Opcode.ofCode opcode.code = some opcode := by
  cases opcode <;> rfl

theorem Opcode.code_lt (opcode : Opcode) : opcode.code < 256 ^ 2 := by
  cases opcode <;> decide

inductive ChatErr where
  | ok
  | invalidRoom
  | invalidRoomPassword
  | invalidPacket
  | noRoomJoined
  | noClientFound
  | msgToSelf
  | tooMuchClients
  | emptyMessage
  deriving DecidableEq, Repr

def ChatErr.code : ChatErr → Byte
  | .ok => 0
  | .invalidRoom => 1
  | .invalidRoomPassword => 2
  | .invalidPacket => 3
  | .noRoomJoined => 4
  | .noClientFound => 5
  | .msgToSelf => 6
  | .tooMuchClients => 7
  | .emptyMessage => 8

/-- `htons` followed by appending the object's bytes: network order on every host. -/
def opcodeBytes (opcode : Opcode) : List Byte := toBytes .big 2 opcode.code

@[simp]
theorem opcodeBytes_length (opcode : Opcode) : (opcodeBytes opcode).length = 2 := by
  simp [opcodeBytes]

def opcodeOf (packet : List Byte) : Option Opcode := Opcode.ofCode (ofBytes .big (packet.take 2))

@[simp]
theorem opcodeOf_append (opcode : Opcode) (payload : List Byte) :
    opcodeOf (opcodeBytes opcode ++ payload) = some opcode := by
  rw [opcodeOf, List.take_append_of_le_length (by simp), List.take_of_length_le (by simp), opcodeBytes,
    ofBytes_toBytes .big 2 opcode.code opcode.code_lt, Opcode.ofCode_code]

@[simp]
theorem opcodeOf_opcodeBytes (opcode : Opcode) : opcodeOf (opcodeBytes opcode) = some opcode := by
  simpa only [List.append_nil] using opcodeOf_append opcode []

def text (literal : String) : List Byte := literal.toList.map (fun character => BitVec.ofNat 8 character.toNat)

def decimal (value : Nat) : List Byte := text (toString value)

/-- What survives a trip through `const char *`: everything before the first NUL. -/
def cString (bytes : List Byte) : List Byte := bytes.takeWhile (· ≠ 0)

theorem cString_eq_self {bytes : List Byte} (clean : 0 ∉ bytes) : cString bytes = bytes := by
  rw [cString, List.takeWhile_eq_self_iff]
  intro byte member
  have different : byte ≠ 0 := by
    rintro rfl
    exact clean member
  simpa using different

theorem zero_notMem_cString (bytes : List Byte) : 0 ∉ cString bytes := fun member => by
  simpa using List.mem_takeWhile_imp member

theorem getElem?_cString {bytes : List Byte} {address : Nat} (inside : address < bytes.length)
    (before : address ≤ (cString bytes).length) : (cString bytes ++ [0])[address]? = bytes[address]? := by
  unfold cString at *
  induction bytes generalizing address with
  | nil => simp at inside
  | cons byte rest ih =>
    by_cases zero : byte = 0
    · simp only [List.takeWhile_cons, zero, ne_eq, not_true_eq_false, decide_false, Bool.false_eq_true, if_false,
        List.length_nil, Nat.le_zero] at before ⊢
      simp [before]
    · simp only [List.takeWhile_cons, zero, ne_eq, not_false_eq_true, decide_true, if_true, List.length_cons] at before ⊢
      cases address with
      | zero => simp
      | succ address =>
        simp only [List.length_cons, Nat.add_lt_add_iff_right, Nat.add_le_add_iff_right] at inside before
        simpa using ih inside before

theorem le_length_cString_iff (bytes : List Byte) (count : Nat) :
    count ≤ (cString bytes).length ↔ count ≤ bytes.length ∧ 0 ∉ bytes.take count := by
  unfold cString
  induction bytes generalizing count with
  | nil => simp
  | cons byte rest ih =>
    cases count with
    | zero => simp
    | succ count =>
      by_cases zero : byte = 0
      · simp [zero]
      · have different : ¬(0 = byte) := fun same => zero same.symm
        simp only [List.takeWhile_cons, zero, ne_eq, not_false_eq_true, decide_true, if_true, List.length_cons,
          Nat.add_le_add_iff_right, List.take_succ_cons, List.mem_cons, different, false_or]
        exact ih count

def digestLength : Nat := 32

def bufferSize : Nat := 4096

end Communo.Protocol
