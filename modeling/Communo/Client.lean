import Communo.Session

/-! The client's side of the protocol: the packets its send functions build and
its dispatch of the replies. It connects to 127.0.0.1, so it shares the server's byte order. -/

namespace Communo.Client
open Lib.ByteCodec Lib.CheckedMemory Protocol NumParser Session

/-- `SHA256` of the linked library, of which only the output size is used. -/
abbrev Sha256 := List Byte → List.Vector Byte digestLength

/-- The bytes that leave the client: the size is cast to `int`, and `SSL_write` refuses one that is not positive. -/
def sendSSLPacketToServer (packet : List Byte) : Option (List Byte) :=
  let size := (BitVec.ofNat 32 packet.length).toInt
  if size ≤ 0 then none else some (packet.take size.toNat)

theorem sendSSLPacketToServer_eq_some {packet : List Byte} (nonempty : packet ≠ []) (small : packet.length < 2 ^ 31) :
    sendSSLPacketToServer packet = some packet := by
  have positive := List.length_pos_iff.mpr nonempty
  have size : (BitVec.ofNat 32 packet.length).toInt = packet.length := by
    have value : (BitVec.ofNat 32 packet.length).toNat = packet.length := by
      rw [BitVec.toNat_ofNat]
      exact Nat.mod_eq_of_lt (by omega)
    rw [BitVec.toInt_eq_toNat_of_lt (by omega), value]
  simp only [sendSSLPacketToServer, size]
  rw [if_neg (by omega), Int.toNat_natCast, List.take_length]

theorem length_lt_of_sent {packet sent : List Byte} (left : sendSSLPacketToServer packet = some sent) :
    sent.length < 2 ^ 31 := by
  simp only [sendSSLPacketToServer] at left
  split at left
  · simp at left
  · obtain rfl := Option.some.inj left
    have bound := @BitVec.toInt_lt 32 (BitVec.ofNat 32 packet.length)
    rw [List.length_take]
    omega

def sendSSLOpcodeToServer (opcode : Opcode) : List Byte := opcodeBytes opcode

def sendEchoRequest (msg : List Byte) : List Byte := opcodeBytes .cmsgEchoRequest ++ msg

def numberItem (order : ByteOrder) (number : Number) : List Byte :=
  (getNumberType number).code :: number.bytes order

/-- The packet handed to the socket, or nothing when the client refuses to send it. -/
def sendAdditionRequest (order : ByteOrder) (numbers : List Number) : Option (List Byte) :=
  if numbers.length < 2 then none
  else
    let packet := numbers.foldl
      (fun packet number => appendNumber order (packet ++ [(getNumberType number).code]) number)
      (opcodeBytes .cmsgAdditionRequest)
    if packet.length > 4096 then none else some packet

def sendBroadcast (msg : List Byte) : List Byte := opcodeBytes .cmsgBroadcastMessage ++ msg

def sendClientMessage (order : ByteOrder) (clientID : BitVec 64) (msg : List Byte) : List Byte :=
  opcodeBytes .cmsgSendMsgToClient ++ (toBytes order 8 clientID.toNat ++ msg)

def sendJoinRoomRequest (sha256 : Sha256) (roomID : Byte) (password : List Byte) : List Byte :=
  opcodeBytes .cmsgJoinRoom ++ (roomID :: (sha256 password).toList)

def sendChatSay (msg : List Byte) : List Byte := opcodeBytes .cmsgSay ++ msg

inductive Request where
  | echo (msg : List Byte)
  | addition (numbers : List Number)
  | broadcast (msg : List Byte)
  | ping
  | uptime
  | incrementCounter
  | getCounter
  | getClients
  | clientMessage (clientID : BitVec 64) (msg : List Byte)
  | getChatRooms
  | getRoomInfo
  | joinRoom (roomID : Byte) (password : List Byte)
  | chatSay (msg : List Byte)
  deriving DecidableEq, Repr

def Request.packet (order : ByteOrder) (sha256 : Sha256) : Request → Option (List Byte)
  | .echo msg => some (sendEchoRequest msg)
  | .addition numbers => sendAdditionRequest order numbers
  | .broadcast msg => some (sendBroadcast msg)
  | .ping => some (sendSSLOpcodeToServer .cmsgPing)
  | .uptime => some (sendSSLOpcodeToServer .cmsgUptime)
  | .incrementCounter => some (sendSSLOpcodeToServer .cmsgIncrementCounter)
  | .getCounter => some (sendSSLOpcodeToServer .cmsgGetCounter)
  | .getClients => some (sendSSLOpcodeToServer .cmsgGetClientList)
  | .clientMessage clientID msg => some (sendClientMessage order clientID msg)
  | .getChatRooms => some (sendSSLOpcodeToServer .cmsgGetChatRooms)
  | .getRoomInfo => some (sendSSLOpcodeToServer .cmsgGetRoomInfo)
  | .joinRoom roomID password => some (sendJoinRoomRequest sha256 roomID password)
  | .chatSay msg => some (sendChatSay msg)

def stringMemory (bytes : List Byte) : Mem := holding (bytes ++ [0])

structure ListState where
  offset : Nat
  entries : List (BitVec 64 × List Byte)
  deriving DecidableEq, Repr

/-- The loop of the `SMSG_CLIENT_LIST` branch over the memory of a payload of `size` bytes; both `break`s end it early. -/
def clientListLoop (mem : Mem) (size : Nat) : (rounds : Nat) → ListState → Checked Exn ListState
  | 0, state => .ok state
  | rounds + 1, state =>
      if state.offset < size then
        if state.offset + 8 + 2 > size then .ok state
        else
          (readBytes mem state.offset 8).bind fun rawID =>
            (readBytes mem (state.offset + 8) 2).bind fun rawSize =>
              let usernameSize := ofBytes .big rawSize
              let offset := state.offset + 8 + 2
              if offset + usernameSize > size then .ok { state with offset := offset }
              else
                (readBytes mem offset usernameSize).bind fun clientName =>
                  clientListLoop mem size rounds
                    { offset := offset + usernameSize,
                      entries := state.entries ++ [(BitVec.ofNat 64 (ofBytes .big rawID), clientName)] }
      else .ok state

def readClientList (mem : Mem) (size : Nat) : Checked Exn (Byte × List (BitVec 64 × List Byte)) :=
  (readByte mem 0).bind fun error =>
    if error = ChatErr.ok.code then
      (clientListLoop mem size size { offset := 1, entries := [] }).bind fun state => .ok (error, state.entries)
    else .ok (error, [])

def processClientList (payload : List Byte) : Checked Exn (Byte × List (BitVec 64 × List Byte)) :=
  readClientList (stringMemory payload) payload.length

def errorText (known : List (ChatErr × String)) (otherwise : Byte → List Byte) (error : Byte) : List Byte :=
  match known.find? fun entry => entry.1.code = error with
  | some entry => text entry.2
  | none => otherwise error

def numberedError (error : Byte) : List Byte := text "[error: " ++ decimal error.toNat ++ text "]\n"

def clientListText : Byte → List Byte :=
  errorText [(.ok, "[valid client list]\n"), (.noClientFound, "[no client found]\n"),
    (.tooMuchClients, "[too much clients]\n")] numberedError

def privateMsgErrText : Byte → List Byte :=
  errorText [(.ok, "[OK]\n"), (.noClientFound, "[no client found]\n"), (.msgToSelf, "[message to self]\n"),
    (.emptyMessage, "[empty message]\n")] numberedError

def joinChatRoomErrText : Byte → List Byte :=
  errorText [(.invalidRoom, "Invalid room ID."), (.invalidRoomPassword, "Invalid room password."),
    (.invalidPacket, "Invalid join request.")] fun _ => text "Something went wrong."

def sayErrText : Byte → List Byte :=
  errorText [(.invalidRoom, "Invalid room ID."), (.noRoomJoined, "No room joined.")] fun _ =>
    text "Something went wrong."

/-- What a reply puts on the terminal, without the names of the opcodes and the time of a ping. -/
inductive Shown where
  | echo (payload : List Byte)
  | message (payload : List Byte)
  | motd (payload : List Byte)
  | result (value : BitVec 64)
  | broadcast (payload : List Byte)
  | clientList (status : List Byte) (entries : List (BitVec 64 × List Byte))
  | privateMsgErr (status : List Byte)
  | privateMessage (clientID : BitVec 64) (message : List Byte)
  | ping
  | uptime (payload : List Byte)
  | counter (value : BitVec 64)
  | roomJoined (roomID : Byte)
  | roomNotJoined (error : Byte) (status : List Byte)
  | sayOk
  | sayErr (error : Byte) (status : List Byte)
  | say (payload : List Byte)
  | unknownOpcode (code : Nat)
  | invalidPacket
  deriving DecidableEq, Repr

/-- `std::string(data, count)`; no string is as long as a negative size read as an unsigned one. -/
def constructString (mem : Mem) (offset : Nat) (count : BitVec 64) : Checked Exn (List Byte) :=
  if 2 ^ 63 ≤ count.toNat then .error (.thrown .lengthError) else readBytes mem offset count.toNat

def readWord (order : ByteOrder) (mem : Mem) : Checked Exn (BitVec 64) :=
  (readBytes mem 0 8).bind fun raw => .ok (BitVec.ofNat 64 (ofBytes order raw))

/-- The `switch` of `processReplyFromServerIfAny`; `mem` is the memory at `payload.data()`. -/
def switchReply (order : ByteOrder) (mem : Mem) (payload : List Byte) (code : Nat) : Checked Exn Shown :=
  match Opcode.ofCode code with
  | some .smsgEchoRequest => .ok (.echo payload)
  | some .smsgMessage => .ok (.message payload)
  | some .smsgMotd => .ok (.motd payload)
  | some .smsgAdditionRequest =>
      if payload.length < 8 then .error (.thrown (.runtimeError "Payload too small for double"))
      else (readWord order mem).bind fun value => .ok (.result value)
  | some .smsgBroadcast => .ok (.broadcast payload)
  | some .smsgClientList =>
      (readClientList mem payload.length).bind fun list => .ok (.clientList (clientListText list.1) list.2)
  | some .smsgPrivateMsgErr => (readByte mem 0).bind fun error => .ok (.privateMsgErr (privateMsgErrText error))
  | some .smsgPrivateMessage =>
      (readWord order mem).bind fun clientID =>
        (constructString mem 8 (BitVec.ofNat 64 payload.length - 8)).bind fun message =>
          .ok (.privateMessage clientID message)
  | some .smsgPong => .ok .ping
  | some .smsgUptime => .ok (.uptime payload)
  | some .smsgCounter => (readWord order mem).bind fun value => .ok (.counter value)
  | some .smsgJoinChatRoomOk => (readByte mem 0).bind fun value => .ok (.roomJoined value)
  | some .smsgJoinChatRoomErr =>
      (readByte mem 0).bind fun value => .ok (.roomNotJoined value (joinChatRoomErrText value))
  | some .smsgSayOk => .ok .sayOk
  | some .smsgSayErr => (readByte mem 0).bind fun value => .ok (.sayErr value (sayErrText value))
  | some .smsgSay => .ok (.say payload)
  | _ => .ok (.unknownOpcode code)

/-- What the client makes of the bytes of one successful `SSL_read`. -/
def processReplyFromServerIfAny (order : ByteOrder) (memory : List Byte → Mem) (received : List Byte) :
    Checked Exn Shown :=
  if 2 ≤ received.length then
    switchReply order (memory (received.drop 2)) (received.drop 2) (ofBytes .big (received.take 2))
  else .ok .invalidPacket

end Communo.Client
