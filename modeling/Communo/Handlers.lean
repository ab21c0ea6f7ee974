import Communo.Session

/-! The server's packet handlers. `View` is all that a handler may look at apart
from the server's own state: the receive buffer as memory, the memory behind a
stored password hash, the clock and the results of its writes. -/

namespace Communo.Handlers
open Lib.ByteCodec Lib.CheckedMemory Protocol NumParser Chat Session

inductive ServerState where
  | notStarted
  | started
  | closing
  | closed
  deriving DecidableEq, Repr

/-- What the code takes from the machine it was built for. Doubles are bit
patterns; `toDouble` is the cast of a number and `addDouble` the addition. -/
structure Host where
  order : ByteOrder
  toDouble : Number → BitVec 64
  addDouble : BitVec 64 → BitVec 64 → BitVec 64
  traversal : Traversal

structure Server where
  clientSockets : List ClientSocket
  uniqueClientCounter : BitVec 64
  chatRooms : ChatRooms
  counter : BitVec 64
  buffer : Nat → Byte
  readfds : Int → Bool
  serverState : ServerState
  masterSocket : Int
  sendHelloMsg : Bool

structure View where
  buffer : Mem
  behindHash : Byte → Mem
  -- a signed 64-bit count of a clock that never runs backwards
  seconds : Fin (2 ^ 63)
  written : Option Handle → List Byte → Int

def sendSSLPacketToClientSocket (view : View) (client : ClientSocket) (packet : List Byte) : List Call :=
  .sslWrite client.ssl packet ::
    (if view.written client.ssl packet ≤ 0 then [.sslGetError client.ssl] else [])

/-- The message travels as a C string, so it ends at its first NUL. -/
def sendMsgToSocket (view : View) (client : ClientSocket) (msg : List Byte) : List Call :=
  sendSSLPacketToClientSocket view client (opcodeBytes .smsgMessage ++ cString msg)

def callHandlerEcho (view : View) (client : ClientSocket) (reply : List Byte) : List Call :=
  sendSSLPacketToClientSocket view client (opcodeBytes .smsgEchoRequest ++ reply)

structure AddState where
  offset : Nat
  numbers : List Number
  sum : BitVec 64
  deriving DecidableEq, Repr

def AddState.start (offset : Nat) : AddState := { offset := offset, numbers := [], sum := 0 }

/-- The decoding loop of `CallHandlerAdd`. Each round consumes at least one
byte, so `payloadSize - offset` rounds are always enough. -/
def addLoop (host : Host) (mem : Mem) (payloadSize : Nat) : (rounds : Nat) → AddState → Checked Exn AddState
  | 0, state => .ok state
  | rounds + 1, state =>
      if state.offset < payloadSize then
        (readByte mem state.offset).bind fun tag =>
          (readNumber host.order mem (state.offset + 1) (NumberType.ofByte tag)).bind fun read =>
            addLoop host mem payloadSize rounds
              { offset := read.2,
                numbers := state.numbers ++ [read.1],
                sum := host.addDouble state.sum (host.toDouble read.1) }
      else .ok state

def callHandlerAdd (host : Host) (view : View) (client : ClientSocket) (offset payloadSize : Nat) :
    Checked Exn (List Call) :=
  (addLoop host view.buffer payloadSize (payloadSize - offset) (.start offset)).bind fun state =>
    .ok (sendSSLPacketToClientSocket view client
      (opcodeBytes .smsgAdditionRequest ++ toBytes host.order 8 state.sum.toNat))

def callHandlerBroadcast (view : View) (server : Server) (stream : List Byte) : List Call :=
  server.clientSockets.flatMap fun client =>
    if !client.sslEnabled then []
    else sendSSLPacketToClientSocket view client (opcodeBytes .smsgBroadcast ++ stream)

/-- The name listed for a session; the one who asks is marked. -/
def listedUsername (client listed : ClientSocket) : List Byte :=
  if listed.clientID = client.clientID then listed.clientUsername ++ text " (you)" else listed.clientUsername

/-- One entry of the client list: big-endian ID, 16-bit length, name. -/
def clientEntry (client listed : ClientSocket) : List Byte :=
  toBytes .big 8 listed.clientID.toNat ++
    (toBytes .big 2 (BitVec.ofNat 16 (listedUsername client listed).length).toNat ++ listedUsername client listed)

def clientListPacket (server : Server) (client : ClientSocket) : List Byte :=
  let clientList := server.clientSockets.flatMap (clientEntry client)
  let error := if 0 < server.clientSockets.length then ChatErr.ok else ChatErr.noClientFound
  if 2 + 1 + clientList.length ≤ 4096 then opcodeBytes .smsgClientList ++ (error.code :: clientList)
  else opcodeBytes .smsgClientList ++ [ChatErr.tooMuchClients.code]

def callHandlerGetClientList (view : View) (server : Server) (client : ClientSocket) : List Call :=
  sendSSLPacketToClientSocket view client (clientListPacket server client)

/-- The session a private message is for, when it is neither the sender's own nor unknown. -/
def findRecipient (server : Server) (client : ClientSocket) (clientID : BitVec 64) : Option ClientSocket :=
  if clientID = client.clientID then none
  else server.clientSockets.find? (fun candidate => candidate.clientID = clientID)

def recipientError (server : Server) (client : ClientSocket) (clientID : BitVec 64) : ChatErr :=
  if clientID = client.clientID then .msgToSelf
  else if (findRecipient server client clientID).isNone then .noClientFound
  else .ok

def relayPrivateMessage (host : Host) (view : View) (client : ClientSocket) (foundClient : Option ClientSocket)
    (error : ChatErr) (message : List Byte) : List Call :=
  sendSSLPacketToClientSocket view client (opcodeBytes .smsgPrivateMsgErr ++ [error.code]) ++
    match foundClient, error with
    | some found, .ok => sendSSLPacketToClientSocket view found
        (opcodeBytes .smsgPrivateMessage ++ (toBytes host.order 8 client.clientID.toNat ++ message))
    | _, _ => []

/-- The message is copied with the length of the whole packet, as the source does. -/
def callHandlerMsgToClient (host : Host) (view : View) (server : Server) (client : ClientSocket)
    (offset payloadSize : Nat) : Checked Exn (List Call) :=
  (readBytes view.buffer offset 8).bind fun raw =>
    let clientID := BitVec.ofNat 64 (ofBytes host.order raw)
    let foundClient := findRecipient server client clientID
    let error := recipientError server client clientID
    (if error = .ok then readBytes view.buffer (offset + 8) payloadSize else .ok []).bind fun message =>
      .ok (relayPrivateMessage host view client foundClient
        (if error = .ok ∧ message = [] then .emptyMessage else error) message)

def callHandlerPong (view : View) (client : ClientSocket) : List Call :=
  sendSSLPacketToClientSocket view client (opcodeBytes .smsgPong)

def uptimeText (seconds : Nat) : List Byte :=
  text "Uptime: " ++ decimal (seconds / 3600) ++ text "h " ++ decimal (seconds % 3600 / 60) ++ text "m " ++
    decimal (seconds % 3600 % 60) ++ text "s"

def callHandlerUptime (view : View) (client : ClientSocket) : List Call :=
  sendSSLPacketToClientSocket view client (opcodeBytes .smsgUptime ++ uptimeText view.seconds)

def callHandlerGetCounter (host : Host) (view : View) (server : Server) (client : ClientSocket) : List Call :=
  sendSSLPacketToClientSocket view client (opcodeBytes .smsgCounter ++ toBytes host.order 8 server.counter.toNat)

def callHandlerGetChatRooms (host : Host) (view : View) (server : Server) (client : ClientSocket) : List Call :=
  sendMsgToSocket view client (getChatRoomsStr host.traversal server.chatRooms)

def callHandlerGetRoominfo (view : View) (server : Server) (client : ClientSocket) : Checked Exn (List Call) :=
  if client.chatRoomJoined = false then .ok (sendMsgToSocket view client (text "No joined room"))
  else if !checkRoomID server.chatRooms client.joinedChatRoomID then
    .ok (sendMsgToSocket view client (text "Invalid room"))
  else
    (getRoomName server.chatRooms client.joinedChatRoomID).bind fun name =>
      .ok (sendMsgToSocket view client (text "Joined: " ++ name))

/-- The verdict of the join handler on a room and a hash, with the room table it leaves behind. -/
def joinVerdict (behindHash : Byte → Mem) (chatRooms : ChatRooms) (roomID : Byte) (hash : List Byte) :
    Checked Exn (ChatErr × ChatRooms) :=
  let error := if !checkRoomID chatRooms roomID then ChatErr.invalidRoom else ChatErr.ok
  let protection := isRoomProtected chatRooms roomID
  if protection.1 then
    (checkPasswordHash behindHash protection.2 roomID hash).bind fun checked =>
      .ok (if !checked.1 then .invalidRoomPassword else error, checked.2)
  else .ok (error, protection.2)

def callHandlerJoinRoom (view : View) (server : Server) (client : Fin server.clientSockets.length)
    (offset : Nat) : Checked Exn (Server × List Call) :=
  (readByte view.buffer offset).bind fun roomID =>
    (readBytes view.buffer (offset + 1) digestLength).bind fun hash =>
      (joinVerdict view.behindHash server.chatRooms roomID hash).bind fun verdict =>
        let socket := server.clientSockets.get client
        let server := { server with chatRooms := verdict.2 }
        if verdict.1 = .ok then
          let joined := { socket with joinedChatRoomID := roomID, chatRoomJoined := true }
          .ok ({ server with clientSockets := server.clientSockets.set client joined },
            sendSSLPacketToClientSocket view joined (opcodeBytes .smsgJoinChatRoomOk ++ [roomID]))
        else
          .ok (server, sendSSLPacketToClientSocket view socket
            (opcodeBytes .smsgJoinChatRoomErr ++ [verdict.1.code]))

def callHandlerSay (view : View) (server : Server) (client : ClientSocket) (message : List Byte) : List Call :=
  if checkRoomID server.chatRooms client.joinedChatRoomID && client.chatRoomJoined then
    sendSSLPacketToClientSocket view client (opcodeBytes .smsgSayOk) ++
      server.clientSockets.flatMap fun other =>
        if !other.sslEnabled then []
        else if other.joinedChatRoomID ≠ client.joinedChatRoomID ∨ other.chatRoomJoined = false then []
        else sendSSLPacketToClientSocket view other (opcodeBytes .smsgSay ++ message)
  else
    let error := if client.chatRoomJoined = false then ChatErr.noRoomJoined else ChatErr.invalidRoom
    sendSSLPacketToClientSocket view client (opcodeBytes .smsgSayErr ++ [error.code])

/-- The `switch` of `CallHandler`; `none` is an opcode with no label of its own. -/
def switchOpcode (host : Host) (view : View) (server : Server) (client : Fin server.clientSockets.length)
    (payloadSize : Nat) (opcode : Option Opcode) : Checked Exn (Server × List Call) :=
  let socket := server.clientSockets.get client
  match opcode with
  | some .cmsgEchoRequest =>
      (readBytes view.buffer 2 (payloadSize - 2)).bind fun payload =>
        .ok (server, callHandlerEcho view socket payload)
  | some .cmsgAdditionRequest =>
      if 2 + 1 * 2 + 1 * 2 ≤ payloadSize then
        (callHandlerAdd host view socket 2 payloadSize).bind fun calls => .ok (server, calls)
      else .ok (server, [])
  | some .cmsgBroadcastMessage =>
      (readBytes view.buffer 2 (payloadSize - 2)).bind fun payload =>
        .ok (server, callHandlerBroadcast view server payload)
  | some .cmsgGetClientList => .ok (server, callHandlerGetClientList view server socket)
  | some .cmsgSendMsgToClient =>
      if 2 + 8 ≤ payloadSize then
        (callHandlerMsgToClient host view server socket 2 payloadSize).bind fun calls => .ok (server, calls)
      else .ok (server, [])
  | some .cmsgPing => .ok (server, callHandlerPong view socket)
  | some .cmsgUptime => .ok (server, callHandlerUptime view socket)
  | some .cmsgIncrementCounter => .ok ({ server with counter := server.counter + 1 }, [])
  | some .cmsgGetCounter => .ok (server, callHandlerGetCounter host view server socket)
  | some .cmsgGetChatRooms => .ok (server, callHandlerGetChatRooms host view server socket)
  | some .cmsgGetRoomInfo => (callHandlerGetRoominfo view server socket).bind fun calls => .ok (server, calls)
  | some .cmsgJoinRoom =>
      if 2 + 1 + digestLength = payloadSize then callHandlerJoinRoom view server client 2
      else .ok (server, [])
  | some .cmsgSay =>
      (readBytes view.buffer 2 (payloadSize - 2)).bind fun payload =>
        .ok (server, callHandlerSay view server socket payload)
  | _ => .ok (server, sendMsgToSocket view socket (text "Unknown or unhandled opcode."))

def callHandler (host : Host) (view : View) (server : Server) (client : Fin server.clientSockets.length)
    (payloadSize : Nat) : Checked Exn (Server × List Call) :=
  (readBytes view.buffer 0 2).bind fun raw =>
    switchOpcode host view server client payloadSize (Opcode.ofCode (ofBytes .big raw))

def integerDouble (value : Int) : BitVec 64 :=
  let exponent := value.natAbs.log2
  if value = 0 then 0
  else BitVec.ofNat 64 ((if value < 0 then 2 ^ 63 else 0) + (1023 + exponent) * 2 ^ 52 +
    (value.natAbs - 2 ^ exponent) * 2 ^ (52 - exponent))

def doubleInteger (bits : BitVec 64) : Int :=
  let exponent := bits.toNat / 2 ^ 52 % 2 ^ 11
  let magnitude : Nat := if exponent < 1023 then 0 else (2 ^ 52 + bits.toNat % 2 ^ 52) / 2 ^ (1075 - exponent)
  if bits.toNat < 2 ^ 63 then magnitude else -magnitude

/-- A little-endian host whose double arithmetic is right on small integers, for concrete runs. -/
def exampleHost : Host where
  order := .little
  toDouble
    | .int8 bits => integerDouble bits.toInt
    | .uint8 bits => integerDouble bits.toNat
    | .int16 bits => integerDouble bits.toInt
    | .uint16 bits => integerDouble bits.toNat
    | .int32 bits => integerDouble bits.toInt
    | .uint32 bits => integerDouble bits.toNat
    | .int64 bits => integerDouble bits.toInt
    | .uint64 bits => integerDouble bits.toNat
    | .float bits => integerDouble
        ((if bits.toNat < 2 ^ 31 then 1 else -1) *
          ((2 ^ 23 + bits.toNat % 2 ^ 23) / 2 ^ (150 - bits.toNat / 2 ^ 23 % 2 ^ 8) : Nat))
    | .double bits => bits
  addDouble first second := integerDouble (doubleInteger first + doubleInteger second)
  traversal := { order := id, complete := fun _ => .refl _ }

def exampleServer : Server where
  clientSockets := [{ socket := 4, ssl := some 0, sslEnabled := true, clientID := 0 },
    { socket := 5, ssl := some 1, sslEnabled := true, clientID := 1 }]
  uniqueClientCounter := 2
  chatRooms := ∅
  counter := 0
  buffer _ := 0
  readfds _ := true
  serverState := .started
  masterSocket := 3
  sendHelloMsg := false

def exampleView (buffer : Mem) : View where
  buffer := buffer
  behindHash _ _ := some 0
  seconds := ⟨0, by decide⟩
  written _ packet := packet.length

end Communo.Handlers
