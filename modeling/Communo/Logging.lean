import Communo.Lib.Formats
import Communo.Literals
import Communo.MainLoop

/-! The log. `Logger::log` hands its message to the outputs that are selected,
to `syslog` as the format; what the server logs while it handles a packet is
listed here line by line, in the order of the source. -/

namespace Communo.Logging
open Lib.ByteCodec Lib.CheckedMemory Lib.Formats Protocol NumParser Literals Chat Session Handlers MainLoop

inductive LogFlag where
  | debug
  | info
  | warn
  | error
  deriving DecidableEq, Repr

def LogFlag.bits : LogFlag → BitVec 16
  | .debug => 0x001
  | .info => 0x002
  | .warn => 0x004
  | .error => 0x008

/-- `eLoggingLevelFlags`: a level is itself and everything more urgent. -/
def logLevelDebug : BitVec 16 := 0x00F
def logLevelInfo : BitVec 16 := 0x00E
def logLevelWarn : BitVec 16 := 0x00C
def logLevelError : BitVec 16 := 0x008

def logFile : BitVec 16 := 0x001
def logSystem : BitVec 16 := 0x002
def logConsole : BitVec 16 := 0x004

structure Logger where
  logLevelFilter : BitVec 16
  logOutputFilter : BitVec 16
  logOutputFile : List Byte

inductive Priority where
  | err
  | warning
  | info
  | debug
  deriving DecidableEq, Repr

/-- The `switch` compares a single flag with whole levels, of which only the last is a single flag. -/
def syslogLevel (level : LogFlag) : Priority :=
  if level.bits = logLevelDebug then .debug
  else if level.bits = logLevelInfo then .info
  else if level.bits = logLevelWarn then .warning
  else if level.bits = logLevelError then .err
  else .info

/-- What a call of the logger finds: whether the log file can be opened and
written to, and the text of the last error. -/
structure Moment where
  opens : Bool
  writes : Bool
  errorText : ErrorText

inductive Output where
  | file (name written : List Byte)
  | system (priority : Priority) (recorded : Option (List Byte))
  | cout (written : List Byte)
  | cerr (written : List Byte)
  deriving DecidableEq, Repr

def syslog (moment : Moment) (priority : Priority) (format : List Byte) : Output :=
  .system priority (formatted moment.errorText format)

def Logger.toFile (logger : Logger) (moment : Moment) (msg : List Byte) : List Output :=
  if 0 < logger.logOutputFile.length ∧ logger.logOutputFile ≠ [] then
    if !moment.opens then [.cerr (text "Cannot open log file for writing\n")]
    else .file logger.logOutputFile (msg ++ text "\n") ::
      (if !moment.writes then [.cerr (text "Failed to write to log file\n")] else [])
  else []

def Logger.log (logger : Logger) (moment : Moment) (level : LogFlag) (msg : List Byte) : List Output :=
  if logger.logLevelFilter &&& level.bits ≠ 0 then
    (if logger.logOutputFilter &&& logFile ≠ 0 then logger.toFile moment msg else []) ++
    (if logger.logOutputFilter &&& logSystem ≠ 0 then [syslog moment (syslogLevel level) (cString msg)] else []) ++
    (if logger.logOutputFilter &&& logConsole ≠ 0 then
      if level.bits &&& LogFlag.error.bits ≠ 0 then [.cerr (msg ++ text "\n")] else [.cout (msg ++ text "\n")]
    else [])
  else []

section Lines

def opcodeName : Opcode → String
  | .opcodeStart => "OPCODE_START"
  | .cmsgEchoRequest => "CMSG_ECHO_REQUEST"
  | .cmsgAdditionRequest => "CMSG_ADDITION_REQUEST"
  | .cmsgBroadcastMessage => "CMSG_BROADCAST_MESSAGE"
  | .cmsgGetClientList => "CMSG_GET_CLIENT_LIST"
  | .cmsgSendMsgToClient => "CMSG_SEND_MSG_TO_CLIENT"
  | .cmsgUptime => "CMSG_UPTIME"
  | .cmsgPing => "CMSG_PING"
  | .cmsgIncrementCounter => "CMSG_INCREMENT_COUNTER"
  | .cmsgGetCounter => "CMSG_GET_COUNTER"
  | .cmsgGetChatRooms => "CMSG_GET_CHAT_ROOMS"
  | .cmsgGetRoomInfo => "CMSG_GET_ROOM_INFO"
  | .cmsgJoinRoom => "CMSG_JOIN_ROOM"
  | .cmsgSay => "CMSG_SAY"
  | .smsgMotd => "SMSG_MOTD"
  | .smsgMessage => "SMSG_MESSAGE"
  | .smsgEchoRequest => "SMSG_ECHO_REQUEST"
  | .smsgAdditionRequest => "SMSG_ADDITION_REQUEST"
  | .smsgBroadcast => "SMSG_BROADCAST"
  | .smsgClientList => "SMSG_CLIENT_LIST"
  | .smsgPrivateMsgErr => "SMSG_PRIVATE_MSG_ERR"
  | .smsgPrivateMessage => "SMSG_PRIVATE_MESSAGE"
  | .smsgUptime => "SMSG_UPTIME"
  | .smsgPong => "SMSG_PONG"
  | .smsgCounter => "SMSG_COUNTER"
  | .smsgJoinChatRoomOk => "SMSG_JOIN_CHAT_ROOM_OK"
  | .smsgJoinChatRoomErr => "SMSG_JOIN_CHAT_ROOM_ERR"
  | .smsgSayOk => "SMSG_SAY_OK"
  | .smsgSayErr => "SMSG_SAY_ERR"
  | .smsgSay => "SMSG_SAY"
  | .opcodeMax => "OPCODE_MAX"

def hexadecimal (value : Nat) : List Byte := (Nat.toDigits 16 value).map fun digit => char digit.toUpper

/-- `OPCODE_STR`, four digits wide. -/
def opcodeStr (name : String) (code : Nat) : List Byte :=
  text "[" ++ text name ++ text " (0x" ++ List.replicate (4 - (hexadecimal code).length) (char '0') ++ hexadecimal code ++
    text ")]"

/-- `OPCODE_OSTR`, neither filled up nor closed. -/
def opcodeOstr (opcode : Opcode) : List Byte :=
  text "[" ++ text (opcodeName opcode) ++ text " (0x" ++ hexadecimal opcode.code ++ text ")"

/-- What the lines take from the libraries: how floating-point values are
printed, which is without percent signs, and why a write failed. -/
structure Wording where
  printing : Printing
  sslError : Option Handle → Int → Int
  plainFloat : ∀ bits, percent ∉ printing.float bits
  plainDouble : ∀ bits, percent ∉ printing.double bits

/-- Lines that are only logged if nothing was thrown before. -/
def unlessThrown {α : Type} (result : Checked Exn α) (lines : α → List (List Byte)) : List (List Byte) :=
  match result with
  | .ok value => lines value
  | .error _ => []

variable (wording : Wording) (host : Host) (view : View) (server : Server)

def sendSSLPacketToClientSocketLog (client : ClientSocket) (packet : List Byte) (opcodeFancyName : List Byte) :
    List (List Byte) :=
  let sent := view.written client.ssl packet
  (text "Sending opcode: " ++ opcodeFancyName ++ text " (size:" ++ decimal packet.length ++ text ")") ::
    (if sent ≤ 0 then
      [text "SSL_write failed for " ++ opcodeFancyName ++ text ", SSL error: " ++
        decimalInt (wording.sslError client.ssl sent)]
    else [])

def sendMsgToSocketLog (client : ClientSocket) (msg : List Byte) : List (List Byte) :=
  sendSSLPacketToClientSocketLog wording view client (opcodeBytes .smsgMessage ++ cString msg) (opcodeOstr .smsgMessage) ++
    [text "SMSG_MESSAGE sent"]

def callHandlerEchoLog (client : ClientSocket) (reply : List Byte) : List (List Byte) :=
  sendSSLPacketToClientSocketLog wording view client (opcodeBytes .smsgEchoRequest ++ reply) (opcodeOstr .smsgEchoRequest)

def addLoopLog (mem : Mem) (payloadSize : Nat) : (rounds : Nat) → (offset : Nat) → List (List Byte)
  | 0, _ => []
  | rounds + 1, offset =>
      if offset < payloadSize then
        unlessThrown (readByte mem offset) fun tag =>
          unlessThrown (readNumber host.order mem (offset + 1) (NumberType.ofByte tag)) fun read =>
            (text "Number type:" ++ decimal tag.toNat ++ text " -> " ++ numberToString wording.printing read.1) ::
              addLoopLog mem payloadSize rounds read.2
      else []

def callHandlerAddLog (client : ClientSocket) (offset payloadSize : Nat) : List (List Byte) :=
  addLoopLog wording host view.buffer payloadSize (payloadSize - offset) offset ++
    unlessThrown (addLoop host view.buffer payloadSize (payloadSize - offset) (.start offset)) fun state =>
      (text "Sum: " ++ wording.printing.double state.sum) ::
        sendSSLPacketToClientSocketLog wording view client
          (opcodeBytes .smsgAdditionRequest ++ toBytes host.order 8 state.sum.toNat) (opcodeOstr .smsgAdditionRequest)

def callHandlerBroadcastLog (stream : List Byte) : List (List Byte) :=
  (text "Known clients: " ++ decimal server.clientSockets.length) ::
    server.clientSockets.flatMap fun client =>
      if !client.sslEnabled then []
      else sendSSLPacketToClientSocketLog wording view client (opcodeBytes .smsgBroadcast ++ stream)
        (opcodeOstr .smsgBroadcast)

def callHandlerGetClientListLog (client : ClientSocket) : List (List Byte) :=
  sendSSLPacketToClientSocketLog wording view client (clientListPacket server client) (opcodeOstr .smsgClientList)

def relayPrivateMessageLog (client : ClientSocket) (foundClient : Option ClientSocket) (error : ChatErr)
    (message : List Byte) : List (List Byte) :=
  sendSSLPacketToClientSocketLog wording view client (opcodeBytes .smsgPrivateMsgErr ++ [error.code])
      (opcodeOstr .smsgPrivateMsgErr) ++
    match foundClient, error with
    | some found, .ok => sendSSLPacketToClientSocketLog wording view found
        (opcodeBytes .smsgPrivateMessage ++ (toBytes host.order 8 client.clientID.toNat ++ message))
        (opcodeOstr .smsgPrivateMessage)
    | _, _ => []

def callHandlerMsgToClientLog (client : ClientSocket) (offset payloadSize : Nat) : List (List Byte) :=
  unlessThrown (readBytes view.buffer offset 8) fun raw =>
    let clientID := BitVec.ofNat 64 (ofBytes host.order raw)
    let error := recipientError server client clientID
    unlessThrown (if error = .ok then readBytes view.buffer (offset + 8) payloadSize else .ok []) fun message =>
      relayPrivateMessageLog wording host view client (findRecipient server client clientID)
        (if error = .ok ∧ message = [] then .emptyMessage else error) message

def callHandlerPongLog (client : ClientSocket) : List (List Byte) :=
  sendSSLPacketToClientSocketLog wording view client (opcodeBytes .smsgPong) (opcodeOstr .smsgPong)

def callHandlerUptimeLog (client : ClientSocket) : List (List Byte) :=
  sendSSLPacketToClientSocketLog wording view client (opcodeBytes .smsgUptime ++ uptimeText view.seconds)
    (opcodeOstr .smsgUptime)

def callHandlerGetCounterLog (client : ClientSocket) : List (List Byte) :=
  sendSSLPacketToClientSocketLog wording view client
    (opcodeBytes .smsgCounter ++ toBytes host.order 8 server.counter.toNat) (opcodeOstr .smsgCounter)

def callHandlerGetChatRoomsLog (client : ClientSocket) : List (List Byte) :=
  sendMsgToSocketLog wording view client (getChatRoomsStr host.traversal server.chatRooms)

def callHandlerGetRoominfoLog (client : ClientSocket) : List (List Byte) :=
  if client.chatRoomJoined = false then sendMsgToSocketLog wording view client (text "No joined room")
  else if !checkRoomID server.chatRooms client.joinedChatRoomID then
    sendMsgToSocketLog wording view client (text "Invalid room")
  else
    unlessThrown (getRoomName server.chatRooms client.joinedChatRoomID) fun name =>
      sendMsgToSocketLog wording view client (text "Joined: " ++ name)

def callHandlerJoinRoomLog (client : ClientSocket) (offset : Nat) : List (List Byte) :=
  unlessThrown (readByte view.buffer offset) fun roomID =>
    unlessThrown (readBytes view.buffer (offset + 1) digestLength) fun hash =>
      unlessThrown (joinVerdict view.behindHash server.chatRooms roomID hash) fun verdict =>
        if verdict.1 = .ok then
          sendSSLPacketToClientSocketLog wording view client (opcodeBytes .smsgJoinChatRoomOk ++ [roomID])
            (opcodeOstr .smsgJoinChatRoomOk)
        else
          sendSSLPacketToClientSocketLog wording view client (opcodeBytes .smsgJoinChatRoomErr ++ [verdict.1.code])
            (opcodeOstr .smsgJoinChatRoomErr)

/-- What is passed on to the room goes by the name of a broadcast. -/
def callHandlerSayLog (client : ClientSocket) (message : List Byte) : List (List Byte) :=
  if checkRoomID server.chatRooms client.joinedChatRoomID && client.chatRoomJoined then
    sendSSLPacketToClientSocketLog wording view client (opcodeBytes .smsgSayOk) (opcodeOstr .smsgSayOk) ++
      server.clientSockets.flatMap fun other =>
        if !other.sslEnabled then []
        else if other.joinedChatRoomID ≠ client.joinedChatRoomID ∨ other.chatRoomJoined = false then []
        else sendSSLPacketToClientSocketLog wording view other (opcodeBytes .smsgSay ++ message)
          (opcodeOstr .smsgBroadcast)
  else
    let error := if client.chatRoomJoined = false then ChatErr.noRoomJoined else ChatErr.invalidRoom
    sendSSLPacketToClientSocketLog wording view client (opcodeBytes .smsgSayErr ++ [error.code]) (opcodeOstr .smsgSayErr)

def receivedOpcode (opcode : Opcode) : List Byte :=
  text "Received opcode: " ++ opcodeStr (opcodeName opcode) opcode.code

/-- The payload is streamed through `c_str()`. -/
def receivedPayload (opcode : Opcode) (payload : List Byte) : List Byte :=
  receivedOpcode opcode ++ text "\n" ++ text "payload: " ++ cString payload

def invalidLength : List Byte := text "Invalid opcode length, aborting handler call\n"

def switchOpcodeLog (client : ClientSocket) (payloadSize code : Nat) : List (List Byte) :=
  match Opcode.ofCode code with
  | some .cmsgEchoRequest =>
      unlessThrown (readBytes view.buffer 2 (payloadSize - 2)) fun payload =>
        receivedPayload .cmsgEchoRequest payload :: callHandlerEchoLog wording view client payload
  | some .cmsgAdditionRequest =>
      if 2 + 1 * 2 + 1 * 2 ≤ payloadSize then
        receivedOpcode .cmsgAdditionRequest :: callHandlerAddLog wording host view client 2 payloadSize
      else [receivedOpcode .cmsgAdditionRequest ++ invalidLength]
  | some .cmsgBroadcastMessage =>
      unlessThrown (readBytes view.buffer 2 (payloadSize - 2)) fun payload =>
        receivedPayload .cmsgBroadcastMessage payload :: callHandlerBroadcastLog wording view server payload
  | some .cmsgGetClientList =>
      receivedOpcode .cmsgGetClientList :: callHandlerGetClientListLog wording view server client
  | some .cmsgSendMsgToClient =>
      if 2 + 8 ≤ payloadSize then
        receivedOpcode .cmsgSendMsgToClient :: callHandlerMsgToClientLog wording host view server client 2 payloadSize
      else [receivedOpcode .cmsgSendMsgToClient ++ invalidLength]
  | some .cmsgPing => receivedOpcode .cmsgPing :: callHandlerPongLog wording view client
  | some .cmsgUptime => receivedOpcode .cmsgUptime :: callHandlerUptimeLog wording view client
  | some .cmsgIncrementCounter => [receivedOpcode .cmsgIncrementCounter]
  | some .cmsgGetCounter => receivedOpcode .cmsgGetCounter :: callHandlerGetCounterLog wording host view server client
  | some .cmsgGetChatRooms => receivedOpcode .cmsgGetChatRooms :: callHandlerGetChatRoomsLog wording host view server client
  | some .cmsgGetRoomInfo => receivedOpcode .cmsgGetRoomInfo :: callHandlerGetRoominfoLog wording view server client
  -- the only label that does not name itself in the line
  | some .cmsgJoinRoom =>
      if 2 + 1 + digestLength = payloadSize then
        text "Received opcode: " :: callHandlerJoinRoomLog wording view server client 2
      else [text "Received opcode: " ++ invalidLength]
  | some .cmsgSay =>
      unlessThrown (readBytes view.buffer 2 (payloadSize - 2)) fun payload =>
        receivedPayload .cmsgSay payload :: callHandlerSayLog wording view server client payload
  | _ => (text "Received opcode: " ++ opcodeStr "CMSG_UNKNOWN_OPCODE" code) ::
      sendMsgToSocketLog wording view client (text "Unknown or unhandled opcode.")

def callHandlerLog (client : ClientSocket) (payloadSize : Nat) : List (List Byte) :=
  unlessThrown (readBytes view.buffer 0 2) fun raw =>
    switchOpcodeLog wording host view server client payloadSize (ofBytes .big raw)

end Lines

/-- What is logged because of one read. A single byte is answered without a line. -/
def packetLog (wording : Wording) (host : Host) (ambient : Ambient) (server : Server)
    (it : Fin server.clientSockets.length) (received : Received) : List (List Byte) :=
  let buffer := receive server.buffer received.bytes
  if 2 ≤ received.bytes.length then
    callHandlerLog wording host (physicalView ambient buffer) { server with buffer := buffer } (server.clientSockets.get it)
      received.bytes.length
  else []

def Output.systemRecord : Output → Option (Option (List Byte))
  | .system _ recorded => some recorded
  | _ => none

/-- What `syslog` makes of the lines, each logged at a moment of its own. -/
def recorded (logger : Logger) (moments : Nat → Moment) (lines : List (List Byte)) : List (Option (List Byte)) :=
  lines.zipIdx.flatMap fun entry => (logger.log (moments entry.2) .debug entry.1).filterMap Output.systemRecord

end Communo.Logging
