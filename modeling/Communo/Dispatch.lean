import Communo.MainLoop

/-! What a dispatch can do, said once. Everything that later holds along whole
runs is derived from `handled_of_callHandler` and never unfolds a handler. -/

namespace Communo.Dispatch
open Lib.ByteCodec Lib.CheckedMemory Protocol NumParser Chat Session Handlers MainLoop

/-- The receive buffer starts with `packet`; what follows it is not constrained. -/
def Delivers (view : View) (packet : List Byte) : Prop :=
  ∀ address < packet.length, view.buffer address = packet[address]?

theorem physicalView_delivers (ambient : Ambient) (buffer : Nat → Byte) (received : Received) :
    Delivers (physicalView ambient (receive buffer received.bytes)) received.bytes := by
  intro address inside
  have inBuffer : address < bufferSize := lt_of_lt_of_le inside received.fits
  simp only [physicalView, if_pos inBuffer, receive, List.getElem?_eq_getElem inside, Option.getD_some]

section Delivered
variable {view : View} {packet : List Byte} (delivers : Delivers view packet)
include delivers

theorem callHandler_delivered (long : 2 ≤ packet.length) (host : Host) (server : Server)
    (client : Fin server.clientSockets.length) :
    callHandler host view server client packet.length =
      switchOpcode host view server client packet.length (opcodeOf packet) := by
  unfold callHandler
  rw [readBytes_slice delivers (by omega), List.drop_zero]
  rfl

theorem readBytes_payload (long : 2 ≤ packet.length) :
    (readBytes view.buffer 2 (packet.length - 2) : Checked Exn (List Byte)) = .ok (packet.drop 2) := by
  rw [readBytes_slice delivers (by omega), List.take_of_length_le (by simp)]

theorem readByte_delivered {offset : Nat} (inside : offset < packet.length) :
    (readByte view.buffer offset : Checked Exn Byte) = .ok (packet.get ⟨offset, inside⟩) := by
  simp [readByte, delivers offset inside, List.getElem?_eq_getElem inside]

end Delivered

inductive Reply (host : Host) (view : View) (server : Server) (client : ClientSocket) (packet : List Byte) :
    ClientSocket → List Byte → Prop where
  | echo (isEcho : opcodeOf packet = some .cmsgEchoRequest) :
      Reply host view server client packet client (opcodeBytes .smsgEchoRequest ++ packet.drop 2)
  | sum (isAddition : opcodeOf packet = some .cmsgAdditionRequest) (value : BitVec 64) :
      Reply host view server client packet client
        (opcodeBytes .smsgAdditionRequest ++ toBytes host.order 8 value.toNat)
  | broadcast (isBroadcast : opcodeOf packet = some .cmsgBroadcastMessage) (other : ClientSocket)
      (present : other ∈ server.clientSockets) :
      Reply host view server client packet other (opcodeBytes .smsgBroadcast ++ packet.drop 2)
  | clientList (isGetClients : opcodeOf packet = some .cmsgGetClientList) :
      Reply host view server client packet client (clientListPacket server client)
  | privateMsgErr (isPrivate : opcodeOf packet = some .cmsgSendMsgToClient) (error : ChatErr) :
      Reply host view server client packet client (opcodeBytes .smsgPrivateMsgErr ++ [error.code])
  | privateMessage (isPrivate : opcodeOf packet = some .cmsgSendMsgToClient) (large : 10 ≤ packet.length)
      (found : ClientSocket) (raw message : List Byte) (read : readBytes view.buffer 2 8 = (.ok raw : Checked Exn _))
      (recipient : findRecipient server client (BitVec.ofNat 64 (ofBytes host.order raw)) = some found)
      (copied : readBytes view.buffer 10 packet.length = (.ok message : Checked Exn _)) :
      Reply host view server client packet found
        (opcodeBytes .smsgPrivateMessage ++ (toBytes host.order 8 client.clientID.toNat ++ message))
  | pong (isPing : opcodeOf packet = some .cmsgPing) :
      Reply host view server client packet client (opcodeBytes .smsgPong)
  | uptime (isUptime : opcodeOf packet = some .cmsgUptime) :
      Reply host view server client packet client (opcodeBytes .smsgUptime ++ uptimeText view.seconds)
  | counter (isGetCounter : opcodeOf packet = some .cmsgGetCounter) :
      Reply host view server client packet client
        (opcodeBytes .smsgCounter ++ toBytes host.order 8 server.counter.toNat)
  | chatRooms (isGetChatRooms : opcodeOf packet = some .cmsgGetChatRooms) :
      Reply host view server client packet client
        (opcodeBytes .smsgMessage ++ cString (getChatRoomsStr host.traversal server.chatRooms))
  | roomInfo (isGetRoomInfo : opcodeOf packet = some .cmsgGetRoomInfo) (name : List Byte)
      (joined : client.chatRoomJoined = true)
      (named : getRoomName server.chatRooms client.joinedChatRoomID = .ok name) :
      Reply host view server client packet client (opcodeBytes .smsgMessage ++ cString (text "Joined: " ++ name))
  | notice (literal : String)
      (known : literal ∈ ["No joined room", "Invalid room", "Unknown or unhandled opcode."]) :
      Reply host view server client packet client (opcodeBytes .smsgMessage ++ cString (text literal))
  | joinOk (isJoin : opcodeOf packet = some .cmsgJoinRoom) (roomID : Byte) :
      Reply host view server client packet client (opcodeBytes .smsgJoinChatRoomOk ++ [roomID])
  | joinErr (isJoin : opcodeOf packet = some .cmsgJoinRoom) (error : ChatErr) :
      Reply host view server client packet client (opcodeBytes .smsgJoinChatRoomErr ++ [error.code])
  | sayOk (isSay : opcodeOf packet = some .cmsgSay) :
      Reply host view server client packet client (opcodeBytes .smsgSayOk)
  | sayErr (isSay : opcodeOf packet = some .cmsgSay) (error : ChatErr) :
      Reply host view server client packet client (opcodeBytes .smsgSayErr ++ [error.code])
  | say (isSay : opcodeOf packet = some .cmsgSay) (other : ClientSocket) (present : other ∈ server.clientSockets) :
      Reply host view server client packet other (opcodeBytes .smsgSay ++ packet.drop 2)

def Answers (host : Host) (view : View) (server : Server) (client : ClientSocket) (packet : List Byte)
    (call : Call) : Prop :=
  ∃ session reply, Reply host view server client packet session reply ∧
    (call = .sslWrite session.ssl reply ∨ call = .sslGetError session.ssl)

/-- Neither a room message nor one of the two replies that the history of rooms is read off. -/
def PlainReply : Call → Prop
  | .sslGetError _ => True
  | .sslWrite _ packet => opcodeOf packet ≠ some .smsgSay ∧ opcodeOf packet ≠ some .smsgSayOk ∧
      opcodeOf packet ≠ some .smsgJoinChatRoomOk
  | _ => False

theorem plainReply_send (view : View) (client : ClientSocket) {packet : List Byte}
    (plain : PlainReply (.sslWrite client.ssl packet)) :
    ∀ call ∈ sendSSLPacketToClientSocket view client packet, PlainReply call := by
  intro call member
  simp only [sendSSLPacketToClientSocket, List.mem_cons] at member
  rcases member with same | failed
  · exact same ▸ plain
  · split at failed
    · simp only [List.mem_singleton] at failed
      exact failed ▸ trivial
    · simp at failed

theorem plainReply_append {ssl : Option Handle} {opcode : Opcode} (payload : List Byte)
    (plain : opcode ≠ .smsgSay ∧ opcode ≠ .smsgSayOk ∧ opcode ≠ .smsgJoinChatRoomOk) :
    PlainReply (.sslWrite ssl (opcodeBytes opcode ++ payload)) := by
  simpa [PlainReply] using plain

theorem plainReply_opcode {ssl : Option Handle} {opcode : Opcode}
    (plain : opcode ≠ .smsgSay ∧ opcode ≠ .smsgSayOk ∧ opcode ≠ .smsgJoinChatRoomOk) :
    PlainReply (.sslWrite ssl (opcodeBytes opcode)) := by
  simpa [PlainReply] using plain

def IsReply : Call → Prop
  | .sslWrite _ _ | .sslGetError _ => True
  | _ => False

theorem isReply_of_plainReply {call : Call} (plain : PlainReply call) : IsReply call := by
  cases call <;> first | exact plain.elim | trivial

theorem isReply_send (view : View) (client : ClientSocket) (packet : List Byte) :
    ∀ call ∈ sendSSLPacketToClientSocket view client packet, IsReply call := by
  intro call member
  simp only [sendSSLPacketToClientSocket, List.mem_cons] at member
  rcases member with same | failed
  · exact same ▸ trivial
  · split at failed
    · exact List.mem_singleton.mp failed ▸ trivial
    · simp at failed

theorem isReply_say (view : View) (server : Server) (client : ClientSocket) (message : List Byte) :
    ∀ call ∈ callHandlerSay view server client message, IsReply call := by
  intro call member
  unfold callHandlerSay at member
  split at member
  · rcases List.mem_append.mp member with confirmed | relayed
    · exact isReply_send view client _ call confirmed
    · obtain ⟨other, -, made⟩ := List.mem_flatMap.mp relayed
      split at made
      · simp at made
      · split at made
        · simp at made
        · exact isReply_send view other _ call made
  · exact isReply_send view client _ call member

/-- Every way a dispatch can end without an exception. -/
inductive Handled (view : View) (server : Server) (client : Fin server.clientSockets.length)
    (packet : List Byte) : Server → List Call → Prop where
  | plain (calls : List Call) (other : ¬(opcodeOf packet = some .cmsgJoinRoom ∧ packet.length = 35))
      (replies : ∀ call ∈ calls, PlainReply call) :
      Handled view server client packet server calls
  | counted (isIncrement : opcodeOf packet = some .cmsgIncrementCounter) :
      Handled view server client packet { server with counter := server.counter + 1 } []
  | joined (roomID : Byte) (chatRooms : ChatRooms) (isJoin : opcodeOf packet = some .cmsgJoinRoom)
      (size : packet.length = 35) (named : packet[2]? = some roomID)
      (verdict : joinVerdict view.behindHash server.chatRooms roomID (packet.drop 3) = .ok (.ok, chatRooms)) :
      Handled view server client packet
        { server with
          chatRooms := chatRooms,
          clientSockets := server.clientSockets.set client
            { server.clientSockets.get client with joinedChatRoomID := roomID, chatRoomJoined := true } }
        (sendSSLPacketToClientSocket view (server.clientSockets.get client)
          (opcodeBytes .smsgJoinChatRoomOk ++ [roomID]))
  | refused (roomID : Byte) (error : ChatErr) (chatRooms : ChatRooms)
      (isJoin : opcodeOf packet = some .cmsgJoinRoom) (size : packet.length = 35)
      (named : packet[2]? = some roomID) (failed : error ≠ .ok)
      (verdict : joinVerdict view.behindHash server.chatRooms roomID (packet.drop 3) = .ok (error, chatRooms)) :
      Handled view server client packet { server with chatRooms := chatRooms }
        (sendSSLPacketToClientSocket view (server.clientSockets.get client)
          (opcodeBytes .smsgJoinChatRoomErr ++ [error.code]))
  | said (isSay : opcodeOf packet = some .cmsgSay) :
      Handled view server client packet server
        (callHandlerSay view server (server.clientSockets.get client) (packet.drop 2))

theorem Handled.isReply {view : View} {server next : Server} {client : Fin server.clientSockets.length}
    {packet : List Byte} {calls : List Call} (effect : Handled view server client packet next calls) :
    ∀ call ∈ calls, IsReply call := by
  cases effect with
  | plain _ _ replies => exact fun call made => isReply_of_plainReply (replies call made)
  | counted => simp
  | joined => exact isReply_send view _ _
  | refused => exact isReply_send view _ _
  | said => exact isReply_say view server _ _

theorem Handled.buffer_eq {view : View} {server next : Server} {client : Fin server.clientSockets.length}
    {packet : List Byte} {calls : List Call} (effect : Handled view server client packet next calls) :
    next.buffer = server.buffer := by
  cases effect <;> rfl

section Answering
variable {host : Host} {view : View} {server : Server} {client : ClientSocket} {packet : List Byte}

theorem plainReply_of_answers (notJoin : opcodeOf packet ≠ some .cmsgJoinRoom)
    (notSay : opcodeOf packet ≠ some .cmsgSay) {call : Call} (answers : Answers host view server client packet call) :
    PlainReply call := by
  obtain ⟨session, reply, sent, rfl | rfl⟩ := answers
  · cases sent with
    | clientList =>
      simp only [clientListPacket]
      split <;> exact plainReply_append _ (by decide)
    | pong => exact plainReply_opcode (by decide)
    | joinOk isJoin => exact absurd isJoin notJoin
    | joinErr isJoin => exact absurd isJoin notJoin
    | sayOk isSay => exact absurd isSay notSay
    | sayErr isSay => exact absurd isSay notSay
    | say isSay => exact absurd isSay notSay
    | _ => exact plainReply_append _ (by decide)
  · trivial

theorem answers_send {session : ClientSocket} {reply : List Byte}
    (sent : Reply host view server client packet session reply) :
    ∀ call ∈ sendSSLPacketToClientSocket view session reply, Answers host view server client packet call := by
  intro call member
  simp only [sendSSLPacketToClientSocket, List.mem_cons] at member
  rcases member with same | failed
  · exact ⟨session, reply, sent, Or.inl same⟩
  · split at failed
    · exact ⟨session, reply, sent, Or.inr (List.mem_singleton.mp failed)⟩
    · simp at failed

theorem answers_broadcast (isBroadcast : opcodeOf packet = some .cmsgBroadcastMessage) :
    ∀ call ∈ callHandlerBroadcast view server (packet.drop 2), Answers host view server client packet call := by
  intro call member
  obtain ⟨other, present, made⟩ := List.mem_flatMap.mp member
  split at made
  · simp at made
  · exact answers_send (.broadcast isBroadcast other present) call made

theorem answers_msgToClient (isPrivate : opcodeOf packet = some .cmsgSendMsgToClient) (large : 10 ≤ packet.length)
    {calls : List Call} (handled : callHandlerMsgToClient host view server client 2 packet.length = .ok calls) :
    ∀ call ∈ calls, Answers host view server client packet call := by
  obtain ⟨raw, read, handled⟩ := bind_eq_ok.mp handled
  obtain ⟨message, copied, handled⟩ := bind_eq_ok.mp handled
  obtain rfl := Except.ok.inj handled
  intro call member
  rcases List.mem_append.mp member with status | forwarded
  · exact answers_send (.privateMsgErr isPrivate _) call status
  · split at forwarded
    · next found recipient accepted =>
      have fine : recipientError server client (BitVec.ofNat 64 (ofBytes host.order raw)) = .ok := by
        by_contra wrong
        simp only [wrong, false_and, if_false] at accepted
      rw [if_pos fine] at copied
      exact answers_send (.privateMessage isPrivate large found raw message read recipient copied) call forwarded
    · simp at forwarded

theorem answers_add (isAddition : opcodeOf packet = some .cmsgAdditionRequest) {calls : List Call}
    (handled : callHandlerAdd host view client 2 packet.length = .ok calls) :
    ∀ call ∈ calls, Answers host view server client packet call := by
  obtain ⟨state, -, handled⟩ := bind_eq_ok.mp handled
  obtain rfl := Except.ok.inj handled
  exact answers_send (.sum isAddition state.sum)

theorem answers_roominfo (isGetRoomInfo : opcodeOf packet = some .cmsgGetRoomInfo) {calls : List Call}
    (handled : callHandlerGetRoominfo view server client = .ok calls) :
    ∀ call ∈ calls, Answers host view server client packet call := by
  unfold callHandlerGetRoominfo at handled
  split at handled
  · obtain rfl := Except.ok.inj handled
    exact answers_send (.notice _ (by simp))
  · next joined =>
    split at handled
    · obtain rfl := Except.ok.inj handled
      exact answers_send (.notice _ (by simp))
    · obtain ⟨name, named, handled⟩ := bind_eq_ok.mp handled
      obtain rfl := Except.ok.inj handled
      exact answers_send (.roomInfo isGetRoomInfo name (by simpa using joined) named)

theorem answers_say (isSay : opcodeOf packet = some .cmsgSay) :
    ∀ call ∈ callHandlerSay view server client (packet.drop 2), Answers host view server client packet call := by
  intro call member
  unfold callHandlerSay at member
  split at member
  · rcases List.mem_append.mp member with confirmed | relayed
    · exact answers_send (.sayOk isSay) call confirmed
    · obtain ⟨other, present, made⟩ := List.mem_flatMap.mp relayed
      split at made
      · simp at made
      · split at made
        · simp at made
        · exact answers_send (.say isSay other present) call made
  · exact answers_send (.sayErr isSay _) call member

end Answering

theorem callHandlerJoinRoom_delivered {view : View} {server : Server} {client : Fin server.clientSockets.length}
    {packet : List Byte} (delivers : Delivers view packet) (size : packet.length = 35) {roomID : Byte}
    (named : packet[2]? = some roomID) :
    callHandlerJoinRoom view server client 2 =
      (joinVerdict view.behindHash server.chatRooms roomID (packet.drop 3)).bind fun verdict =>
        if verdict.1 = .ok then
          .ok ({ server with
              chatRooms := verdict.2,
              clientSockets := server.clientSockets.set client
                { server.clientSockets.get client with joinedChatRoomID := roomID, chatRoomJoined := true } },
            sendSSLPacketToClientSocket view (server.clientSockets.get client)
              (opcodeBytes .smsgJoinChatRoomOk ++ [roomID]))
        else
          .ok ({ server with chatRooms := verdict.2 },
            sendSSLPacketToClientSocket view (server.clientSockets.get client)
              (opcodeBytes .smsgJoinChatRoomErr ++ [verdict.1.code])) := by
  have inside : 2 < packet.length := by omega
  have isRoom : packet.get ⟨2, inside⟩ = roomID :=
    Option.some.inj ((List.getElem?_eq_getElem inside).symm.trans named)
  have hash : (readBytes view.buffer (2 + 1) digestLength : Checked Exn (List Byte)) = .ok (packet.drop 3) := by
    rw [readBytes_slice delivers (by simp only [digestLength]; omega), List.take_of_length_le]
    simp only [List.length_drop, digestLength]
    omega
  unfold callHandlerJoinRoom
  rw [readByte_delivered delivers inside, bind_ok, hash, bind_ok, isRoom]
  rfl

theorem handled_of_joinRoom {view : View} {server : Server} {client : Fin server.clientSockets.length}
    {packet : List Byte} (delivers : Delivers view packet) (isJoin : opcodeOf packet = some .cmsgJoinRoom)
    (size : packet.length = 35) {next : Server} {calls : List Call}
    (joined : callHandlerJoinRoom view server client 2 = .ok (next, calls)) :
    Handled view server client packet next calls := by
  have named : packet[2]? = some (packet.get ⟨2, by omega⟩) := List.getElem?_eq_getElem _
  rw [callHandlerJoinRoom_delivered delivers size named] at joined
  obtain ⟨⟨error, chatRooms⟩, decided, joined⟩ := bind_eq_ok.mp joined
  by_cases accepted : error = .ok
  · subst accepted
    simp only [if_true, Except.ok.injEq, Prod.mk.injEq] at joined
    obtain ⟨rfl, rfl⟩ := joined
    exact .joined _ chatRooms isJoin size named decided
  · simp only [if_neg accepted, Except.ok.injEq, Prod.mk.injEq] at joined
    obtain ⟨rfl, rfl⟩ := joined
    exact .refused _ error chatRooms isJoin size named accepted decided

/-- What a dispatch does to the server, and that all it calls are answers to the packet. -/
theorem dispatched_of_callHandler {host : Host} {view : View} {server next : Server}
    {client : Fin server.clientSockets.length} {packet : List Byte} {calls : List Call}
    (delivers : Delivers view packet) (long : 2 ≤ packet.length)
    (handled : callHandler host view server client packet.length = .ok (next, calls)) :
    Handled view server client packet next calls ∧
      ∀ call ∈ calls, Answers host view server (server.clientSockets.get client) packet call := by
  have plainly {opcode : Option Opcode} (is : opcodeOf packet = opcode)
      (notJoin : opcode ≠ some .cmsgJoinRoom) (notSay : opcode ≠ some .cmsgSay)
      (answers : ∀ call ∈ calls, Answers host view server (server.clientSockets.get client) packet call) :
      Handled view server client packet server calls ∧
        ∀ call ∈ calls, Answers host view server (server.clientSockets.get client) packet call := by
    subst is
    exact ⟨.plain _ (fun exact => notJoin exact.1)
      (fun call made => plainReply_of_answers notJoin notSay (answers call made)), answers⟩
  rw [callHandler_delivered delivers long] at handled
  unfold switchOpcode at handled
  simp only [readBytes_payload delivers long, bind_ok] at handled
  split at handled
  · next isEcho =>
    obtain ⟨rfl, rfl⟩ := Prod.mk.inj (Except.ok.inj handled)
    exact plainly isEcho (by decide) (by decide) (answers_send (.echo isEcho))
  · next isAddition =>
    split at handled
    · obtain ⟨calls, added, rest⟩ := bind_eq_ok.mp handled
      obtain ⟨rfl, rfl⟩ := Prod.mk.inj (Except.ok.inj rest)
      exact plainly isAddition (by decide) (by decide) (answers_add isAddition added)
    · obtain ⟨rfl, rfl⟩ := Prod.mk.inj (Except.ok.inj handled)
      exact plainly isAddition (by decide) (by decide) (by simp)
  · next isBroadcast =>
    obtain ⟨rfl, rfl⟩ := Prod.mk.inj (Except.ok.inj handled)
    exact plainly isBroadcast (by decide) (by decide) (answers_broadcast isBroadcast)
  · next isGetClients =>
    obtain ⟨rfl, rfl⟩ := Prod.mk.inj (Except.ok.inj handled)
    exact plainly isGetClients (by decide) (by decide) (answers_send (.clientList isGetClients))
  · next isPrivate =>
    split at handled
    · next large =>
      obtain ⟨calls, relayed, rest⟩ := bind_eq_ok.mp handled
      obtain ⟨rfl, rfl⟩ := Prod.mk.inj (Except.ok.inj rest)
      exact plainly isPrivate (by decide) (by decide) (answers_msgToClient isPrivate large relayed)
    · obtain ⟨rfl, rfl⟩ := Prod.mk.inj (Except.ok.inj handled)
      exact plainly isPrivate (by decide) (by decide) (by simp)
  · next isPing =>
    obtain ⟨rfl, rfl⟩ := Prod.mk.inj (Except.ok.inj handled)
    exact plainly isPing (by decide) (by decide) (answers_send (.pong isPing))
  · next isUptime =>
    obtain ⟨rfl, rfl⟩ := Prod.mk.inj (Except.ok.inj handled)
    exact plainly isUptime (by decide) (by decide) (answers_send (.uptime isUptime))
  · next isIncrement =>
    obtain ⟨rfl, rfl⟩ := Prod.mk.inj (Except.ok.inj handled)
    exact ⟨.counted isIncrement, by simp⟩
  · next isGetCounter =>
    obtain ⟨rfl, rfl⟩ := Prod.mk.inj (Except.ok.inj handled)
    exact plainly isGetCounter (by decide) (by decide) (answers_send (.counter isGetCounter))
  · next isGetChatRooms =>
    obtain ⟨rfl, rfl⟩ := Prod.mk.inj (Except.ok.inj handled)
    exact plainly isGetChatRooms (by decide) (by decide) (answers_send (.chatRooms isGetChatRooms))
  · next isGetRoomInfo =>
    obtain ⟨calls, described, rest⟩ := bind_eq_ok.mp handled
    obtain ⟨rfl, rfl⟩ := Prod.mk.inj (Except.ok.inj rest)
    exact plainly isGetRoomInfo (by decide) (by decide) (answers_roominfo isGetRoomInfo described)
  · next isJoin =>
    split at handled
    · next size =>
      have joined := handled_of_joinRoom delivers isJoin size.symm handled
      refine ⟨joined, ?_⟩
      cases joined with
      | plain _ other => exact absurd ⟨isJoin, size.symm⟩ other
      | counted isIncrement => exact absurd (isJoin.symm.trans isIncrement) (by decide)
      | joined roomID => exact answers_send (.joinOk isJoin roomID)
      | refused roomID error => exact answers_send (.joinErr isJoin error)
      | said isSay => exact absurd (isJoin.symm.trans isSay) (by decide)
    · next size =>
      obtain ⟨rfl, rfl⟩ := Prod.mk.inj (Except.ok.inj handled)
      exact ⟨.plain _ (fun exact => size exact.2.symm) (by simp), by simp⟩
  · next isSay =>
    obtain ⟨rfl, rfl⟩ := Prod.mk.inj (Except.ok.inj handled)
    exact ⟨.said isSay, answers_say isSay⟩
  · next notJoin notSay =>
    obtain ⟨rfl, rfl⟩ := Prod.mk.inj (Except.ok.inj handled)
    exact plainly rfl notJoin notSay (answers_send (.notice _ (by simp)))

theorem handled_of_callHandler {host : Host} {view : View} {server next : Server}
    {client : Fin server.clientSockets.length} {packet : List Byte} {calls : List Call}
    (delivers : Delivers view packet) (long : 2 ≤ packet.length)
    (handled : callHandler host view server client packet.length = .ok (next, calls)) :
    Handled view server client packet next calls :=
  (dispatched_of_callHandler delivers long handled).1

section Visit
variable {host : Host} {input : Input} {server : Server} {it : Fin server.clientSockets.length}

theorem visit_closing (closing : server.serverState = .closing) :
    visit host input server it = .ok ({ server with clientSockets := (erase server.clientSockets it).1 }, it,
      (server.clientSockets.get it).close ++ (erase server.clientSockets it).2) := by
  simp only [visit, if_pos closing]

section Open
variable (isOpen : server.serverState ≠ .closing)
include isOpen

theorem visit_idle (quiet : server.readfds (server.clientSockets.get it).socket = false) :
    visit host input server it = .ok (server, it.val + 1, [Call.fdIsSet (server.clientSockets.get it).socket]) := by
  simp only [visit, if_neg isOpen, quiet, Bool.false_eq_true, if_false]

theorem visit_lost (ready : server.readfds (server.clientSockets.get it).socket = true)
    (lost : ∀ received, input.read ≠ .data received) :
    visit host input server it = .ok ({ server with clientSockets := (erase server.clientSockets it).1 }, it,
      [Call.fdIsSet (server.clientSockets.get it).socket, .sslRead (server.clientSockets.get it).ssl input.read] ++
        (server.clientSockets.get it).close ++ (erase server.clientSockets it).2) := by
  simp only [visit, if_neg isOpen, ready, if_true]

theorem visit_data (ready : server.readfds (server.clientSockets.get it).socket = true) {received : Received}
    (data : input.read = .data received) :
    visit host input server it =
      if 2 ≤ received.bytes.length then
        (callHandler host (physicalView input.ambient (receive server.buffer received.bytes))
          { server with buffer := receive server.buffer received.bytes } it received.bytes.length).bind
          fun handled => .ok (handled.1, it.val + 1,
            [Call.fdIsSet (server.clientSockets.get it).socket,
              .sslRead (server.clientSockets.get it).ssl (.data received),
              .callHandler (server.clientSockets.get it).ssl received.bytes] ++ handled.2)
      else .ok ({ server with buffer := receive server.buffer received.bytes }, it.val + 1,
        [Call.fdIsSet (server.clientSockets.get it).socket,
          .sslRead (server.clientSockets.get it).ssl (.data received)] ++
          sendSSLPacketToClientSocket (physicalView input.ambient (receive server.buffer received.bytes))
            (server.clientSockets.get it) (text "Invalid packet.")) := by
  simp only [visit, if_neg isOpen, ready, if_true, data]
  rfl

end Open

inductive Visited (input : Input) (server : Server) (it : Fin server.clientSockets.length) :
    Server → Nat → List Call → Prop where
  | closing (closing : server.serverState = .closing) :
      Visited input server it { server with clientSockets := (erase server.clientSockets it).1 } it
        ((server.clientSockets.get it).close ++ (erase server.clientSockets it).2)
  | idle (isOpen : server.serverState ≠ .closing)
      (quiet : server.readfds (server.clientSockets.get it).socket = false) :
      Visited input server it server (it.val + 1) [Call.fdIsSet (server.clientSockets.get it).socket]
  | lost (isOpen : server.serverState ≠ .closing)
      (ready : server.readfds (server.clientSockets.get it).socket = true)
      (lost : ∀ received, input.read ≠ .data received) :
      Visited input server it { server with clientSockets := (erase server.clientSockets it).1 } it
        ([Call.fdIsSet (server.clientSockets.get it).socket, .sslRead (server.clientSockets.get it).ssl input.read] ++
          (server.clientSockets.get it).close ++ (erase server.clientSockets it).2)
  | short (isOpen : server.serverState ≠ .closing)
      (ready : server.readfds (server.clientSockets.get it).socket = true) (received : Received)
      (data : input.read = .data received) (single : received.bytes.length < 2) (calls : List Call)
      (replies : ∀ call ∈ calls, PlainReply call) :
      Visited input server it { server with buffer := receive server.buffer received.bytes } (it.val + 1)
        ([Call.fdIsSet (server.clientSockets.get it).socket,
          .sslRead (server.clientSockets.get it).ssl (.data received)] ++ calls)
  | handled (isOpen : server.serverState ≠ .closing)
      (ready : server.readfds (server.clientSockets.get it).socket = true) (received : Received)
      (data : input.read = .data received) (long : 2 ≤ received.bytes.length) (next : Server) (calls : List Call)
      (effect : Handled (physicalView input.ambient (receive server.buffer received.bytes))
        { server with buffer := receive server.buffer received.bytes } it received.bytes next calls) :
      Visited input server it next (it.val + 1)
        ([Call.fdIsSet (server.clientSockets.get it).socket,
          .sslRead (server.clientSockets.get it).ssl (.data received),
          .callHandler (server.clientSockets.get it).ssl received.bytes] ++ calls)

theorem plainReply_invalid (view : View) (client : ClientSocket) :
    ∀ call ∈ sendSSLPacketToClientSocket view client (text "Invalid packet."), PlainReply call :=
  plainReply_send view client (by simp only [PlainReply]; decide)

theorem visited_of_visit {next : Server} {position : Nat} {calls : List Call}
    (visited : visit host input server it = .ok (next, position, calls)) :
    Visited input server it next position calls := by
  by_cases closing : server.serverState = .closing
  · rw [visit_closing closing] at visited
    obtain ⟨rfl, rest⟩ := Prod.mk.inj (Except.ok.inj visited)
    obtain ⟨rfl, rfl⟩ := Prod.mk.inj rest
    exact .closing closing
  · cases ready : server.readfds (server.clientSockets.get it).socket with
    | false =>
      rw [visit_idle closing ready] at visited
      obtain ⟨rfl, rest⟩ := Prod.mk.inj (Except.ok.inj visited)
      obtain ⟨rfl, rfl⟩ := Prod.mk.inj rest
      exact .idle closing ready
    | true =>
      by_cases lost : ∀ received, input.read ≠ .data received
      · rw [visit_lost closing ready lost] at visited
        obtain ⟨rfl, rest⟩ := Prod.mk.inj (Except.ok.inj visited)
        obtain ⟨rfl, rfl⟩ := Prod.mk.inj rest
        exact .lost closing ready lost
      · push Not at lost
        obtain ⟨received, data⟩ := lost
        rw [visit_data closing ready data] at visited
        by_cases long : 2 ≤ received.bytes.length
        · rw [if_pos long] at visited
          obtain ⟨handled, called, returned⟩ := bind_eq_ok.mp visited
          obtain ⟨rfl, rest⟩ := Prod.mk.inj (Except.ok.inj returned)
          obtain ⟨rfl, rfl⟩ := Prod.mk.inj rest
          exact .handled closing ready received data long _ _
            (handled_of_callHandler (physicalView_delivers _ _ received) long called)
        · rw [if_neg long] at visited
          obtain ⟨rfl, rest⟩ := Prod.mk.inj (Except.ok.inj visited)
          obtain ⟨rfl, rfl⟩ := Prod.mk.inj rest
          exact .short closing ready received data (by omega) _ (plainReply_invalid _ _)

end Visit

end Communo.Dispatch
