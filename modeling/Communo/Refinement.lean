import Communo.ChatService
import Communo.RoomPassword
import Communo.PrivateMessages

/-! The server refines the chat service: whatever bytes its clients send and
however the loop is scheduled, each step is at most one event of the service,
and the packets written are the encoded answers to it. -/

namespace Communo.Refinement
open Lib.ByteCodec Lib.CheckedMemory Lib.Runs Lib.KeyedList Lib.Transducers Protocol NumParser Chat Session Handlers MainLoop
  Dispatch Transitions Faults Survival Writes RoomTable RoomPassword ClientList SessionTable PrivateMessages ChatService

/-- What a packet asks for; for two opcodes that includes bytes the handlers find behind it. -/
def understood (host : Host) (view : View) (packet : List Byte) : Checked Exn Query :=
  if packet.length < 2 then .ok .short
  else
    match opcodeOf packet with
    | some .cmsgEchoRequest => .ok (.echo (packet.drop 2))
    | some .cmsgAdditionRequest =>
        if 2 + 1 * 2 + 1 * 2 ≤ packet.length then
          (addLoop host view.buffer packet.length (packet.length - 2) (.start 2)).bind fun state => .ok (.add state.numbers)
        else .ok .malformed
    | some .cmsgBroadcastMessage => .ok (.broadcast (packet.drop 2))
    | some .cmsgGetClientList => .ok .getClients
    | some .cmsgSendMsgToClient =>
        if 2 + 8 ≤ packet.length then
          (readBytes view.buffer 10 packet.length).bind fun message => .ok (.tell (requestedID host packet) message)
        else .ok .malformed
    | some .cmsgPing => .ok .ping
    | some .cmsgUptime => .ok .uptime
    | some .cmsgIncrementCounter => .ok .increment
    | some .cmsgGetCounter => .ok .getCounter
    | some .cmsgGetChatRooms => .ok .getRooms
    | some .cmsgGetRoomInfo => .ok .getRoomInfo
    | some .cmsgJoinRoom =>
        if 2 + 1 + digestLength = packet.length then .ok (.join (packet[2]?.getD 0) (packet.drop 3)) else .ok .malformed
    | some .cmsgSay => .ok (.say (packet.drop 2))
    | _ => .ok .unknown

def memberOf (session : ClientSocket) : Member where
  handle := session.ssl.getD 0
  clientID := session.clientID
  username := session.clientUsername
  room := if session.chatRoomJoined then some session.joinedChatRoomID else none

structure Represents (server : Server) (service : Service) : Prop where
  members : service.members = server.clientSockets.map memberOf
  enabled : ∀ session ∈ server.clientSockets, session.sslEnabled = true
  handled : ∀ session ∈ server.clientSockets, ∃ handle, session.ssl = some handle
  rooms : service.rooms = server.chatRooms
  counter : service.counter = server.counter
  nextID : service.nextID = server.uniqueClientCounter

def encode (order : ByteOrder) (output : Handle × Answer) : Option Handle × List Byte :=
  (some output.1, output.2.bytes order)

section Handlers
variable {host : Host} {ambient : Ambient} {buffer : Nat → Byte} {server : Server} {service : Service}
  (represents : Represents server service)

theorem packetsWritten_flatMap {α : Type} (entries : List α) (calls : α → List Call) :
    packetsWritten (entries.flatMap calls) = entries.flatMap fun entry => packetsWritten (calls entry) := by
  induction entries with
  | nil => rfl
  | cons entry entries ih => rw [List.flatMap_cons, packetsWritten_append, ih, List.flatMap_cons]

theorem written_inRoom (order : ByteOrder) (view : View) {sockets : List ClientSocket}
    (enabled : ∀ session ∈ sockets, session.sslEnabled = true)
    (handled : ∀ session ∈ sockets, ∃ handle, session.ssl = some handle) (roomID : Byte) (message : List Byte) :
    packetsWritten (sockets.flatMap fun other =>
        if !other.sslEnabled then []
        else if other.joinedChatRoomID ≠ roomID ∨ other.chatRoomJoined = false then []
        else sendSSLPacketToClientSocket view other (opcodeBytes .smsgSay ++ message)) =
      (((sockets.map memberOf).filter fun other => other.room = some roomID).map fun other =>
        (other.handle, Answer.say message)).map (encode order) := by
  induction sockets with
  | nil => rfl
  | cons other sockets ih =>
    have rest := ih (fun later inside => enabled later (by simp [inside])) (fun later inside => handled later (by simp [inside]))
    obtain ⟨handle, held⟩ := handled other (by simp)
    have here : (memberOf other).room = some roomID ↔
        ¬(other.joinedChatRoomID ≠ roomID ∨ other.chatRoomJoined = false) := by
      cases flag : other.chatRoomJoined <;> simp [memberOf, flag]
    rw [List.flatMap_cons, packetsWritten_append, rest, List.map_cons]
    simp only [enabled other (by simp), Bool.not_true, Bool.false_eq_true, if_false]
    by_cases apart : other.joinedChatRoomID ≠ roomID ∨ other.chatRoomJoined = false
    · have elsewhere : ¬(memberOf other).room = some roomID := fun inside => here.mp inside apart
      rw [if_pos apart, List.filter_cons_of_neg (by simpa using elsewhere)]
      rfl
    · have inside := here.mpr apart
      rw [if_neg apart, List.filter_cons_of_pos (by simpa using inside), packetsWritten_send, List.map_cons, List.map_cons]
      simp only [memberOf, held]
      rfl

section Session
variable {session : ClientSocket} (present : session ∈ server.clientSockets)
include represents present

theorem ssl_eq : session.ssl = some (memberOf session).handle := by
  obtain ⟨handle, held⟩ := represents.handled session present
  simp [memberOf, held]

theorem written_back (view : View) (answer : Answer) :
    packetsWritten (sendSSLPacketToClientSocket view session (answer.bytes host.order)) =
      [((memberOf session).handle, answer)].map (encode host.order) := by
  rw [packetsWritten_send, ssl_eq represents present]
  rfl

omit present in
theorem written_broadcast (view : View) (stream : List Byte) :
    packetsWritten (callHandlerBroadcast view server stream) =
      (service.answers host ambient (memberOf session) (.broadcast stream)).map (encode host.order) := by
  rw [packetsWritten_broadcast view server stream represents.enabled, Service.answers, represents.members, List.map_map,
    List.map_map]
  apply List.map_congr_left
  intro other inside
  rw [ssl_eq represents inside]
  rfl

theorem clientListPacket_represented (host : Host) :
    clientListPacket server session =
      (if encodedSize (service.listing (memberOf session)) ≤ 4096 then
        Answer.clients (service.listing (memberOf session)) else .tooManyClients).bytes host.order := by
  have nonempty : 0 < server.clientSockets.length := List.length_pos_of_mem present
  have entries : server.clientSockets.flatMap (clientEntry session) =
      (service.listing (memberOf session)).flatMap entryBytes := by
    rw [Service.listing, represents.members, List.map_map, List.flatMap_map]
    rfl
  simp only [clientListPacket, entries, length_flatMap_entryBytes, if_pos nonempty]
  split <;> rfl

omit present in
theorem find_represented (clientID : BitVec 64) :
    (service.members.find? fun other => other.clientID = clientID) =
      (server.clientSockets.find? fun candidate => candidate.clientID = clientID).map memberOf := by
  rw [represents.members, List.find?_map]
  rfl

theorem written_relay (view : View) (clientID : BitVec 64) (message : List Byte) :
    packetsWritten (relayPrivateMessage host view session (findRecipient server session clientID)
        (recipientError server session clientID) message) =
      (service.answers host ambient (memberOf session) (.tell clientID message)).map (encode host.order) := by
  have own : (memberOf session).clientID = session.clientID := rfl
  rw [packetsWritten_relay, Service.answers, find_represented represents, own]
  unfold recipientError findRecipient
  by_cases self : clientID = session.clientID
  · simp only [if_pos self, ssl_eq represents present]
    rfl
  · simp only [if_neg self, ssl_eq represents present]
    cases found : server.clientSockets.find? fun candidate => candidate.clientID = clientID with
    | none => rfl
    | some other =>
      have held := ssl_eq represents (List.mem_of_find?_eq_some found)
      simp only [Option.isNone_some, Bool.false_eq_true, if_false, Option.toList_some, List.map_cons, List.map_nil, held]
      rfl

theorem checkRoomID_of_joined (joined : session.chatRoomJoined = true) :
    checkRoomID server.chatRooms session.joinedChatRoomID = true := by
  rw [← represents.rooms]
  apply service.settled (memberOf session)
  · rw [represents.members]
    exact List.mem_map_of_mem present
  · simp [memberOf, joined]

/-- The branch for a room that is not there is never taken. -/
theorem roominfo_represented (view : View) :
    callHandlerGetRoominfo view server session =
      .ok (sendMsgToSocket view session (service.roomInfo (memberOf session))) := by
  unfold callHandlerGetRoominfo Service.roomInfo
  cases joined : session.chatRoomJoined with
  | false => simp [memberOf, joined]
  | true =>
    have exists_ := checkRoomID_of_joined represents present joined
    obtain ⟨room, found⟩ := Option.isSome_iff_exists.mp exists_
    simp [memberOf, joined, exists_, getRoomName, found, represents.rooms, Except.bind]

theorem written_say (view : View) (message : List Byte) :
    packetsWritten (callHandlerSay view server session message) =
      (service.answers host ambient (memberOf session) (.say message)).map (encode host.order) := by
  unfold callHandlerSay
  cases joined : session.chatRoomJoined with
  | false =>
    have nowhere : (memberOf session).room = none := by simp [memberOf, joined]
    simp only [Bool.and_false, Bool.false_eq_true, if_false, if_true, Service.answers, nowhere]
    exact written_back represents present view (.sayErr .noRoomJoined)
  | true =>
    have somewhere : (memberOf session).room = some session.joinedChatRoomID := by simp [memberOf, joined]
    simp only [checkRoomID_of_joined represents present joined, Bool.and_self, if_true, Service.answers, somewhere,
      packetsWritten_append, packetsWritten_flatMap, List.map_cons]
    rw [packetsWritten_send, ssl_eq represents present, List.singleton_append, represents.members,
      ← written_inRoom host.order view represents.enabled represents.handled, packetsWritten_flatMap]
    rfl

end Session

section Join
variable (roomID : Byte) (hash : List Byte)

theorem hashMemory_physical (stored : List Byte) :
    hashMemory stored ((physicalView ambient buffer).behindHash roomID) =
      fun address => some ((stored ++ [0])[address]?.getD (ambient.behindHash roomID address)) := by
  funext address
  by_cases inside : address ≤ stored.length
  · have bound : address < (stored ++ [0]).length := by simpa using Nat.lt_succ_of_le inside
    simp only [hashMemory, if_pos inside, List.getElem?_eq_getElem bound, Option.getD_some]
  · have past : (stored ++ [0]).length ≤ address := by simpa using Nat.succ_le_of_lt (not_le.mp inside)
    simp only [hashMemory, if_neg inside, List.getElem?_eq_none past, Option.getD_none]
    rfl

include represents in
theorem joinVerdict_represented :
    joinVerdict (physicalView ambient buffer).behindHash server.chatRooms roomID hash =
      .ok (service.verdict ambient roomID hash, (service.visit roomID).rooms) := by
  rw [Service.verdict, Service.visit_rooms, represents.rooms]
  cases found : server.chatRooms.lookup roomID with
  | none =>
    rw [joinVerdict_absent (by simp [checkRoomID, found])]
  | some room =>
    have kept : (index server.chatRooms roomID).2 = server.chatRooms :=
      index_of_checkRoomID (by simp [checkRoomID, found])
    by_cases unlocked : room.passwordHash = []
    · rw [joinVerdict_open found unlocked]
      simp [unlocked, kept]
    · rw [joinVerdict_protected found unlocked, hashMemory_physical, readBytes_total, bind_ok, kept]
      simp only [unlocked, false_or, Nat.zero_add, Service.comparedHash]

theorem members_set {sockets : List ClientSocket} (distinct : ((sockets.map memberOf).map Member.handle).Nodup)
    (client : Fin sockets.length) :
    (sockets.set client { sockets.get client with joinedChatRoomID := roomID, chatRoomJoined := true }).map memberOf =
      (sockets.map memberOf).map (Member.enter roomID (memberOf (sockets.get client)).handle) := by
  apply List.ext_getElem
  · simp
  · intro position inside _
    have bound : position < sockets.length := by simpa using inside
    rw [List.map_map] at distinct
    have own : (memberOf sockets[position]).handle = (memberOf (sockets.get client)).handle ↔ position = client := by
      constructor
      · intro same
        have equal : (⟨position, bound⟩ : Fin sockets.length) = client := eq_of_key_get distinct same
        exact congrArg Fin.val equal
      · rintro rfl
        rfl
    simp only [List.getElem_map, List.getElem_set, Member.enter, own]
    by_cases here : client.val = position
    · subst here
      simp [memberOf]
    · have apart : ¬position = client := fun same => here same.symm
      simp [here, apart]

end Join

theorem Represents.loaded (represents : Represents server service) (bytes : Nat → Byte) :
    Represents { server with buffer := bytes } service :=
  { represents with }

theorem addLoop_sum {mem : Mem} {payloadSize rounds : Nat} {state later : AddState}
    (summed : state.sum = Service.total host state.numbers)
    (looped : addLoop host mem payloadSize rounds state = .ok later) : later.sum = Service.total host later.numbers := by
  induction rounds generalizing state with
  | zero =>
    obtain rfl := Except.ok.inj looped
    exact summed
  | succ rounds ih =>
    simp only [addLoop] at looped
    split at looped
    · obtain ⟨tag, -, looped⟩ := bind_eq_ok.mp looped
      obtain ⟨read, -, looped⟩ := bind_eq_ok.mp looped
      refine ih ?_ looped
      simp only [Service.total, List.foldl_append, List.foldl_cons, List.foldl_nil, summed]
    · obtain rfl := Except.ok.inj looped
      exact summed

theorem Represents.joined (represents : Represents server service) (client : Fin server.clientSockets.length)
    {roomID : Byte} {hash : List Byte} (accepted : service.verdict ambient roomID hash = .ok) :
    Represents { server with
        chatRooms := (service.visit roomID).rooms,
        clientSockets := server.clientSockets.set client
          { server.clientSockets.get client with joinedChatRoomID := roomID, chatRoomJoined := true } }
      (service.join ambient (memberOf (server.clientSockets.get client)).handle roomID hash) := by
  have distinct := service.distinct
  rw [represents.members] at distinct
  have kept {P : ClientSocket → Prop} (all : ∀ session ∈ server.clientSockets, P session)
      (own : P { server.clientSockets.get client with joinedChatRoomID := roomID, chatRoomJoined := true }) :
      ∀ session ∈ server.clientSockets.set client
        { server.clientSockets.get client with joinedChatRoomID := roomID, chatRoomJoined := true }, P session := by
    intro session inside
    rcases List.mem_or_eq_of_mem_set inside with old | new
    · exact all session old
    · exact new ▸ own
  rw [Service.join, if_pos accepted]
  constructor
  · rw [members_set roomID distinct client, ← represents.members]
    rfl
  · exact kept represents.enabled (represents.enabled (server.clientSockets.get client) (List.get_mem _ _))
  · exact kept represents.handled (represents.handled (server.clientSockets.get client) (List.get_mem _ _))
  · rfl
  · exact represents.counter
  · exact represents.nextID

theorem Represents.visited (represents : Represents server service) (roomID : Byte) :
    Represents { server with chatRooms := (service.visit roomID).rooms } (service.visit roomID) :=
  { represents with rooms := rfl }

theorem msgToClient_represented {packet : List Byte} (delivers : Delivers (physicalView ambient buffer) packet)
    (large : 10 ≤ packet.length) (session : ClientSocket) {message : List Byte}
    (copied : readBytes (physicalView ambient buffer).buffer 10 packet.length = (.ok message : Checked Exn (List Byte))) :
    callHandlerMsgToClient host (physicalView ambient buffer) server session 2 packet.length =
      .ok (relayPrivateMessage host (physicalView ambient buffer) session
        (findRecipient server session (requestedID host packet))
        (recipientError server session (requestedID host packet)) message) := by
  have size := ((readBytes_eq_ok_iff _ _ _ _).mp copied).1
  have nonempty : message ≠ [] := List.ne_nil_of_length_pos (by omega)
  have named : BitVec.ofNat 64 (ofBytes host.order ((packet.drop 2).take 8)) = requestedID host packet := rfl
  simp only [callHandlerMsgToClient]
  rw [readBytes_slice delivers (by omega), bind_ok, named]
  by_cases found : recipientError server session (requestedID host packet) = .ok
  · simp only [found, if_true, copied, bind_ok, nonempty, and_false, if_false]
  · have nobody : findRecipient server session (requestedID host packet) = none := by
      rw [recipientError_eq_ok_iff_isSome] at found
      simpa using found
    simp only [found, if_false, bind_ok, false_and, nobody]
    rfl

/-- The service answers what the packet asks for with the packets that were written, and comes to the state of the server. -/
def Answered (host : Host) (ambient : Ambient) (buffer : Nat → Byte) (service : Service) (member : Member)
    (packet : List Byte) (handled : Server × List Call) : Prop :=
  ∃ query, understood host (physicalView ambient buffer) packet = .ok query ∧
    Represents handled.1 (service.update ambient member.handle query) ∧
    packetsWritten handled.2 = (service.answers host ambient member query).map (encode host.order)

section Opcodes
variable {client : Fin server.clientSockets.length} {packet : List Byte} {opcode : Opcode} {handled : Server × List Call}
  (long : 2 ≤ packet.length)

include represents in
theorem answered_reply (query : Query) (answer : Answer)
    (means : understood host (physicalView ambient buffer) packet = .ok query)
    (kept : service.update ambient (memberOf (server.clientSockets.get client)).handle query = service)
    (single : service.answers host ambient (memberOf (server.clientSockets.get client)) query =
      [((memberOf (server.clientSockets.get client)).handle, answer)]) :
    Answered host ambient buffer service (memberOf (server.clientSockets.get client)) packet
      (server, sendSSLPacketToClientSocket (physicalView ambient buffer) (server.clientSockets.get client)
        (answer.bytes host.order)) := by
  refine ⟨query, means, kept.symm ▸ represents, ?_⟩
  rw [single]
  exact written_back represents (List.get_mem _ _) _ answer

include represents in
theorem answered_malformed (means : understood host (physicalView ambient buffer) packet = .ok .malformed) (member : Member) :
    Answered host ambient buffer service member packet (server, []) :=
  ⟨.malformed, means, represents, rfl⟩

include represents in
theorem answered_unknown (means : understood host (physicalView ambient buffer) packet = .ok .unknown) :
    Answered host ambient buffer service (memberOf (server.clientSockets.get client)) packet
      (server, sendMsgToSocket (physicalView ambient buffer) (server.clientSockets.get client)
        (text "Unknown or unhandled opcode.")) :=
  answered_reply represents .unknown (.message (text "Unknown or unhandled opcode.")) means rfl rfl

section Delivered
variable (delivers : Delivers (physicalView ambient buffer) packet)
  (done : switchOpcode host (physicalView ambient buffer) server client packet.length (opcodeOf packet) = .ok handled)
include represents long delivers done

theorem answered_text (is : opcodeOf packet = some opcode) (text : opcode ∈ [.cmsgEchoRequest, .cmsgBroadcastMessage, .cmsgSay]) :
    Answered host ambient buffer service (memberOf (server.clientSockets.get client)) packet handled := by
  have present : server.clientSockets.get client ∈ server.clientSockets := List.get_mem _ _
  have short := not_lt.mpr long
  simp only [List.mem_cons, List.not_mem_nil, or_false] at text
  rcases text with rfl | rfl | rfl <;>
    simp only [is, switchOpcode, readBytes_payload delivers long, bind_ok, Except.ok.injEq] at done <;> subst done
  · exact answered_reply represents (.echo (packet.drop 2)) _ (by simp only [understood, if_neg short, is]) rfl rfl
  · exact ⟨.broadcast (packet.drop 2), by simp only [understood, if_neg short, is], represents,
      written_broadcast represents _ _⟩
  · exact ⟨.say (packet.drop 2), by simp only [understood, if_neg short, is], represents, written_say represents present _ _⟩

omit delivers in
theorem answered_addition (is : opcodeOf packet = some .cmsgAdditionRequest) :
    Answered host ambient buffer service (memberOf (server.clientSockets.get client)) packet handled := by
  have short := not_lt.mpr long
  simp only [is, switchOpcode] at done
  split at done
  · next large =>
    obtain ⟨added, looped, returned⟩ := bind_eq_ok.mp done
    cases Except.ok.inj returned
    obtain ⟨state, decoded, sent⟩ := bind_eq_ok.mp looped
    cases Except.ok.inj sent
    refine answered_reply represents (.add state.numbers) (.sum state.sum)
      (by simp only [understood, if_neg short, is, if_pos large, decoded, bind_ok]) rfl ?_
    rw [Service.answers, ← addLoop_sum rfl decoded]
  · next small =>
    cases Except.ok.inj done
    exact answered_malformed represents (by simp only [understood, if_neg short, is, if_neg small]) _

theorem answered_privateMessage (is : opcodeOf packet = some .cmsgSendMsgToClient) :
    Answered host ambient buffer service (memberOf (server.clientSockets.get client)) packet handled := by
  have short := not_lt.mpr long
  simp only [is, switchOpcode] at done
  split at done
  · next large =>
    obtain ⟨relayed, sent, returned⟩ := bind_eq_ok.mp done
    cases Except.ok.inj returned
    obtain ⟨message, copied⟩ : ∃ message, (readBytes (physicalView ambient buffer).buffer 10 packet.length :
        Checked Exn (List Byte)) = .ok message := ⟨_, readBytes_total _ 10 packet.length⟩
    rw [msgToClient_represented delivers large _ copied] at sent
    cases Except.ok.inj sent
    exact ⟨.tell (requestedID host packet) message,
      by simp only [understood, if_neg short, is, if_pos large, copied, bind_ok], represents,
      written_relay represents (List.get_mem _ _) _ _ _⟩
  · next small =>
    cases Except.ok.inj done
    exact answered_malformed represents (by simp only [understood, if_neg short, is, if_neg small]) _

omit delivers in
theorem answered_status (is : opcodeOf packet = some opcode)
    (asks : opcode ∈ [.cmsgGetClientList, .cmsgPing, .cmsgUptime, .cmsgIncrementCounter, .cmsgGetCounter]) :
    Answered host ambient buffer service (memberOf (server.clientSockets.get client)) packet handled := by
  have short := not_lt.mpr long
  simp only [List.mem_cons, List.not_mem_nil, or_false] at asks
  rcases asks with rfl | rfl | rfl | rfl | rfl <;> simp only [is, switchOpcode, Except.ok.injEq] at done <;> subst done
  · rw [callHandlerGetClientList, clientListPacket_represented represents (List.get_mem _ _) host]
    exact answered_reply represents .getClients _ (by simp only [understood, if_neg short, is]) rfl rfl
  · exact answered_reply represents .ping .pong (by simp only [understood, if_neg short, is]) rfl rfl
  · exact answered_reply represents .uptime (.uptime ambient.seconds)
      (by simp only [understood, if_neg short, is]) rfl rfl
  · refine ⟨.increment, by simp only [understood, if_neg short, is], { represents with counter := ?_ }, rfl⟩
    rw [Service.update, Service.count, represents.counter]
  · refine answered_reply represents .getCounter (.counter server.counter)
      (by simp only [understood, if_neg short, is]) rfl ?_
    rw [Service.answers, represents.counter]

omit delivers in
theorem answered_rooms (is : opcodeOf packet = some opcode) (asks : opcode ∈ [.cmsgGetChatRooms, .cmsgGetRoomInfo]) :
    Answered host ambient buffer service (memberOf (server.clientSockets.get client)) packet handled := by
  have short := not_lt.mpr long
  simp only [List.mem_cons, List.not_mem_nil, or_false] at asks
  rcases asks with rfl | rfl <;> simp only [is, switchOpcode] at done
  · cases Except.ok.inj done
    refine answered_reply represents .getRooms (.message _)
      (by simp only [understood, if_neg short, is]) rfl ?_
    rw [Service.answers, represents.rooms]
  · obtain ⟨described, told, returned⟩ := bind_eq_ok.mp done
    cases Except.ok.inj returned
    rw [roominfo_represented represents (List.get_mem _ _)] at told
    cases Except.ok.inj told
    exact answered_reply represents .getRoomInfo (.message _)
      (by simp only [understood, if_neg short, is]) rfl rfl

theorem answered_join (is : opcodeOf packet = some .cmsgJoinRoom) :
    Answered host ambient buffer service (memberOf (server.clientSockets.get client)) packet handled := by
  have short := not_lt.mpr long
  have back (answer : Answer) :
      packetsWritten (sendSSLPacketToClientSocket (physicalView ambient buffer) (server.clientSockets.get client)
        (answer.bytes host.order)) =
        [((memberOf (server.clientSockets.get client)).handle, answer)].map (encode host.order) :=
    written_back represents (List.get_mem _ _) _ answer
  simp only [is, switchOpcode] at done
  split at done
  · next size =>
    have named : packet[2]? = some (packet[2]?.getD 0) := by
      rw [List.getElem?_eq_getElem (by simp only [digestLength] at size; omega)]
      rfl
    have exactly : packet.length = 35 := size.symm
    rw [callHandlerJoinRoom_delivered delivers exactly named, joinVerdict_represented represents, bind_ok] at done
    refine ⟨.join (packet[2]?.getD 0) (packet.drop 3), by simp only [understood, if_neg short, is, if_pos size], ?_⟩
    by_cases accepted : service.verdict ambient (packet[2]?.getD 0) (packet.drop 3) = .ok
    · rw [if_pos accepted] at done
      cases Except.ok.inj done
      refine ⟨represents.joined client accepted, ?_⟩
      rw [Service.answers, if_pos accepted]
      exact back (.joined _)
    · rw [if_neg accepted] at done
      cases Except.ok.inj done
      refine ⟨?_, ?_⟩
      · rw [Service.update, Service.join, if_neg accepted]
        exact represents.visited _
      · rw [Service.answers, if_neg accepted]
        exact back (.notJoined _)
  · next size =>
    cases Except.ok.inj done
    exact answered_malformed represents (by simp only [understood, if_neg short, is, if_neg size]) _

end Delivered

include represents long in
/-- A dispatch is one event of the service. -/
theorem answered_of_callHandler (delivers : Delivers (physicalView ambient buffer) packet)
    (done : callHandler host (physicalView ambient buffer) server client packet.length = .ok handled) :
    Answered host ambient buffer service (memberOf (server.clientSockets.get client)) packet handled := by
  rw [callHandler_delivered delivers long] at done
  have short := not_lt.mpr long
  cases is : opcodeOf packet with
  | none =>
    simp only [is, switchOpcode, Except.ok.injEq] at done
    exact done ▸ answered_unknown represents (by simp only [understood, if_neg short, is])
  | some opcode =>
    cases opcode with
    | cmsgEchoRequest | cmsgBroadcastMessage | cmsgSay => exact answered_text represents long delivers done is (by decide)
    | cmsgAdditionRequest => exact answered_addition represents long done is
    | cmsgSendMsgToClient => exact answered_privateMessage represents long delivers done is
    | cmsgGetClientList | cmsgPing | cmsgUptime | cmsgIncrementCounter | cmsgGetCounter =>
      exact answered_status represents long done is (by decide)
    | cmsgGetChatRooms | cmsgGetRoomInfo => exact answered_rooms represents long done is (by decide)
    | cmsgJoinRoom => exact answered_join represents long delivers done is
    | _ =>
      simp only [is, switchOpcode, Except.ok.injEq] at done
      exact done ▸ answered_unknown represents (by simp only [understood, if_neg short, is])

end Opcodes

end Handlers

end Communo.Refinement
