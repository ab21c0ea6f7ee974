import Communo.Framing
import Communo.ReplySizes
import Communo.ServiceLaws

/-! Both directions of the wire between a client and the chat service: a request
is understood as what was asked, and an answer is shown as what was answered. -/

namespace Communo.Conversations
open Lib.ByteCodec Lib.CheckedMemory Protocol NumParser Chat Session Handlers MainLoop Client ListDecoding Dispatch Addition
  Faults Writes Framing ReplyDecoding ClientList PrivateMessages ChatService Refinement ServiceLaws

/-- What a request asks for once it has arrived. A private message arrives with ten bytes that its
sender did not write: those that lie behind it in the buffer of the server. -/
inductive Conveys (sha256 : Sha256) : Request → Query → Prop where
  | echo (msg : List Byte) : Conveys sha256 (.echo msg) (.echo msg)
  | addition (numbers : List Number) : Conveys sha256 (.addition numbers) (.add numbers)
  | broadcast (msg : List Byte) : Conveys sha256 (.broadcast msg) (.broadcast msg)
  | ping : Conveys sha256 .ping .ping
  | uptime : Conveys sha256 .uptime .uptime
  | incrementCounter : Conveys sha256 .incrementCounter .increment
  | getCounter : Conveys sha256 .getCounter .getCounter
  | getClients : Conveys sha256 .getClients .getClients
  | clientMessage (clientID : BitVec 64) (msg strays : List Byte) (ten : strays.length = 10) :
      Conveys sha256 (.clientMessage clientID msg) (.tell clientID (msg ++ strays))
  | getChatRooms : Conveys sha256 .getChatRooms .getRooms
  | getRoomInfo : Conveys sha256 .getRoomInfo .getRoomInfo
  | joinRoom (roomID : Byte) (password : List Byte) :
      Conveys sha256 (.joinRoom roomID password) (.join roomID (sha256 password).toList)
  | chatSay (msg : List Byte) : Conveys sha256 (.chatSay msg) (.say msg)

section Requests
variable {host : Host} {ambient : Ambient} {buffer : Nat → Byte} {sha256 : Sha256}

theorem message_copied {clientID : BitVec 64} {msg : List Byte}
    (delivers : Delivers (physicalView ambient buffer) (sendClientMessage host.order clientID msg)) :
    ∃ strays, strays.length = 10 ∧ (readBytes (physicalView ambient buffer).buffer 10
      (sendClientMessage host.order clientID msg).length : Checked Exn (List Byte)) = .ok (msg ++ strays) := by
  have size : (sendClientMessage host.order clientID msg).length = msg.length + 10 := by
    simp only [sendClientMessage, List.length_append, opcodeBytes_length, toBytes_length]
    omega
  have behind : (sendClientMessage host.order clientID msg).drop 10 = msg := by
    rw [sendClientMessage, ← List.append_assoc]
    exact List.drop_left' (by simp)
  obtain ⟨strays, stray⟩ : ∃ strays, (readBytes (physicalView ambient buffer).buffer (10 + msg.length) 10 :
      Checked Exn (List Byte)) = .ok strays := ⟨_, readBytes_total _ (10 + msg.length) 10⟩
  obtain ⟨ten, straying⟩ := (readBytes_eq_ok_iff _ _ _ _).mp stray
  refine ⟨strays, ten, (readBytes_eq_ok_iff _ _ _ _).mpr ⟨by simp [size, ten], fun position inside => ?_⟩⟩
  by_cases own : position < msg.length
  · rw [delivers (10 + position) (by omega), List.getElem?_append_left own, ← List.getElem?_drop, behind]
  · obtain ⟨beyond, rfl⟩ := Nat.exists_eq_add_of_le (not_lt.mp own)
    rw [List.getElem?_append_right (by omega), Nat.add_sub_cancel_left, ← Nat.add_assoc]
    exact straying beyond (by omega)

/-- Every request is understood as the query it conveys, whatever lies in memory around its packet. -/
theorem understood_of_packet {request : Request} {packet : List Byte} (built : request.packet host.order sha256 = some packet)
    (delivers : Delivers (physicalView ambient buffer) packet) :
    ∃ query, understood host (physicalView ambient buffer) packet = .ok query ∧ Conveys sha256 request query := by
  have long := not_lt.mpr (length_packet built).1
  cases request with
  | addition numbers =>
    rw [Request.packet, sendAdditionRequest_eq] at built
    split at built
    · cases built
    · next accepted =>
      obtain rfl := Option.some.inj built
      push Not at accepted
      have is : opcodeOf (additionPacket host.order numbers) = some .cmsgAdditionRequest := opcodeOf_append _ _
      have large := additionPacket_length host.order numbers
      have looped := addLoop_numbers delivers numbers (.start 2) ((additionPacket host.order numbers).length - 2)
        (by simp only [AddState.start]; omega) (List.drop_left' (opcodeBytes_length _)) le_rfl
      refine ⟨.add numbers, ?_, .addition numbers⟩
      rw [understood, if_neg long]
      simp only [is]
      rw [if_pos (by omega), looped]
      rfl
  | clientMessage clientID msg =>
    obtain rfl := Option.some.inj built
    have is : opcodeOf (sendClientMessage host.order clientID msg) = some .cmsgSendMsgToClient := opcodeOf_append _ _
    have large : 2 + 8 ≤ (sendClientMessage host.order clientID msg).length := by simp [sendClientMessage]; omega
    obtain ⟨strays, ten, copied⟩ := message_copied delivers
    refine ⟨.tell clientID (msg ++ strays), ?_, .clientMessage clientID msg strays ten⟩
    simp only [understood, if_neg long, is, if_pos large, copied, bind_ok, requestedID_sendClientMessage]
  | joinRoom roomID password =>
    obtain rfl := Option.some.inj built
    have is : opcodeOf (sendJoinRoomRequest sha256 roomID password) = some .cmsgJoinRoom := opcodeOf_append _ _
    have size : 2 + 1 + digestLength = (sendJoinRoomRequest sha256 roomID password).length := by
      rw [sendJoinRoomRequest, List.length_append, List.length_cons, (sha256 password).toList_length, opcodeBytes_length,
        Nat.add_assoc, Nat.add_comm 1]
    refine ⟨_, ?_, .joinRoom roomID password⟩
    simp only [understood, if_neg long, is, if_pos size]
    simp [sendJoinRoomRequest, List.drop_append]
  | _ =>
    obtain rfl := Option.some.inj built
    refine ⟨_, ?_, by constructor⟩
    simp only [understood, if_neg long]
    simp [sendEchoRequest, sendBroadcast, sendChatSay, sendSSLOpcodeToServer]

end Requests

def shown : Answer → Shown
  | .motd => .motd helloMsg
  | .echo payload => .echo payload
  | .sum value => .result value
  | .broadcast payload => .broadcast payload
  | .clients entries => .clientList (text "[valid client list]\n") entries
  | .tooManyClients => .clientList (text "[too much clients]\n") []
  | .told error => .privateMsgErr (privateMsgErrText error.code)
  | .privateMessage sender message => .privateMessage sender message
  | .pong => .ping
  | .uptime seconds => .uptime (uptimeText seconds)
  | .counter value => .counter value
  | .message content => .message (cString content)
  | .joined roomID => .roomJoined roomID
  | .notJoined error => .roomNotJoined error.code (joinChatRoomErrText error.code)
  | .sayOk => .sayOk
  | .sayErr error => .sayErr error.code (sayErrText error.code)
  | .say payload => .say payload
  | .invalid => .unknownOpcode 0x496E

section Replies
variable {order : ByteOrder} {memory : List Byte → Mem} (holds : Holds memory)
include holds

omit holds in
theorem processReply_append (opcode : Opcode) (payload : List Byte) :
    processReplyFromServerIfAny order memory (opcodeBytes opcode ++ payload) =
      switchReply order (memory payload) payload opcode.code := by
  have value : ofBytes .big (opcodeBytes opcode) = opcode.code := ofBytes_toBytes .big 2 opcode.code opcode.code_lt
  rw [processReplyFromServerIfAny, if_pos (by simp), List.drop_left' (opcodeBytes_length _),
    List.take_left' (opcodeBytes_length _), value]

theorem readWord_toBytes (value : BitVec 64) :
    readWord order (memory (toBytes order 8 value.toNat)) = .ok value := by
  have size : (toBytes order 8 value.toNat).length = 8 := toBytes_length order 8 _
  rw [readWord_inside (holds _) order size.ge, List.take_of_length_le size.le, ofNat_ofBytes_toBytes order 8 value (by decide)]

theorem readByte_single (error : Byte) : (readByte (memory [error]) 0 : Checked Exn Byte) = .ok error :=
  readFirst_inside (holds [error]) le_rfl

theorem readClientList_entries {entries : List (BitVec 64 × List Byte)}
    (short : ∀ entry ∈ entries, entry.2.length < 256 ^ 2) {payload : List Byte}
    (is : payload = ChatErr.ok.code :: entries.flatMap entryBytes) :
    readClientList (memory payload) payload.length = .ok (ChatErr.ok.code, entries) := by
  subst is
  obtain ⟨list, decoded, same⟩ := exists_entries entries short
  have taken : Taken (entries.flatMap entryBytes) list := by
    refine ⟨[], by rw [same, List.append_nil], ?_⟩
    rw [complete_iff]
    simp
  rw [readClientList_of_taken (holds _) taken, decoded]

/-- What the client reads whole it shows as what the service answered. -/
theorem processReply_answer (answer : Answer) (fits : (answer.bytes order).length ≤ bufferSize) :
    processReplyFromServerIfAny order memory (answer.bytes order) = .ok (shown answer) := by
  cases answer with
  | sum value =>
    have size : ¬(toBytes order 8 value.toNat).length < 8 := by simp
    rw [Answer.bytes, processReply_append]
    simp only [switchReply, Opcode.ofCode_code, if_neg size, readWord_toBytes holds, bind_ok, shown]
  | counter value =>
    rw [Answer.bytes, processReply_append]
    simp only [switchReply, Opcode.ofCode_code, readWord_toBytes holds, bind_ok, shown]
  | clients entries =>
    have size : encodedSize entries ≤ 4096 := by
      rw [← length_flatMap_entryBytes]
      simp only [Answer.bytes, List.length_append, opcodeBytes_length, List.length_cons, bufferSize] at fits
      omega
    have listed := readClientList_entries holds (name_short size) rfl
    rw [Answer.bytes, processReply_append]
    simp only [switchReply, Opcode.ofCode_code, listed, bind_ok]
    rfl
  | tooManyClients =>
    have listed : readClientList (memory [ChatErr.tooMuchClients.code]) 1 = .ok (ChatErr.tooMuchClients.code, []) := by
      rw [readClientList, readByte_single holds]
      rfl
    rw [Answer.bytes, processReply_append]
    simp only [switchReply, Opcode.ofCode_code, List.length_singleton, listed, bind_ok]
    rfl
  | privateMessage sender message =>
    have small : 8 + message.length < 2 ^ 63 := by
      simp only [Answer.bytes, List.length_append, opcodeBytes_length, toBytes_length, bufferSize] at fits
      omega
    exact processReply_privateMessage order holds sender message small
  | told error | joined roomID | notJoined error | sayErr error =>
    rw [Answer.bytes, processReply_append]
    simp only [switchReply, Opcode.ofCode_code, readByte_single holds, bind_ok, shown]
  | motd =>
    exact processReply_append .smsgMotd helloMsg
  | pong | sayOk =>
    rw [Answer.bytes, ← List.append_nil (opcodeBytes _), processReply_append]
    simp only [switchReply, Opcode.ofCode_code, shown]
  | invalid => rfl
  | _ =>
    rw [Answer.bytes, processReply_append]
    simp only [switchReply, Opcode.ofCode_code, shown]

end Replies

end Communo.Conversations
