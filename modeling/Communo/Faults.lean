import Communo.Addition

/-! The two places where a dispatch can fail: the decoding loop of an addition
request and the copy of a private message. Everything else returns. -/

namespace Communo.Faults
open Lib.ByteCodec Lib.CheckedMemory Protocol NumParser Chat Session Handlers MainLoop Dispatch Addition

def requestedID (host : Host) (packet : List Byte) : BitVec 64 :=
  BitVec.ofNat 64 (ofBytes host.order ((packet.drop 2).take 8))

theorem recipientError_eq_ok_iff (server : Server) (client : ClientSocket) (clientID : BitVec 64) :
    recipientError server client clientID = .ok ↔
      clientID ≠ client.clientID ∧ ∃ other ∈ server.clientSockets, other.clientID = clientID := by
  unfold recipientError findRecipient
  by_cases own : clientID = client.clientID
  · simp [own]
  · cases found : server.clientSockets.find? (fun candidate => candidate.clientID = clientID) with
    | none => simpa [own, found] using List.find?_eq_none.mp found
    | some other =>
      have present := List.mem_of_find?_eq_some found
      have named := List.find?_some found
      simp only [decide_eq_true_eq] at named
      simpa [own, found] using ⟨other, present, named⟩

theorem joinVerdict_total {behindHash : Byte → Mem} (readable : ∀ roomID address, (behindHash roomID address).isSome)
    (chatRooms : ChatRooms) (roomID : Byte) (hash : List Byte) :
    ∃ verdict, joinVerdict behindHash chatRooms roomID hash = .ok verdict := by
  simp only [joinVerdict]
  by_cases locked : (isRoomProtected chatRooms roomID).1
  · obtain ⟨roomHash, read⟩ : ∃ roomHash, (readBytes (hashMemory
        (index (isRoomProtected chatRooms roomID).2 roomID).1.passwordHash (behindHash roomID)) 0 digestLength :
        Checked Exn (List Byte)) = .ok roomHash := by
      apply readBytes_of_isSome
      intro i _
      simp only [hashMemory, Nat.zero_add]
      split
      · rw [List.getElem?_eq_getElem (by simp; omega)]
        rfl
      · exact readable roomID i
    simp only [if_pos locked, checkPasswordHash, read, bind_ok]
    exact ⟨_, rfl⟩
  · exact ⟨_, if_neg locked⟩

theorem callHandlerGetRoominfo_total (view : View) (server : Server) (client : ClientSocket) :
    ∃ calls, callHandlerGetRoominfo view server client = .ok calls := by
  unfold callHandlerGetRoominfo checkRoomID getRoomName
  split
  · exact ⟨_, rfl⟩
  · cases server.chatRooms.lookup client.joinedChatRoomID with
    | none => exact ⟨_, rfl⟩
    | some room => exact ⟨_, rfl⟩

section Failing
variable {host : Host} {view : View} {server : Server} {client : Fin server.clientSockets.length}
  {packet : List Byte} (delivers : Delivers view packet)
include delivers

theorem callHandlerMsgToClient_eq_error_iff (long : 10 ≤ packet.length) {fault : Fault Exn} :
    callHandlerMsgToClient host view server (server.clientSockets.get client) 2 packet.length = .error fault ↔
      recipientError server (server.clientSockets.get client) (requestedID host packet) = .ok ∧
        readBytes view.buffer 10 packet.length = .error fault := by
  unfold callHandlerMsgToClient
  rw [readBytes_slice delivers (by omega), bind_ok]
  have named : BitVec.ofNat 64 (ofBytes host.order ((packet.drop 2).take 8)) = requestedID host packet := rfl
  by_cases found : recipientError server (server.clientSockets.get client) (requestedID host packet) = .ok
  · simp only [named, found, if_true, bind_eq_error, true_and, reduceCtorEq, and_false, exists_false, or_false]
  · simp only [named, found, if_false, bind_eq_error, false_and, reduceCtorEq, and_false, exists_false, or_false]

theorem callHandlerJoinRoom_total (readable : ∀ roomID address, (view.behindHash roomID address).isSome)
    (size : packet.length = 35) : ∃ handled, callHandlerJoinRoom view server client 2 = .ok handled := by
  unfold callHandlerJoinRoom
  rw [readByte_delivered delivers (by omega : 2 < packet.length), bind_ok,
    readBytes_slice delivers (by simp only [digestLength]; omega), bind_ok]
  obtain ⟨verdict, decided⟩ := joinVerdict_total readable server.chatRooms (packet.get ⟨2, by omega⟩)
    ((packet.drop (2 + 1)).take digestLength)
  rw [decided, bind_ok]
  by_cases accepted : verdict.1 = .ok
  · exact ⟨_, if_pos accepted⟩
  · exact ⟨_, if_neg accepted⟩

/-- A dispatch fails exactly when one of its two unchecked reads does. -/
theorem callHandler_eq_error_iff (long : 2 ≤ packet.length)
    (readable : ∀ roomID address, (view.behindHash roomID address).isSome) {fault : Fault Exn} :
    callHandler host view server client packet.length = .error fault ↔
      (opcodeOf packet = some .cmsgAdditionRequest ∧ 6 ≤ packet.length ∧
        addLoop host view.buffer packet.length (packet.length - 2) (.start 2) = .error fault) ∨
      (opcodeOf packet = some .cmsgSendMsgToClient ∧ 10 ≤ packet.length ∧
        recipientError server (server.clientSockets.get client) (requestedID host packet) = .ok ∧
        readBytes view.buffer 10 packet.length = .error fault) := by
  rw [callHandler_delivered delivers long]
  rcases opcodeOf packet with _ | opcode
  · simp [switchOpcode]
  · cases opcode <;> simp only [switchOpcode, readBytes_payload delivers long, bind_ok, reduceCtorEq,
      Option.some.injEq, false_and, or_self, true_and, false_or, or_false]
    case cmsgAdditionRequest =>
      by_cases large : 6 ≤ packet.length
      · simp [large, callHandlerAdd, bind_eq_error]
      · simp [large]
    case cmsgSendMsgToClient =>
      by_cases large : 10 ≤ packet.length
      · simp only [large, Nat.reduceAdd, if_true, true_and, bind_eq_error, reduceCtorEq, and_false, exists_false,
          or_false]
        exact callHandlerMsgToClient_eq_error_iff delivers large
      · simp [large]
    case cmsgGetRoomInfo =>
      obtain ⟨calls, described⟩ := callHandlerGetRoominfo_total view server (server.clientSockets.get client)
      rw [described, bind_ok]
      simp
    case cmsgJoinRoom =>
      split
      · next size =>
        obtain ⟨handled, joined⟩ := callHandlerJoinRoom_total delivers readable size.symm
        rw [joined]
        simp
      · simp

end Failing

end Communo.Faults
