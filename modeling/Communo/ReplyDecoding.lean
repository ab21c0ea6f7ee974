import Communo.ListDecoding
import Communo.Writes

/-! The client's dispatch of replies against what the server writes. Each case
of the dispatch reads a fixed number of bytes off the payload, and most of them
do not ask whether the payload has that many. -/

namespace Communo.ReplyDecoding
open Lib.ByteCodec Lib.CheckedMemory Lib.Runs Protocol NumParser Session Handlers MainLoop Client ListDecoding Dispatch
  Transitions Survival Writes

/-- How many payload bytes the client's case for an opcode reads; `none` where the opcode has no case of its own. -/
def payloadNeeded : Opcode → Option Nat
  | .smsgAdditionRequest | .smsgCounter | .smsgPrivateMessage => some 8
  | .smsgClientList | .smsgPrivateMsgErr | .smsgJoinChatRoomOk | .smsgJoinChatRoomErr | .smsgSayErr => some 1
  | .smsgEchoRequest | .smsgMessage | .smsgMotd | .smsgBroadcast | .smsgPong | .smsgUptime | .smsgSayOk
  | .smsgSay => some 0
  | _ => none

def Holds (memory : List Byte → Mem) : Prop :=
  ∀ payload : List Byte, ∀ address < payload.length, memory payload address = payload[address]?

theorem holds_holding : Holds holding := fun _ _ _ => rfl

section Fields
variable {mem : Mem} {payload : List Byte} (agree : ∀ address < payload.length, mem address = payload[address]?)
include agree

theorem readClientList_inside (nonempty : payload ≠ []) :
    ∃ list, readClientList mem payload.length = .ok list ∧
      readClientList (holding payload) payload.length = .ok list := by
  obtain ⟨error, bytes, rfl⟩ := List.exists_cons_of_ne_nil nonempty
  have first := (readByte_of_drop Exn agree List.drop_zero).1
  by_cases accepted : error = ChatErr.ok.code
  · subst accepted
    obtain ⟨entries, taken⟩ := exists_taken bytes
    exact ⟨_, readClientList_of_taken agree taken, readClientList_of_taken (fun _ _ => rfl) taken⟩
  · refine ⟨(error, []), ?_, ?_⟩
    · rw [readClientList, first, bind_ok, if_neg accepted]
    · exact if_neg accepted

theorem readWord_inside (order : ByteOrder) (fits : 8 ≤ payload.length) :
    readWord order mem = .ok (BitVec.ofNat 64 (ofBytes order (payload.take 8))) := by
  rw [readWord, readBytes_slice agree (by omega), bind_ok, List.drop_zero]

theorem readFirst_inside (fits : 1 ≤ payload.length) :
    (readByte mem 0 : Checked Exn Byte) = .ok (payload.get ⟨0, fits⟩) := by
  simp only [readByte, agree 0 fits, List.getElem?_eq_getElem fits, List.get_eq_getElem]

theorem constructString_inside (fits : 8 ≤ payload.length) (small : payload.length < 2 ^ 63) :
    constructString mem 8 (BitVec.ofNat 64 payload.length - 8) = .ok (payload.drop 8) := by
  have count : (BitVec.ofNat 64 payload.length - 8).toNat = payload.length - 8 := by
    rw [BitVec.toNat_sub_of_le (by rw [BitVec.le_def, BitVec.toNat_ofNat]; simp; omega), BitVec.toNat_ofNat,
      Nat.mod_eq_of_lt (by omega)]
    rfl
  rw [constructString, count, if_neg (by omega), readBytes_slice agree (by omega), List.take_of_length_le (by simp)]

end Fields

theorem readWord_short {payload : List Byte} (order : ByteOrder) (short : payload.length < 8) :
    readWord order (holding payload) = .error .stray := by
  have missing : holding payload (0 + payload.length) = none := by simp [holding]
  rw [readWord, readBytes_stray payload.length short missing]
  rfl

/-- The case of an opcode goes well when the payload has the bytes it reads. -/
theorem switchReply_of_fits (order : ByteOrder) {payload : List Byte} {code : Nat} {opcode : Opcode} {needed : Nat}
    (labelled : Opcode.ofCode code = some opcode) (reads : payloadNeeded opcode = some needed)
    (fits : needed ≤ payload.length) (small : payload.length < 2 ^ 63) :
    ∃ shown, ∀ mem : Mem, (∀ address < payload.length, mem address = payload[address]?) →
      switchReply order mem payload code = .ok shown := by
  cases opcode <;> simp only [payloadNeeded, reduceCtorEq, Option.some.injEq] at reads <;> subst reads
  case smsgAdditionRequest =>
    refine ⟨.result (BitVec.ofNat 64 (ofBytes order (payload.take 8))), fun mem agree => ?_⟩
    simp only [switchReply, labelled, if_neg (not_lt.mpr fits), readWord_inside agree order fits, bind_ok]
  case smsgCounter =>
    refine ⟨.counter (BitVec.ofNat 64 (ofBytes order (payload.take 8))), fun mem agree => ?_⟩
    simp only [switchReply, labelled, readWord_inside agree order fits, bind_ok]
  case smsgPrivateMessage =>
    refine ⟨.privateMessage (BitVec.ofNat 64 (ofBytes order (payload.take 8))) (payload.drop 8), fun mem agree => ?_⟩
    simp only [switchReply, labelled, readWord_inside agree order fits, constructString_inside agree fits small, bind_ok]
  case smsgClientList =>
    have nonempty := List.ne_nil_of_length_pos fits
    obtain ⟨list, decoded, -⟩ := readClientList_inside (holds_holding payload) nonempty
    refine ⟨.clientList (clientListText list.1) list.2, fun mem agree => ?_⟩
    obtain ⟨same, there, here⟩ := readClientList_inside agree nonempty
    cases Except.ok.inj (here.symm.trans decoded)
    simp only [switchReply, labelled, there, bind_ok]
  case smsgPrivateMsgErr =>
    refine ⟨.privateMsgErr (privateMsgErrText (payload.get ⟨0, fits⟩)), fun mem agree => ?_⟩
    simp only [switchReply, labelled, readFirst_inside agree fits, bind_ok]
  case smsgJoinChatRoomOk =>
    refine ⟨.roomJoined (payload.get ⟨0, fits⟩), fun mem agree => ?_⟩
    simp only [switchReply, labelled, readFirst_inside agree fits, bind_ok]
  case smsgJoinChatRoomErr =>
    refine ⟨.roomNotJoined (payload.get ⟨0, fits⟩) (joinChatRoomErrText (payload.get ⟨0, fits⟩)), fun mem agree => ?_⟩
    simp only [switchReply, labelled, readFirst_inside agree fits, bind_ok]
  case smsgSayErr =>
    refine ⟨.sayErr (payload.get ⟨0, fits⟩) (sayErrText (payload.get ⟨0, fits⟩)), fun mem agree => ?_⟩
    simp only [switchReply, labelled, readFirst_inside agree fits, bind_ok]
  all_goals
    obtain ⟨shown, alone⟩ : ∃ shown, switchReply order (holding payload) payload code = .ok shown := by
      simp [switchReply, labelled]
    exact ⟨shown, fun mem _ => by simpa only [switchReply, labelled] using alone⟩

/-- A payload that lacks them makes the case throw or read behind the payload. -/
theorem switchReply_of_short (order : ByteOrder) {payload : List Byte} {code : Nat} {opcode : Opcode} {needed : Nat}
    (labelled : Opcode.ofCode code = some opcode) (reads : payloadNeeded opcode = some needed)
    (short : payload.length < needed) (shown : Shown) :
    switchReply order (holding payload) payload code ≠ .ok shown := by
  cases opcode <;> simp only [payloadNeeded, reduceCtorEq, Option.some.injEq] at reads <;> subst reads
  case smsgAdditionRequest => simp [switchReply, labelled, short]
  case smsgCounter => simp [switchReply, labelled, readWord_short order short, Except.bind]
  case smsgPrivateMessage => simp [switchReply, labelled, readWord_short order short, Except.bind]
  all_goals
    first
      | exact absurd short (Nat.not_lt_zero _)
      | obtain rfl := List.length_eq_zero_iff.mp (Nat.lt_one_iff.mp short)
        simp [switchReply, labelled, readClientList, readByte, holding, Except.bind]

theorem switchReply_unlabelled (order : ByteOrder) (mem : Mem) (payload : List Byte) {code : Nat}
    (unlabelled : ∀ opcode, Opcode.ofCode code = some opcode → payloadNeeded opcode = none) :
    switchReply order mem payload code = .ok (.unknownOpcode code) := by
  unfold switchReply
  cases labelled : Opcode.ofCode code with
  | none => rfl
  | some opcode =>
    have none := unlabelled opcode labelled
    cases opcode <;> simp only [payloadNeeded, reduceCtorEq] at none <;> rfl

/-- The dispatch returns within the payload, in a bounded number of rounds, and
shows the same whatever lies behind the payload. -/
structure Survives (order : ByteOrder) (received : List Byte) : Prop where
  returns : ∃ shown, ∀ memory, Holds memory → processReplyFromServerIfAny order memory received = .ok shown
  settles : ∀ (mem : Mem) (rounds : Nat), (received.drop 2).length ≤ rounds →
    clientListLoop mem (received.drop 2).length rounds { offset := 1, entries := [] } =
      clientListLoop mem (received.drop 2).length (received.drop 2).length { offset := 1, entries := [] }

def HasFields (received : List Byte) : Prop :=
  2 ≤ received.length → ∀ opcode needed, opcodeOf received = some opcode → payloadNeeded opcode = some needed →
    needed ≤ (received.drop 2).length

/-- The client gets through a reply exactly when the reply has the fields of its opcode. -/
theorem client_survives_iff (order : ByteOrder) (received : Received) :
    Survives order received.bytes ↔ HasFields received.bytes := by
  have small : (received.bytes.drop 2).length < 2 ^ 63 := by
    have fits := received.fits
    rw [List.length_drop]
    simp only [bufferSize] at fits
    omega
  constructor
  · intro survives long opcode needed labelled reads
    obtain ⟨shown, returns⟩ := survives.returns
    have returned := returns holding holds_holding
    rw [processReplyFromServerIfAny, if_pos long] at returned
    by_contra short
    exact switchReply_of_short order labelled reads (not_le.mp short) shown returned
  · intro fields
    refine ⟨?_, fun mem rounds enough => ?_⟩
    · by_cases long : 2 ≤ received.bytes.length
      · simp only [processReplyFromServerIfAny, if_pos long]
        by_cases own : ∃ opcode needed, opcodeOf received.bytes = some opcode ∧ payloadNeeded opcode = some needed
        · obtain ⟨opcode, needed, labelled, reads⟩ := own
          obtain ⟨shown, decoded⟩ := switchReply_of_fits order labelled reads
            (fields long opcode needed labelled reads) small
          exact ⟨shown, fun memory held => decoded _ (held _)⟩
        · refine ⟨.unknownOpcode (ofBytes .big (received.bytes.take 2)), fun memory _ => ?_⟩
          apply switchReply_unlabelled
          intro opcode labelled
          by_contra some
          obtain ⟨needed, reads⟩ := Option.ne_none_iff_exists'.mp some
          exact own ⟨opcode, needed, labelled, reads⟩
      · exact ⟨.invalidPacket, fun memory _ => if_neg long⟩
    · obtain ⟨more, rfl⟩ := Nat.exists_eq_add_of_le enough
      exact clientListLoop_settled _ _ _ more _ (by simp only; omega)

/-- A private message without a sender's ID, as the first two bytes of a split packet would be. -/
def headerOnly : Received := { bytes := [0x10, 0x06], nonempty := by decide, fits := by decide }

theorem headerOnly_ends_client :
    ¬Survives .little headerOnly.bytes ∧
      processReplyFromServerIfAny .little (fun _ _ => some 0) headerOnly.bytes = .error (.thrown .lengthError) := by
  refine ⟨fun survives => ?_, by decide⟩
  obtain ⟨shown, returns⟩ := survives.returns
  have returned := returns holding holds_holding
  cases returned

end Communo.ReplyDecoding
