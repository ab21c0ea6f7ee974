import Communo.Client
import Communo.Dispatch

/-! Addition requests: how the decoding loop walks over a packet, and that it
recovers what the client encoded. -/

namespace Communo.Addition
open Lib.ByteCodec Lib.CheckedMemory Protocol NumParser Session Handlers Client Dispatch

/-- The bytes are complete items followed by `tail`. -/
inductive Walk (tail : List Byte) : List Byte → Prop where
  | done : Walk tail tail
  | item (tag : Byte) (item rest : List Byte) (sized : (NumberType.ofByte tag).size = some item.length)
      (walk : Walk tail rest) : Walk tail (tag :: (item ++ rest))

def Complete (body : List Byte) : Prop := Walk [] body

/-- After complete items there is a known tag with too few bytes behind it. -/
def Truncated (body : List Byte) : Prop :=
  ∃ tag rest count, (NumberType.ofByte tag).size = some count ∧ rest.length < count ∧ Walk (tag :: rest) body

def UnknownTag (body : List Byte) : Prop :=
  ∃ tag rest, (NumberType.ofByte tag).size = none ∧ Walk (tag :: rest) body

theorem walk_cases (body : List Byte) : Complete body ∨ Truncated body ∨ UnknownTag body := by
  induction measured : body.length using Nat.strong_induction_on generalizing body with
  | _ bound ih =>
    cases body with
    | nil => exact Or.inl .done
    | cons tag rest =>
      cases sized : (NumberType.ofByte tag).size with
      | none => exact Or.inr (Or.inr ⟨tag, rest, sized, .done⟩)
      | some count =>
        by_cases short : rest.length < count
        · exact Or.inr (Or.inl ⟨tag, rest, count, sized, short, .done⟩)
        · have split : rest = rest.take count ++ rest.drop count := (List.take_append_drop count rest).symm
          have itemSized : (NumberType.ofByte tag).size = some (rest.take count).length := by
            rw [sized, List.length_take, Nat.min_eq_left (by omega)]
          have shorter : (rest.drop count).length < bound := by
            simp only [List.length_cons] at measured
            simp only [List.length_drop]
            omega
          rw [split]
          rcases ih _ shorter (rest.drop count) rfl with complete | truncated | unknown
          · exact Or.inl (.item tag _ _ itemSized complete)
          · obtain ⟨last, after, missing, known, few, walk⟩ := truncated
            exact Or.inr (Or.inl ⟨last, after, missing, known, few, .item tag _ _ itemSized walk⟩)
          · obtain ⟨last, after, nameless, walk⟩ := unknown
            exact Or.inr (Or.inr ⟨last, after, nameless, .item tag _ _ itemSized walk⟩)

theorem addLoop_end {host : Host} {mem : Mem} {payloadSize rounds : Nat} {state : AddState}
    (past : payloadSize ≤ state.offset) : addLoop host mem payloadSize rounds state = .ok state := by
  cases rounds with
  | zero => rfl
  | succ rounds => simp only [addLoop, if_neg (by omega : ¬state.offset < payloadSize)]

section Loop
variable {mem : Mem} {packet : List Byte}
  (agree : ∀ address < packet.length, mem address = packet[address]?)
include agree

theorem addLoop_round {host : Host} {state : AddState} {tag : Byte} {rest : List Byte} {number : Number} {next : Nat}
    (at_ : packet.drop state.offset = tag :: rest)
    (read : readNumber host.order mem (state.offset + 1) (NumberType.ofByte tag) = .ok (number, next))
    (rounds : Nat) :
    addLoop host mem packet.length (rounds + 1) state = addLoop host mem packet.length rounds
      { offset := next, numbers := state.numbers ++ [number],
        sum := host.addDouble state.sum (host.toDouble number) } := by
  obtain ⟨byte, inside, -⟩ := readByte_of_drop Exn agree at_
  simp only [addLoop, if_pos inside, byte, bind_ok, read]

theorem addLoop_walk (host : Host) {tail body : List Byte} (walk : Walk tail body) (state : AddState) (rounds : Nat)
    (at_ : packet.drop state.offset = body) (enough : body.length ≤ rounds) :
    ∃ (later : AddState) (left : Nat), packet.drop later.offset = tail ∧ tail.length ≤ left ∧
      addLoop host mem packet.length rounds state = addLoop host mem packet.length left later := by
  induction walk generalizing state rounds with
  | done => exact ⟨state, rounds, at_, enough, rfl⟩
  | item tag item rest sized _ ih =>
    obtain ⟨-, -, behind⟩ := readByte_of_drop Exn agree at_
    obtain ⟨bytes, after⟩ := readBytes_of_drop Exn agree behind
    obtain ⟨make, shape⟩ := readNumber_of_size sized host.order
    simp only [List.length_cons, List.length_append] at enough
    obtain ⟨rounds, rfl⟩ : ∃ fewer, rounds = fewer + 1 := ⟨rounds - 1, by omega⟩
    rw [addLoop_round agree at_ (by rw [shape, bytes, bind_ok]) rounds]
    exact ih _ rounds after (by omega)

theorem addLoop_complete (host : Host) (state : AddState) {rounds : Nat} (complete : Complete (packet.drop state.offset))
    (enough : packet.length - state.offset ≤ rounds) :
    ∃ later, addLoop host mem packet.length rounds state = .ok later := by
  obtain ⟨later, left, at_, -, same⟩ := addLoop_walk agree host complete state rounds rfl (by simpa using enough)
  exact ⟨later, by rw [same, addLoop_end (by simpa using at_)]⟩

theorem addLoop_unknownTag (host : Host) (state : AddState) {rounds : Nat} (unknown : UnknownTag (packet.drop state.offset))
    (enough : packet.length - state.offset ≤ rounds) :
    addLoop host mem packet.length rounds state =
      .error (.thrown (.runtimeError "Unknown number type")) := by
  obtain ⟨tag, rest, nameless, walk⟩ := unknown
  obtain ⟨later, left, at_, left_, same⟩ := addLoop_walk agree host walk state rounds rfl (by simpa using enough)
  obtain ⟨byte, inside, -⟩ := readByte_of_drop Exn agree at_
  simp only [List.length_cons] at left_
  obtain ⟨left, rfl⟩ : ∃ fewer, left = fewer + 1 := ⟨left - 1, by omega⟩
  rw [same]
  simp only [addLoop, if_pos inside, byte, bind_ok, readNumber_unk_of_size nameless]
  rfl

/-- On a truncated body the loop asks for a byte behind the packet. -/
theorem addLoop_truncated (host : Host) (state : AddState) {rounds : Nat} (truncated : Truncated (packet.drop state.offset))
    (enough : packet.length - state.offset ≤ rounds) (nothing : mem packet.length = none) :
    addLoop host mem packet.length rounds state = .error .stray := by
  obtain ⟨tag, rest, count, sized, short, walk⟩ := truncated
  obtain ⟨later, left, at_, left_, same⟩ := addLoop_walk agree host walk state rounds rfl (by simpa using enough)
  obtain ⟨byte, inside, behind⟩ := readByte_of_drop Exn agree at_
  obtain ⟨make, shape⟩ := readNumber_of_size sized host.order
  simp only [List.length_cons] at left_
  obtain ⟨left, rfl⟩ : ∃ fewer, left = fewer + 1 := ⟨left - 1, by omega⟩
  have remaining := congrArg List.length behind
  simp only [List.length_drop] at remaining
  have missing : mem (later.offset + 1 + rest.length) = none := by
    rw [show later.offset + 1 + rest.length = packet.length by omega]
    exact nothing
  rw [same]
  simp only [addLoop, if_pos inside, byte, bind_ok, shape, readBytes_stray rest.length short missing]
  rfl

end Loop

theorem addLoop_truncated_total {contents : Nat → Byte} {packet : List Byte}
    (agree : ∀ address < packet.length, (fun address => some (contents address) : Mem) address = packet[address]?)
    (host : Host) (state : AddState) {rounds : Nat} (truncated : Truncated (packet.drop state.offset))
    (enough : packet.length - state.offset ≤ rounds) :
    ∃ later, addLoop host (fun address => some (contents address)) packet.length rounds state = .ok later := by
  obtain ⟨tag, rest, count, sized, short, walk⟩ := truncated
  obtain ⟨later, left, at_, left_, same⟩ := addLoop_walk agree host walk state rounds rfl (by simpa using enough)
  obtain ⟨-, inside, behind⟩ := readByte_of_drop Exn agree at_
  obtain ⟨make, shape⟩ := readNumber_of_size sized host.order
  simp only [List.length_cons] at left_
  obtain ⟨left, rfl⟩ : ∃ fewer, left = fewer + 1 := ⟨left - 1, by omega⟩
  have remaining := congrArg List.length behind
  simp only [List.length_drop] at remaining
  rw [same, addLoop_round agree at_ (by rw [shape, readBytes_total, bind_ok]) left]
  exact ⟨_, addLoop_end (by simp only; omega)⟩

def additionPacket (order : ByteOrder) (numbers : List Number) : List Byte :=
  opcodeBytes .cmsgAdditionRequest ++ numbers.flatMap (numberItem order)

theorem sendAdditionRequest_eq (order : ByteOrder) (numbers : List Number) :
    sendAdditionRequest order numbers =
      if numbers.length < 2 ∨ 4096 < (additionPacket order numbers).length then none
      else some (additionPacket order numbers) := by
  have built (packet : List Byte) : numbers.foldl
      (fun packet number => appendNumber order (packet ++ [(getNumberType number).code]) number) packet =
      packet ++ numbers.flatMap (numberItem order) := by
    induction numbers generalizing packet with
    | nil => simp
    | cons number numbers ih =>
      rw [List.foldl_cons, ih, List.flatMap_cons, appendNumber]
      simp [numberItem]
  unfold sendAdditionRequest
  rw [built]
  by_cases few : numbers.length < 2
  · simp [few]
  · simp [few, additionPacket]

theorem numberItem_length (order : ByteOrder) (number : Number) : 2 ≤ (numberItem order number).length := by
  cases number <;> simp [numberItem, Number.bytes]

theorem additionPacket_length (order : ByteOrder) (numbers : List Number) :
    2 + 2 * numbers.length ≤ (additionPacket order numbers).length := by
  unfold additionPacket
  induction numbers with
  | nil => simp
  | cons number numbers ih =>
    have item := numberItem_length order number
    simp only [List.length_append, opcodeBytes_length, List.flatMap_cons, List.length_cons] at ih ⊢
    omega

theorem addLoop_numbers {host : Host} {mem : Mem} {packet : List Byte}
    (agree : ∀ address < packet.length, mem address = packet[address]?) (numbers : List Number)
    (state : AddState) (rounds : Nat) (within : state.offset ≤ packet.length)
    (at_ : packet.drop state.offset = numbers.flatMap (numberItem host.order))
    (enough : packet.length - state.offset ≤ rounds) :
    addLoop host mem packet.length rounds state =
      .ok { offset := packet.length, numbers := state.numbers ++ numbers,
            sum := numbers.foldl (fun sum number => host.addDouble sum (host.toDouble number)) state.sum } := by
  induction numbers generalizing state rounds with
  | nil =>
    have past : packet.length = state.offset := by
      have size := congrArg List.length at_
      simp only [List.length_drop, List.flatMap_nil, List.length_nil] at size
      omega
    rw [addLoop_end past.le, past]
    simp
  | cons number numbers ih =>
    rw [List.flatMap_cons, numberItem, List.cons_append] at at_
    obtain ⟨-, inside, behind⟩ := readByte_of_drop Exn agree at_
    obtain ⟨bytes, after⟩ := readBytes_of_drop Exn agree behind
    have read := readNumber_bytes host.order mem (state.offset + 1) number bytes
    rw [← ofByte_code (getNumberType number)] at read
    obtain ⟨rounds, rfl⟩ : ∃ fewer, rounds = fewer + 1 := ⟨rounds - 1, by omega⟩
    have size := congrArg List.length behind
    simp only [List.length_drop, List.length_append] at size
    rw [addLoop_round agree at_ read rounds, ih _ rounds (by simp only; omega) after (by simp only; omega)]
    simp

/-- Client and server agree on tag, width and alternative of every number, for any
mixed list and whatever lies behind the packet. -/
theorem addition_request_decodes (host : Host) (numbers : List Number) (two : 2 ≤ numbers.length)
    (fits : (additionPacket host.order numbers).length ≤ 4096) :
    sendAdditionRequest host.order numbers = some (additionPacket host.order numbers) ∧
    2 + 1 * 2 + 1 * 2 ≤ (additionPacket host.order numbers).length ∧
    ∀ view : View, Delivers view (additionPacket host.order numbers) →
      let sum := numbers.foldl (fun sum number => host.addDouble sum (host.toDouble number)) 0
      let payloadSize := (additionPacket host.order numbers).length
      addLoop host view.buffer payloadSize (payloadSize - 2) (.start 2) =
        .ok { offset := payloadSize, numbers := numbers, sum := sum } ∧
      ∀ (server : Server) (client : Fin server.clientSockets.length),
        callHandler host view server client payloadSize =
          .ok (server, sendSSLPacketToClientSocket view (server.clientSockets.get client)
            (opcodeBytes .smsgAdditionRequest ++ toBytes host.order 8 sum.toNat)) := by
  have long := additionPacket_length host.order numbers
  have accepted : 2 + 1 * 2 + 1 * 2 ≤ (additionPacket host.order numbers).length := by omega
  refine ⟨by rw [sendAdditionRequest_eq, if_neg (by omega)], accepted, fun view delivers => ?_⟩
  have at_ : (additionPacket host.order numbers).drop 2 = numbers.flatMap (numberItem host.order) :=
    List.drop_left' (opcodeBytes_length _)
  have loop := addLoop_numbers delivers numbers (.start 2) ((additionPacket host.order numbers).length - 2)
    (by simp only [AddState.start]; omega) at_ le_rfl
  simp only [AddState.start, List.nil_append] at loop
  refine ⟨loop, fun server client => ?_⟩
  rw [callHandler_delivered delivers (by omega), additionPacket, opcodeOf_append, ← additionPacket]
  simp only [switchOpcode, if_pos accepted, callHandlerAdd, AddState.start, loop, bind_ok]

/-- A negative byte and the double 2.0 arrive and add up to 1.0. -/
theorem addition_request_decodes_mixed :
    (callHandler exampleHost (exampleView (holding [0, 2, 0, 255, 9, 0, 0, 0, 0, 0, 0, 0, 64])) exampleServer
      ⟨0, by decide⟩ 13).map Prod.snd =
      .ok [.sslWrite (some 0) [0x10, 0x02, 0, 0, 0, 0, 0, 0, 0xF0, 0x3F]] := by
  have decoded := ((addition_request_decodes exampleHost [.int8 255, .double 0x4000000000000000] (by decide)
    (by decide)).2.2 (exampleView (holding [0, 2, 0, 255, 9, 0, 0, 0, 0, 0, 0, 0, 64]))
    (by unfold Delivers; decide)).2 exampleServer ⟨0, by decide⟩
  exact (congrArg (Except.map Prod.snd) decoded).trans (by decide)

end Communo.Addition
