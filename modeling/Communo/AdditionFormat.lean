import Communo.Addition
import Communo.Transitions

/-! Which addition requests are answered with a sum. The decoding loop tests
where an item starts but not where it ends. -/

namespace Communo.AdditionFormat
open Lib.ByteCodec Lib.CheckedMemory Protocol NumParser Session Handlers MainLoop Client Dispatch Transitions Addition

section Walks
variable {first second body : List Byte}

/-- Of two walks over the same bytes one goes on where the other stops. -/
theorem walk_linear (one : Walk first body) (other : Walk second body) : Walk first second ∨ Walk second first := by
  induction one with
  | done => exact Or.inr other
  | item tag item rest sized walk ih =>
    generalize same : tag :: (item ++ rest) = whole at other
    cases other with
    | done => exact Or.inl (same ▸ .item tag item rest sized walk)
    | item tag' item' rest' sized' walk' =>
      obtain ⟨rfl, joined⟩ := List.cons.inj same
      have length : item.length = item'.length := Option.some.inj (sized.symm.trans sized')
      obtain ⟨-, rfl⟩ := List.append_inj joined length
      exact ih walk'

theorem eq_nil_of_walk_nil (walk : Walk first []) : first = [] := by
  generalize empty : ([] : List Byte) = whole at walk
  cases walk with
  | done => rfl
  | item tag item rest => exact absurd empty (by simp)

theorem complete_cons {tag : Byte} {rest : List Byte} (complete : Complete body) (walk : Walk (tag :: rest) body) :
    ∃ count, (NumberType.ofByte tag).size = some count ∧ count ≤ rest.length := by
  rcases walk_linear complete walk with onward | backward
  · generalize whole : tag :: rest = bytes at onward
    cases onward with
    | done => exact absurd whole (by simp)
    | item tag' item rest' sized =>
      obtain ⟨rfl, rfl⟩ := List.cons.inj whole
      exact ⟨item.length, sized, by simp⟩
  · exact absurd (eq_nil_of_walk_nil backward) (by simp)

theorem not_complete_of_truncated (truncated : Truncated body) : ¬Complete body := by
  intro complete
  obtain ⟨tag, rest, count, sized, short, walk⟩ := truncated
  obtain ⟨count', sized', enough⟩ := complete_cons complete walk
  obtain rfl := Option.some.inj (sized.symm.trans sized')
  omega

theorem not_complete_of_unknownTag (unknown : UnknownTag body) : ¬Complete body := by
  intro complete
  obtain ⟨tag, rest, nameless, walk⟩ := unknown
  obtain ⟨count, sized, -⟩ := complete_cons complete walk
  exact absurd (nameless.symm.trans sized) (by simp)

end Walks

section Items

theorem code_ofByte {tag : Byte} {count : Nat} (sized : (NumberType.ofByte tag).size = some count) :
    (NumberType.ofByte tag).code = tag := by
  have all : ∀ byte : Byte, (NumberType.ofByte byte).size ≠ none → (NumberType.ofByte byte).code = byte := by decide
  exact all tag (by simp [sized])

theorem exists_numberItem (order : ByteOrder) {tag : Byte} {item : List Byte}
    (sized : (NumberType.ofByte tag).size = some item.length) : ∃ number, numberItem order number = tag :: item := by
  have bytes {count width : Nat} (length : count = item.length) (wide : 256 ^ count ≤ 2 ^ width) :
      toBytes order count (BitVec.ofNat width (ofBytes order item)).toNat = item := by
    subst length
    exact toBytes_ofNat_ofBytes order item wide
  have code := code_ofByte sized
  cases type : NumberType.ofByte tag <;> simp only [type, NumberType.size, Option.some.injEq, reduceCtorEq] at sized code
  case int8 => exact ⟨.int8 (BitVec.ofNat 8 (ofBytes order item)), congrArg₂ List.cons code (bytes sized (by decide))⟩
  case uint8 => exact ⟨.uint8 (BitVec.ofNat 8 (ofBytes order item)), congrArg₂ List.cons code (bytes sized (by decide))⟩
  case int16 => exact ⟨.int16 (BitVec.ofNat 16 (ofBytes order item)), congrArg₂ List.cons code (bytes sized (by decide))⟩
  case uint16 => exact ⟨.uint16 (BitVec.ofNat 16 (ofBytes order item)), congrArg₂ List.cons code (bytes sized (by decide))⟩
  case int32 => exact ⟨.int32 (BitVec.ofNat 32 (ofBytes order item)), congrArg₂ List.cons code (bytes sized (by decide))⟩
  case uint32 => exact ⟨.uint32 (BitVec.ofNat 32 (ofBytes order item)), congrArg₂ List.cons code (bytes sized (by decide))⟩
  case int64 => exact ⟨.int64 (BitVec.ofNat 64 (ofBytes order item)), congrArg₂ List.cons code (bytes sized (by decide))⟩
  case uint64 => exact ⟨.uint64 (BitVec.ofNat 64 (ofBytes order item)), congrArg₂ List.cons code (bytes sized (by decide))⟩
  case float => exact ⟨.float (BitVec.ofNat 32 (ofBytes order item)), congrArg₂ List.cons code (bytes sized (by decide))⟩
  case double => exact ⟨.double (BitVec.ofNat 64 (ofBytes order item)), congrArg₂ List.cons code (bytes sized (by decide))⟩

theorem exists_numbers_of_complete (order : ByteOrder) {body : List Byte} (complete : Complete body) :
    ∃ numbers : List Number, body = numbers.flatMap (numberItem order) := by
  unfold Complete at complete
  induction complete with
  | done => exact ⟨[], rfl⟩
  | item tag item rest sized _ ih =>
    obtain ⟨numbers, rfl⟩ := ih
    obtain ⟨number, encoded⟩ := exists_numberItem order sized
    exact ⟨number :: numbers, by rw [List.flatMap_cons, encoded, List.cons_append]⟩

end Items

section Requests
variable (host : Host) (ambient : Ambient) (buffer : Nat → Byte) (server : Server)
  (client : Fin server.clientSockets.length) (received : Received)

def RepliesSum : Prop :=
  ∃ next calls, callHandler host (physicalView ambient (receive buffer received.bytes)) server client
      received.bytes.length = .ok (next, calls) ∧
    ∃ reply, ((server.clientSockets.get client).ssl, reply) ∈ packetsWritten calls ∧
      opcodeOf reply = some .smsgAdditionRequest

/-- A sum is sent for complete items and for nothing else, and the numbers added up are the ones that were sent. -/
structure AcceptsFormat : Prop where
  replies : RepliesSum host ambient buffer server client received ↔ Complete (received.bytes.drop 2)
  reencodes : RepliesSum host ambient buffer server client received → ∃ state,
    addLoop host (physicalView ambient (receive buffer received.bytes)).buffer received.bytes.length
      (received.bytes.length - 2) (.start 2) = .ok state ∧
    state.numbers.flatMap (numberItem host.order) = received.bytes.drop 2

variable {received} (isAddition : opcodeOf received.bytes = some .cmsgAdditionRequest)
  (large : 6 ≤ received.bytes.length)
include isAddition large

theorem repliesSum_iff :
    RepliesSum host ambient buffer server client received ↔ ∃ state,
      addLoop host (physicalView ambient (receive buffer received.bytes)).buffer received.bytes.length
        (received.bytes.length - 2) (.start 2) = .ok state := by
  have delivers := physicalView_delivers ambient buffer received
  have dispatched : callHandler host (physicalView ambient (receive buffer received.bytes)) server client
      received.bytes.length = (callHandlerAdd host (physicalView ambient (receive buffer received.bytes))
        (server.clientSockets.get client) 2 received.bytes.length).bind fun calls => .ok (server, calls) := by
    rw [callHandler_delivered delivers (by omega), isAddition]
    exact if_pos large
  unfold RepliesSum
  rw [dispatched]
  constructor
  · rintro ⟨next, calls, handled, -⟩
    obtain ⟨calls, added, -⟩ := bind_eq_ok.mp handled
    obtain ⟨state, looped, -⟩ := bind_eq_ok.mp added
    exact ⟨state, looped⟩
  · rintro ⟨state, looped⟩
    simp only [callHandlerAdd, looped, bind_ok]
    refine ⟨server, _, rfl, opcodeBytes .smsgAdditionRequest ++ toBytes host.order 8 state.sum.toNat, ?_, ?_⟩
    · rw [packetsWritten_send]
      exact List.mem_singleton.mpr rfl
    · exact opcodeOf_append _ _

/-- The loop meets the format unless the last item is cut short: then it takes the
missing bytes from behind the packet and answers all the same. -/
theorem accepts_format_iff :
    AcceptsFormat host ambient buffer server client received ↔ ¬Truncated (received.bytes.drop 2) := by
  have delivers := physicalView_delivers ambient buffer received
  have answered := repliesSum_iff host ambient buffer server client isAddition large
  constructor
  · intro accepts truncated
    have summed := answered.mpr (addLoop_truncated_total delivers host (.start 2) truncated le_rfl)
    exact not_complete_of_truncated truncated (accepts.replies.mp summed)
  · intro whole
    rcases walk_cases (received.bytes.drop 2) with complete | truncated | unknown
    · obtain ⟨numbers, encoded⟩ := exists_numbers_of_complete host.order complete
      have looped := @addLoop_numbers host _ _ delivers numbers (.start 2) (received.bytes.length - 2)
        (by simp only [AddState.start]; omega) encoded le_rfl
      refine ⟨iff_of_true (answered.mpr ⟨_, looped⟩) complete, fun _ => ⟨_, looped, ?_⟩⟩
      simp only [AddState.start, List.nil_append]
      exact encoded.symm
    · exact absurd truncated whole
    · have silent : ¬RepliesSum host ambient buffer server client received := by
        rw [answered]
        rintro ⟨state, looped⟩
        have thrown := addLoop_unknownTag delivers host (.start 2) unknown le_rfl
        exact absurd (looped.symm.trans thrown) (by simp)
      exact ⟨iff_of_false silent (not_complete_of_unknownTag unknown), fun summed => absurd summed silent⟩

end Requests

def twoBytes : Received := { bytes := [0, 2, 0, 5, 1, 7], nonempty := by decide, fits := by decide }

theorem accepts_format_twoBytes :
    AcceptsFormat exampleHost exampleAmbient (fun _ => 0) exampleServer ⟨0, by decide⟩ twoBytes := by
  have complete : Complete (twoBytes.bytes.drop 2) := .item 0 [5] [1, 7] rfl (.item 1 [7] [] rfl .done)
  exact (accepts_format_iff exampleHost exampleAmbient (fun _ => 0) exampleServer ⟨0, by decide⟩ (by decide)
    (by decide)).mpr fun truncated => not_complete_of_truncated truncated complete

def shortNumber : Received := { bytes := [0, 2, 0, 5, 4, 1], nonempty := by decide, fits := by decide }

/-- With zeros behind the packet the missing bytes are taken to be zeros and the sum 6 is sent. -/
theorem shortNumber_gets_sum :
    ¬AcceptsFormat exampleHost exampleAmbient (fun _ => 0) exampleServer ⟨0, by decide⟩ shortNumber ∧
      (callHandler exampleHost (physicalView exampleAmbient (receive (fun _ => 0) shortNumber.bytes)) exampleServer
        ⟨0, by decide⟩ 6).map Prod.snd =
        .ok [.sslWrite (some 0) (opcodeBytes .smsgAdditionRequest ++ toBytes .little 8 (integerDouble 6).toNat)] := by
  have answered : (callHandler exampleHost (physicalView exampleAmbient (receive (fun _ => 0) shortNumber.bytes))
      exampleServer ⟨0, by decide⟩ 6).map Prod.snd =
      .ok [.sslWrite (some 0) (opcodeBytes .smsgAdditionRequest ++ toBytes .little 8 (integerDouble 6).toNat)] := by decide
  refine ⟨fun accepts => ?_, answered⟩
  have truncated : Truncated (shortNumber.bytes.drop 2) :=
    ⟨4, [1], 4, rfl, by decide, .item 0 [5] [4, 1] rfl .done⟩
  refine not_complete_of_truncated truncated (accepts.replies.mp ?_)
  exact ⟨_, _, rfl, _, List.mem_singleton.mpr rfl, by decide⟩

end Communo.AdditionFormat
