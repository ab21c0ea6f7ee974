import Mathlib

/-! Records written one after the other. A code is prefix-free when what starts with
the code of a record starts with the code of no other; then a text has one longest
beginning made of whole records. -/

namespace Communo.Lib.PrefixCode
variable {α β : Type} (encode : β → List α)

def PrefixFree : Prop := ∀ first second rest rest', encode first ++ rest = encode second ++ rest' → first = second

def Complete (text : List α) : Prop := ∃ record rest, text = encode record ++ rest

/-- The text is a record that breaks off. -/
def Fragment (text : List α) : Prop := ∃ record, text <+: encode record ∧ text ≠ encode record

variable {encode}

theorem not_complete_of_fragment (free : PrefixFree encode) {text : List α} (fragment : Fragment encode text) :
    ¬Complete encode text := by
  rintro ⟨first, rest, rfl⟩
  obtain ⟨second, ⟨more, same⟩, broken⟩ := fragment
  rw [List.append_assoc] at same
  obtain rfl := free first second (rest ++ more) [] (by rw [same, List.append_nil])
  rw [List.append_right_eq_self, List.append_eq_nil_iff] at same
  exact broken (by rw [same.1, List.append_nil])

theorem fragment_of_extended {text more : List α} (broken : ¬Complete encode text)
    (extended : Complete encode (text ++ more)) : Fragment encode text := by
  obtain ⟨record, rest, same⟩ := extended
  refine ⟨record, ?_, fun whole => broken ⟨record, [], by rw [whole, List.append_nil]⟩⟩
  rcases List.prefix_or_prefix_of_prefix (List.prefix_append text more) (same ▸ List.prefix_append _ rest) with
    short | long
  · exact short
  · obtain ⟨behind, split⟩ := long
    exact absurd ⟨record, behind, split.symm⟩ broken

section Longest
variable (free : PrefixFree encode) {records others : List β} {tail rest : List α}
include free

theorem prefix_of_split (broken : ¬Complete encode tail)
    (same : others.flatMap encode ++ rest = records.flatMap encode ++ tail) : others <+: records := by
  induction others generalizing records with
  | nil => exact List.nil_prefix
  | cons first others ih =>
    rw [List.flatMap_cons, List.append_assoc] at same
    cases records with
    | nil => exact absurd ⟨first, _, same.symm⟩ broken
    | cons second records =>
      rw [List.flatMap_cons, List.append_assoc] at same
      obtain rfl := free _ _ _ _ same
      exact (List.prefix_cons_inj first).mpr (ih (List.append_cancel_left same))

/-- There is one way to cut a text into whole records and a rest without any. -/
theorem split_unique (broken : ¬Complete encode tail) (broken' : ¬Complete encode rest)
    (same : others.flatMap encode ++ rest = records.flatMap encode ++ tail) : others = records :=
  (prefix_of_split free broken same).eq_of_length_le (prefix_of_split free broken' same.symm).length_le

end Longest

end Communo.Lib.PrefixCode
