import Communo.IntegerLiterals

/-! The floating-point path of `parse_number`, over any conversions that keep the
promises of the C library. -/

namespace Communo.FloatLiterals
open Lib.ByteCodec Protocol NumParser Literals IntegerLiterals

/-- The contract of `strtof` and `strtod`: the longest prefix that is `valid` is converted,
and the end pointer stays at the start if there is none. -/
structure FollowsC {width : Nat} (valid : List Byte → Prop) (convert : List Byte → BitVec width × Nat) : Prop where
  nonempty : ¬valid []
  unconverted (s : List Byte) (none : ∀ count ≤ s.length, ¬valid (s.take count)) : (convert s).2 = 0
  converted (s : List Byte) (some : ∃ count ≤ s.length, valid (s.take count)) :
    (convert s).2 ≤ s.length ∧ valid (s.take (convert s).2)
  longest (s : List Byte) (count : Nat) (inside : count ≤ s.length) (accepted : valid (s.take count)) :
    count ≤ (convert s).2

section Path
variable (conversions : Conversions) (s : List Byte)

def FloatSuffix : Prop := s.getLast? = some (char 'f') ∨ s.getLast? = some (char 'F')

instance : Decidable (FloatSuffix s) := inferInstanceAs (Decidable (_ ∨ _))

/-- The texts that reach a conversion of the library. -/
def FloatPath : Prop := FloatSuffix s ∨ char '.' ∈ s ∨ char 'e' ∈ s ∨ char 'E' ∈ s

/-- What is to be converted: all of the text but the suffix. -/
def numeral : List Byte := if FloatSuffix s then s.take (s.length - 1) else s

def consumed : Nat :=
  if FloatSuffix s then (conversions.strtof (cString (numeral s))).2 else (conversions.strtod (cString (numeral s))).2

def Converted : Prop := 1 ≤ consumed conversions s ∧ consumed conversions s = (numeral s).length

/-- A floating-point value is returned only for a text that was converted, and the others are refused. -/
def NeverInvents : Prop :=
  (∀ number, parseNumber conversions s = .ok number → integerValue number = none → Converted conversions s) ∧
    (FloatPath s → ¬Converted conversions s →
      ∃ what, parseNumber conversions s = .error (.invalidArgument what))

end Path

section Acceptance
variable {conversions : Conversions} {s : List Byte}

theorem ne_nil_of_floatPath (path : FloatPath s) : s ≠ [] := by
  rintro rfl
  simp [FloatPath, FloatSuffix] at path

/-- On this path the result depends only on where the end pointer is left. -/
theorem parseNumber_of_floatPath (path : FloatPath s) :
    (consumed conversions s = (numeral s).length ∧
      ∃ number, parseNumber conversions s = .ok number ∧ integerValue number = none) ∨
    (consumed conversions s ≠ (numeral s).length ∧
      ∃ what, parseNumber conversions s = .error (.invalidArgument what)) := by
  have nonempty := ne_nil_of_floatPath path
  by_cases suffix : FloatSuffix s
  · have shape : s.getLast? = some (char 'f') ∨ s.getLast? = some (char 'F') := suffix
    simp only [consumed, numeral, if_pos suffix, parseNumber, if_neg nonempty, if_pos shape, parseFloat]
    split_ifs with whole
    · exact .inl ⟨whole, _, rfl, rfl⟩
    · exact .inr ⟨whole, _, rfl⟩
  · have shape : ¬(s.getLast? = some (char 'f') ∨ s.getLast? = some (char 'F')) := suffix
    have marked := path.resolve_left suffix
    simp only [consumed, numeral, if_neg suffix, parseNumber, if_neg nonempty, if_neg shape, if_pos marked, parseFloat]
    split_ifs with whole
    · exact .inl ⟨whole, _, rfl, rfl⟩
    · exact .inr ⟨whole, _, rfl⟩

theorem floatPath_of_parsed {number : Number} (parsed : parseNumber conversions s = .ok number)
    (floating : integerValue number = none) : FloatPath s := by
  by_contra off
  have nonempty : s ≠ [] := by
    rintro rfl
    cases parsed
  rw [FloatPath, FloatSuffix, not_or, not_or, not_or, not_or] at off
  obtain ⟨⟨lower, upper⟩, unmarked⟩ := off
  rw [parseNumber_of_unmarked conversions nonempty ⟨lower, upper, unmarked⟩] at parsed
  obtain ⟨value, holds⟩ := exists_integerValue parsed
  rw [floating] at holds
  cases holds

theorem numeral_ne_nil (path : FloatPath s) (more : s ≠ text "f" ∧ s ≠ text "F") : numeral s ≠ [] := by
  unfold numeral
  split_ifs with suffix
  · intro empty
    rcases List.eq_nil_or_concat s with rfl | ⟨front, last, rfl⟩
    · exact ne_nil_of_floatPath path rfl
    · rw [List.concat_eq_append, List.length_append, List.length_singleton, Nat.add_sub_cancel, List.take_left] at empty
      subst empty
      simp only [FloatSuffix, List.concat_nil, List.getLast?_singleton, Option.some.injEq] at suffix
      rcases suffix with rfl | rfl
      · exact more.1 rfl
      · exact more.2 rfl
  · exact ne_nil_of_floatPath path

theorem consumed_suffix_alone {valid : List Byte → Prop} (follows : FollowsC valid conversions.strtof)
    (alone : s = text "f" ∨ s = text "F") : FloatPath s ∧ consumed conversions s = 0 ∧ (numeral s).length = 0 := by
  have suffix : FloatSuffix s := by rcases alone with rfl | rfl <;> decide
  have nothing : numeral s = [] := by rcases alone with rfl | rfl <;> decide
  refine ⟨.inl suffix, ?_, by rw [nothing]; rfl⟩
  rw [consumed, if_pos suffix, nothing]
  apply follows.unconverted
  intro count _
  rw [cString, List.takeWhile_nil, List.take_nil]
  exact follows.nonempty

theorem valid_of_converted {valid : List Byte → Prop} (single : FollowsC valid conversions.strtof)
    (double : FollowsC valid conversions.strtod) (converted : Converted conversions s) : valid (numeral s) := by
  have whole {width : Nat} {convert : List Byte → BitVec width × Nat} (follows : FollowsC valid convert)
      (some : 1 ≤ (convert (cString (numeral s))).2)
      (all : (convert (cString (numeral s))).2 = (numeral s).length) : valid (numeral s) := by
    have possible : ∃ count ≤ (cString (numeral s)).length, valid ((cString (numeral s)).take count) := by
      by_contra none
      push Not at none
      have nothing := follows.unconverted _ none
      omega
    obtain ⟨inside, accepted⟩ := follows.converted _ possible
    have same : cString (numeral s) = numeral s := (List.takeWhile_prefix _).eq_of_length_le (by rwa [all] at inside)
    rwa [all, same, List.take_length] at accepted
  obtain ⟨some, all⟩ := converted
  unfold consumed at some all
  split_ifs at some all
  · exact whole single some all
  · exact whole double some all

end Acceptance

/-- Only the bare suffix is taken for a number: there the end pointer is at the end without a conversion. -/
theorem never_invents_iff (conversions : Conversions) {valid : List Byte → Prop}
    (single : FollowsC valid conversions.strtof) (s : List Byte) :
    NeverInvents conversions s ↔ s ≠ text "f" ∧ s ≠ text "F" := by
  constructor
  · rintro ⟨returned, -⟩
    rw [← not_or]
    intro alone
    obtain ⟨path, nothing, empty⟩ := consumed_suffix_alone single alone
    rcases parseNumber_of_floatPath path with ⟨-, number, parsed, floating⟩ | ⟨strays, -⟩
    · have something := (returned number parsed floating).1
      omega
    · exact strays (nothing.trans empty.symm)
  · intro more
    refine ⟨fun number parsed floating => ?_, fun path unconverted => ?_⟩
    · have path := floatPath_of_parsed parsed floating
      have some := List.length_pos_iff.mpr (numeral_ne_nil path more)
      rcases parseNumber_of_floatPath path with ⟨whole, -⟩ | ⟨-, what, refused⟩
      · exact ⟨by omega, whole⟩
      · cases parsed.symm.trans refused
    · have some := List.length_pos_iff.mpr (numeral_ne_nil path more)
      rcases parseNumber_of_floatPath path with ⟨whole, -⟩ | ⟨-, refused⟩
      · exact absurd ⟨by omega, whole⟩ unconverted
      · exact refused

section Sample

def convertHalf {width : Nat} (bits : BitVec width) (s : List Byte) : BitVec width × Nat :=
  if (text "1.5").isPrefixOf s then (bits, 3) else (0, 0)

def halfConversions : Conversions where
  strtof := convertHalf 0x3FC00000
  strtod := convertHalf 0x3FF8000000000000

theorem followsC_convertHalf {width : Nat} (bits : BitVec width) : FollowsC (· = text "1.5") (convertHalf bits) := by
  have converts {s : List Byte} {count : Nat} (starts : s.take count = text "1.5") :
      convertHalf bits s = (bits, 3) ∧ s.take 3 = text "1.5" ∧ 3 ≤ s.length := by
    obtain ⟨rest, rfl⟩ : text "1.5" <+: s := starts ▸ List.take_prefix count s
    refine ⟨?_, rfl, by simp [text]⟩
    rw [convertHalf, if_pos (List.isPrefixOf_iff_prefix.mpr (List.prefix_append _ rest))]
  constructor
  · decide
  · intro s none
    rw [convertHalf, if_neg]
    intro starts
    obtain ⟨rest, rfl⟩ := List.isPrefixOf_iff_prefix.mp starts
    exact none 3 (by simp [text]) rfl
  · rintro s ⟨count, -, starts⟩
    obtain ⟨result, same, long⟩ := converts starts
    rw [result]
    exact ⟨long, same⟩
  · intro s count inside starts
    have short := congrArg List.length starts
    rw [List.length_take_of_le inside] at short
    rw [(converts starts).1, short]
    exact le_refl 3

theorem never_invents_half : NeverInvents halfConversions (text "1.5f") :=
  (never_invents_iff halfConversions (followsC_convertHalf 0x3FC00000) (text "1.5f")).mpr (by decide)

theorem bare_suffix_read :
    parseNumber halfConversions (text "f") = .ok (.float 0) ∧ ¬NeverInvents halfConversions (text "f") := by
  have read : parseNumber halfConversions (text "f") = .ok (.float 0) := by decide
  refine ⟨read, fun never => ?_⟩
  have converted := (never.1 _ read rfl).1
  exact absurd converted (by decide)

end Sample

end Communo.FloatLiterals
