import Communo.Lib.ByteCodec

/-! Format strings that come without arguments, as `syslog` reads them. Any
conversion that asks for an argument has no defined result then. -/

namespace Communo.Lib.Formats
open ByteCodec

def percent : Byte := 37

/-- The message of an error number. None of them has a percent sign. -/
structure ErrorText where
  bytes : List Byte
  plain : percent ∉ bytes

/-- What is written for a format: `%%` is a percent sign and `%m` the current
error, and everything else that begins with a percent sign is undefined. -/
def formatted (errorText : ErrorText) : List Byte → Option (List Byte)
  | [] => some []
  | [byte] => if byte = percent then none else some [byte]
  | byte :: next :: rest =>
      if byte ≠ percent then (formatted errorText (next :: rest)).map (byte :: ·)
      else if next = percent then (formatted errorText rest).map (percent :: ·)
      else if next = 109 then (formatted errorText rest).map (errorText.bytes ++ ·)
      else none

variable (errorText : ErrorText)

theorem formatted_of_plain {format : List Byte} (plain : percent ∉ format) : formatted errorText format = some format := by
  induction format with
  | nil => rfl
  | cons byte rest ih =>
    rw [List.mem_cons, not_or] at plain
    cases rest with
    | nil => exact if_neg (Ne.symm plain.1)
    | cons next rest =>
      rw [formatted, if_pos (Ne.symm plain.1), ih plain.2]
      rfl

/-- At least every second percent sign is lost. -/
theorem count_formatted_le {format output : List Byte} (written : formatted errorText format = some output) :
    2 * output.count percent ≤ format.count percent := by
  fun_induction formatted errorText format generalizing output with
  | case1 =>
    cases written
    rfl
  | case2 => cases written
  | case3 byte ordinary =>
    cases written
    rw [List.count_singleton, if_neg (by simpa using ordinary)]
  | case4 byte next rest ordinary ih =>
    obtain ⟨later, found, rfl⟩ := Option.map_eq_some_iff.mp written
    rw [List.count_cons_of_ne ordinary, List.count_cons_of_ne ordinary]
    exact ih found
  | case5 byte rest sign ih =>
    obtain ⟨later, found, rfl⟩ := Option.map_eq_some_iff.mp written
    have fewer := ih found
    rw [not_not.mp sign]
    simp only [List.count_cons_self]
    omega
  | case6 byte rest sign _ ih =>
    obtain ⟨later, found, rfl⟩ := Option.map_eq_some_iff.mp written
    have fewer := ih found
    have none := List.count_eq_zero.mpr errorText.plain
    rw [List.count_append, none, Nat.zero_add]
    have within : rest.Sublist (byte :: 109 :: rest) := (List.sublist_cons_self _ _).trans (List.sublist_cons_self _ _)
    exact fewer.trans (within.count_le percent)
  | case7 => cases written

theorem formatted_eq_self_iff (format : List Byte) : formatted errorText format = some format ↔ percent ∉ format := by
  constructor
  · intro same
    have fewer := count_formatted_le errorText same
    exact List.count_eq_zero.mp (by omega)
  · exact formatted_of_plain errorText

end Communo.Lib.Formats
