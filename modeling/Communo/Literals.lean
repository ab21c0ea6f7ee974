import Communo.Lib.Numerals
import Communo.NumParser

/-! The numbers a user may type: `parse_number` with its inference of the
smallest type, over `std::from_chars` and the C library's conversions. -/

namespace Communo.Literals
open Lib.ByteCodec Lib.Numerals Protocol NumParser

def char (character : Char) : Byte := BitVec.ofNat 8 character.toNat

/-- The exceptions of `parse_number`, with their texts. -/
inductive LiteralError where
  | invalidArgument (what : String)
  | outOfRange (what : String)
  deriving DecidableEq, Repr

def LiteralError.what : LiteralError → String
  | .invalidArgument what | .outOfRange what => what

/-- The values of an integer type; the signed ones are those that have negative values. -/
structure IntegerType where
  lowest : Int
  highest : Int
  deriving DecidableEq, Repr

def uint64 : IntegerType := { lowest := 0, highest := 2 ^ 64 - 1 }

def int64 : IntegerType := { lowest := -2 ^ 63, highest := 2 ^ 63 - 1 }

inductive Errc where
  | none
  | invalidArgument
  | resultOutOfRange
  deriving DecidableEq, Repr

/-- What `std::from_chars` returns, and the value it leaves; an error leaves the zero that was there. -/
structure FromCharsResult where
  ec : Errc
  ptr : Nat
  value : Int
  deriving DecidableEq, Repr

/-- `std::from_chars`: digits of the base, after a minus sign if the type is signed. -/
def fromChars (type : IntegerType) (base : Nat) (s : List Byte) : FromCharsResult :=
  let sign := if type.lowest < 0 ∧ s.head? = some (char '-') then 1 else 0
  let digits := (s.drop sign).takeWhile fun character => isDigit base character.toNat
  let magnitude : Int := evaluate base (digits.map BitVec.toNat)
  let value := if sign = 1 then -magnitude else magnitude
  if digits = [] then { ec := .invalidArgument, ptr := 0, value := 0 }
  else if type.lowest ≤ value ∧ value ≤ type.highest then
    { ec := .none, ptr := sign + digits.length, value := value }
  else { ec := .resultOutOfRange, ptr := sign + digits.length, value := 0 }

def parseInteger (type : IntegerType) (s : List Byte) (base : Nat) : Option Int :=
  let result := fromChars type base s
  if result.ec = .none ∧ result.ptr = s.length then some result.value else none

inductive IntegerSuffix where
  | none
  | u
  | l
  | ul
  | ll
  | ull
  deriving DecidableEq, Repr

def endsWith (s suffix : List Byte) : Bool :=
  suffix.length ≤ s.length && s.drop (s.length - suffix.length) = suffix

def removeSuffix (s : List Byte) : List Byte × IntegerSuffix :=
  if endsWith s (text "ULL") || endsWith s (text "ull") then (s.take (s.length - 3), .ull)
  else if endsWith s (text "UL") || endsWith s (text "ul") then (s.take (s.length - 2), .ul)
  else if endsWith s (text "LL") || endsWith s (text "ll") then (s.take (s.length - 2), .ll)
  else if endsWith s (text "U") || endsWith s (text "u") then (s.take (s.length - 1), .u)
  else if endsWith s (text "L") || endsWith s (text "l") then (s.take (s.length - 1), .l)
  else (s, .none)

/-- The end of the branch for explicitly unsigned literals. -/
def smallestUnsigned (value : Int) : Number :=
  if value ≤ 2 ^ 8 - 1 then .uint8 (BitVec.ofInt 8 value)
  else if value ≤ 2 ^ 16 - 1 then .uint16 (BitVec.ofInt 16 value)
  else if value ≤ 2 ^ 32 - 1 then .uint32 (BitVec.ofInt 32 value)
  else .uint64 (BitVec.ofInt 64 value)

def inferNegative (value : Int) : Number :=
  if -2 ^ 7 ≤ value then .int8 (BitVec.ofInt 8 value)
  else if -2 ^ 15 ≤ value then .int16 (BitVec.ofInt 16 value)
  else if -2 ^ 31 ≤ value then .int32 (BitVec.ofInt 32 value)
  else .int64 (BitVec.ofInt 64 value)

/-- The cascade for a positive literal without a suffix. -/
def inferPositive (value : Int) : Number :=
  if value ≤ 2 ^ 8 - 1 then .uint8 (BitVec.ofInt 8 value)
  else if value ≤ 2 ^ 16 - 1 then .uint16 (BitVec.ofInt 16 value)
  else if value ≤ 2 ^ 32 - 1 then .uint32 (BitVec.ofInt 32 value)
  else if value ≤ 2 ^ 15 - 1 then .int16 (BitVec.ofInt 16 value)
  else if value ≤ 2 ^ 16 - 1 then .uint16 (BitVec.ofInt 16 value)
  else if value ≤ 2 ^ 31 - 1 then .int32 (BitVec.ofInt 32 value)
  else if value ≤ 2 ^ 32 - 1 then .uint32 (BitVec.ofInt 32 value)
  else if value ≤ 2 ^ 63 - 1 then .int64 (BitVec.ofInt 64 value)
  else .uint64 (BitVec.ofInt 64 value)

/-- `if (!parse_integer(s, value, base)) throw ...` followed by the choice of a type. -/
def orOutOfRange (what : String) (infer : Int → Number) : Option Int → Except LiteralError Number
  | some value => .ok (infer value)
  | none => .error (.outOfRange what)

def parseIntegerNumber (input : List Byte) : Except LiteralError Number :=
  let (s, suffix) := removeSuffix input
  let negative := s.head? = some (char '-')
  let hexadecimal := 2 ≤ s.length ∧ s[0]? = some (char '0') ∧ (s[1]? = some (char 'x') ∨ s[1]? = some (char 'X'))
  let base := if hexadecimal then 16 else 10
  let digits := if hexadecimal then s.drop 2 else s
  if hexadecimal ∧ negative then .error (.invalidArgument "negative hexadecimal not supported")
  else
    match suffix with
    | .u | .ul | .ull =>
        orOutOfRange "integer does not fit uint64_t" smallestUnsigned (parseInteger uint64 digits base)
    | .l | .ll =>
        orOutOfRange "integer does not fit int64_t" (fun value => .int64 (BitVec.ofInt 64 value))
          (parseInteger int64 digits base)
    | .none =>
        if negative then orOutOfRange "integer does not fit int64_t" inferNegative (parseInteger int64 digits base)
        else orOutOfRange "integer does not fit uint64_t" inferPositive (parseInteger uint64 digits base)

/-- `strtof` and `strtod`: the bits of the value, and how many characters were converted. -/
structure Conversions where
  strtof : List Byte → BitVec 32 × Nat
  strtod : List Byte → BitVec 64 × Nat

/-- `parse_float` with either conversion, which sees a C string. -/
def parseFloat {width : Nat} (convert : List Byte → BitVec width × Nat) (s : List Byte) : Option (BitVec width) :=
  let (value, consumed) := convert (cString s)
  if consumed = s.length then some value else none

def parseNumber (conversions : Conversions) (s : List Byte) : Except LiteralError Number :=
  if s = [] then .error (.invalidArgument "empty number")
  else if s.getLast? = some (char 'f') ∨ s.getLast? = some (char 'F') then
    match parseFloat conversions.strtof (s.take (s.length - 1)) with
    | some value => .ok (.float value)
    | none => .error (.invalidArgument "invalid float")
  else if char '.' ∈ s ∨ char 'e' ∈ s ∨ char 'E' ∈ s then
    match parseFloat conversions.strtod s with
    | some value => .ok (.double value)
    | none => .error (.invalidArgument "invalid double")
  else parseIntegerNumber s

/-- `std::to_string` of an integer. -/
def decimalInt (value : Int) : List Byte :=
  if value < 0 then char '-' :: decimal value.natAbs else decimal value.natAbs

/-- `std::to_string` of a floating-point value, by its bits. -/
structure Printing where
  float : BitVec 32 → List Byte
  double : BitVec 64 → List Byte

def numberToString (printing : Printing) : Number → List Byte
  | .int8 bits => decimalInt bits.toInt
  | .uint8 bits => decimalInt bits.toNat
  | .int16 bits => decimalInt bits.toInt
  | .uint16 bits => decimalInt bits.toNat
  | .int32 bits => decimalInt bits.toInt
  | .uint32 bits => decimalInt bits.toNat
  | .int64 bits => decimalInt bits.toInt
  | .uint64 bits => decimalInt bits.toNat
  | .float bits => printing.float bits
  | .double bits => printing.double bits

def isUnsignedInteger : Number → Bool
  | .uint8 _ | .uint16 _ | .uint32 _ | .uint64 _ => true
  | _ => false

/-- The visitor that casts to `uint64_t`, on the alternatives it is called for. -/
def castUint64 : (number : Number) → isUnsignedInteger number = true → BitVec 64
  | .uint8 bits, _ => bits.setWidth 64
  | .uint16 bits, _ => bits.setWidth 64
  | .uint32 bits, _ => bits.setWidth 64
  | .uint64 bits, _ => bits

section Reading

structure Numeral (base : Nat) (s : List Byte) : Prop where
  nonempty : s ≠ []
  digit : ∀ character ∈ s, isDigit base character.toNat = true

theorem not_numeral_minus (base : Nat) (rest : List Byte) : ¬Numeral base (char '-' :: rest) := fun numeral =>
  Bool.false_ne_true ((isDigit_minus base).symm.trans (numeral.digit (char '-') (by simp)))

def denoted (base : Nat) (s : List Byte) : Nat := evaluate base (s.map BitVec.toNat)

theorem numeral_iff_scanned (base : Nat) (s : List Byte) :
    Numeral base s ↔
      s.takeWhile (fun character => isDigit base character.toNat) = s ∧ s ≠ [] := by
  rw [List.takeWhile_eq_self_iff]
  exact ⟨fun numeral => ⟨numeral.digit, numeral.nonempty⟩, fun ⟨digit, nonempty⟩ => ⟨nonempty, digit⟩⟩

theorem takeWhile_length_iff (base : Nat) (s : List Byte) :
    (s.takeWhile fun character => isDigit base character.toNat).length = s.length ↔
      s.takeWhile (fun character => isDigit base character.toNat) = s := by
  constructor
  · exact (List.takeWhile_prefix _).eq_of_length
  · intro whole
    rw [whole]

theorem parseInteger_iff_of_scan {type : IntegerType} {base : Nat} {s : List Byte} (sign : Nat) (rest : List Byte)
    (signed : Nat → Int) (split : s.length = sign + rest.length)
    (result : ∀ digits, digits = rest.takeWhile (fun character => isDigit base character.toNat) →
      fromChars type base s =
        if digits = [] then { ec := .invalidArgument, ptr := 0, value := 0 }
        else if type.lowest ≤ signed (denoted base digits) ∧ signed (denoted base digits) ≤ type.highest then
          { ec := .none, ptr := sign + digits.length, value := signed (denoted base digits) }
        else { ec := .resultOutOfRange, ptr := sign + digits.length, value := 0 })
    (value : Int) :
    parseInteger type s base = some value ↔
      Numeral base rest ∧ value = signed (denoted base rest) ∧ type.lowest ≤ value ∧ value ≤ type.highest := by
  rw [parseInteger, numeral_iff_scanned, ← takeWhile_length_iff]
  have scanned := result _ rfl
  have whole := (takeWhile_length_iff base rest).mp
  generalize rest.takeWhile (fun character => isDigit base character.toNat) = digits at scanned whole ⊢
  by_cases empty : digits = []
  · rw [scanned, if_pos empty]
    simp only [reduceCtorEq, false_and, if_false, false_iff]
    exact fun ⟨⟨same, nonempty⟩, _⟩ => nonempty ((whole same).symm.trans empty)
  rw [if_neg empty] at scanned
  by_cases same : digits.length = rest.length
  · obtain rfl := whole same
    split_ifs at scanned with fits
    · simp only [scanned, split, and_self, if_true, Option.some.injEq, ne_eq, empty, not_false_eq_true, true_and]
      exact ⟨fun equal => equal ▸ ⟨rfl, fits⟩, fun result => result.1.symm⟩
    · simp only [scanned, reduceCtorEq, false_and, if_false, false_iff]
      rintro ⟨-, rfl, bounds⟩
      exact fits bounds
  · have short : sign + digits.length ≠ s.length := by omega
    split_ifs at scanned <;> simp [scanned, same, short]

theorem parseInteger_eq_some_iff (type : IntegerType) (s : List Byte) (base : Nat) (value : Int) :
    parseInteger type s base = some value ↔
      (Numeral base s ∧ value = denoted base s ∧ type.lowest ≤ value ∧ value ≤ type.highest) ∨
        type.lowest < 0 ∧ ∃ digits, s = char '-' :: digits ∧ Numeral base digits ∧ value = -(denoted base digits : Int) ∧
          type.lowest ≤ value ∧ value ≤ type.highest := by
  by_cases sign : type.lowest < 0 ∧ s.head? = some (char '-')
  · obtain ⟨rest, rfl⟩ : ∃ rest, s = char '-' :: rest := by
      cases s with
      | nil => simp at sign
      | cons first rest => exact ⟨rest, by simpa using sign.2⟩
    rw [parseInteger_iff_of_scan 1 rest fun magnitude => -magnitude]
    · simp [not_numeral_minus, sign.1]
    · simp [Nat.add_comm]
    · intro digits scan
      subst scan
      simp only [fromChars, sign, and_self, if_true, List.drop_one, List.tail_cons]
      rfl
  · rw [parseInteger_iff_of_scan 0 s fun magnitude => magnitude]
    · constructor
      · exact Or.inl
      · rintro (plain | ⟨negative, digits, rfl, -⟩)
        · exact plain
        · exact absurd ⟨negative, rfl⟩ sign
    · simp
    · intro digits scan
      subst scan
      simp only [fromChars, sign, if_false, List.drop_zero, zero_ne_one]
      rfl

end Reading

section Suffixes

def IntegerSuffix.spellings : IntegerSuffix → List (List Byte)
  | .none => [[]]
  | .u => [text "U", text "u"]
  | .l => [text "L", text "l"]
  | .ul => [text "UL", text "ul"]
  | .ll => [text "LL", text "ll"]
  | .ull => [text "ULL", text "ull"]

def suffixLetters : List Byte := text "UuLl"

theorem endsWith_iff (s suffix : List Byte) : endsWith s suffix = true ↔ suffix <:+ s := by
  rw [endsWith, Bool.and_eq_true, decide_eq_true_eq, decide_eq_true_eq, List.suffix_iff_eq_drop]
  constructor
  · exact fun ends => ends.2.symm
  · exact fun same => ⟨List.IsSuffix.length_le (List.suffix_iff_eq_drop.mpr same), same.symm⟩

theorem removeSuffix_spelling {s body : List Byte} {suffix : IntegerSuffix} (removed : removeSuffix s = (body, suffix)) :
    ∃ spelling ∈ suffix.spellings, s = body ++ spelling := by
  have cut {spelling : List Byte} (ends : endsWith s spelling = true) :
      s = s.take (s.length - spelling.length) ++ spelling := by
    have same := List.suffix_iff_eq_append.mp ((endsWith_iff s spelling).mp ends)
    exact same.symm
  unfold removeSuffix at removed
  split_ifs at removed with ull ul ll u l <;> cases removed
  · rcases Bool.or_eq_true_iff.mp ull with upper | lower
    · exact ⟨text "ULL", List.mem_cons_self, cut upper⟩
    · exact ⟨text "ull", List.mem_cons_of_mem _ List.mem_cons_self, cut lower⟩
  · rcases Bool.or_eq_true_iff.mp ul with upper | lower
    · exact ⟨text "UL", List.mem_cons_self, cut upper⟩
    · exact ⟨text "ul", List.mem_cons_of_mem _ List.mem_cons_self, cut lower⟩
  · rcases Bool.or_eq_true_iff.mp ll with upper | lower
    · exact ⟨text "LL", List.mem_cons_self, cut upper⟩
    · exact ⟨text "ll", List.mem_cons_of_mem _ List.mem_cons_self, cut lower⟩
  · rcases Bool.or_eq_true_iff.mp u with upper | lower
    · exact ⟨text "U", List.mem_cons_self, cut upper⟩
    · exact ⟨text "u", List.mem_cons_of_mem _ List.mem_cons_self, cut lower⟩
  · rcases Bool.or_eq_true_iff.mp l with upper | lower
    · exact ⟨text "L", List.mem_cons_self, cut upper⟩
    · exact ⟨text "l", List.mem_cons_of_mem _ List.mem_cons_self, cut lower⟩
  · exact ⟨[], List.mem_cons_self, (List.append_nil s).symm⟩

section Plain
variable {body : List Byte} (plain : ∀ letter ∈ suffixLetters, body.getLast? ≠ some letter) (spelling : List Byte)
include plain

theorem endsWith_append (suffix : List Byte) (letters : ∀ letter ∈ suffix, letter ∈ suffixLetters) :
    endsWith (body ++ spelling) suffix = endsWith spelling suffix := by
  rw [Bool.eq_iff_iff, endsWith_iff, endsWith_iff]
  constructor
  · intro ends
    rcases List.suffix_or_suffix_of_suffix ends (List.suffix_append body spelling) with short | long
    · exact short
    · obtain ⟨extra, rfl⟩ := long
      obtain ⟨front, same⟩ := ends
      rw [← List.append_assoc, List.append_cancel_right_eq] at same
      rcases List.eq_nil_or_concat extra with rfl | ⟨initial, letter, rfl⟩
      · rfl
      · refine absurd ?_ (plain letter (letters letter (by simp)))
        rw [← same]
        simp
  · exact fun ends => ends.trans (List.suffix_append body spelling)

theorem removeSuffix_append :
    removeSuffix (body ++ spelling) = (body ++ (removeSuffix spelling).1, (removeSuffix spelling).2) := by
  have cut (count : Nat) {upper lower : List Byte}
      (ends : (endsWith spelling upper || endsWith spelling lower) = true) (long : upper.length = count ∧ lower.length = count) :
      (body ++ spelling).take ((body ++ spelling).length - count) = body ++ spelling.take (spelling.length - count) := by
    have short : count ≤ spelling.length := by
      rcases Bool.or_eq_true_iff.mp ends with ends | ends
      · exact long.1 ▸ ((endsWith_iff spelling upper).mp ends).length_le
      · exact long.2 ▸ ((endsWith_iff spelling lower).mp ends).length_le
    rw [List.length_append, Nat.add_sub_assoc short, List.take_append, List.take_of_length_le (by omega),
      Nat.add_sub_cancel_left]
  have ends := endsWith_append plain spelling
  simp only [removeSuffix, ends (text "ULL") (by decide), ends (text "ull") (by decide), ends (text "UL") (by decide),
    ends (text "ul") (by decide), ends (text "LL") (by decide), ends (text "ll") (by decide),
    ends (text "U") (by decide), ends (text "u") (by decide), ends (text "L") (by decide), ends (text "l") (by decide)]
  split_ifs with ull ul ll u l
  · rw [cut 3 ull ⟨rfl, rfl⟩]
  · rw [cut 2 ul ⟨rfl, rfl⟩]
  · rw [cut 2 ll ⟨rfl, rfl⟩]
  · rw [cut 1 u ⟨rfl, rfl⟩]
  · rw [cut 1 l ⟨rfl, rfl⟩]
  · rfl

end Plain

theorem removeSuffix_append_spelling {body spelling : List Byte} {suffix : IntegerSuffix}
    (plain : ∀ letter ∈ suffixLetters, body.getLast? ≠ some letter) (spelled : spelling ∈ suffix.spellings) :
    removeSuffix (body ++ spelling) = (body, suffix) := by
  have alone : ∀ spelling ∈ suffix.spellings, removeSuffix spelling = ([], suffix) := by
    cases suffix <;> decide
  rw [removeSuffix_append plain, alone spelling spelled, List.append_nil]

end Suffixes

section Decimal

def Decimal (s : List Byte) : Prop := ∀ character ∈ s, 48 ≤ character.toNat ∧ character.toNat ≤ 57

theorem map_toNat_decimal (number : Nat) :
    (decimal number).map BitVec.toNat = (Nat.toDigits 10 number).map Char.toNat := by
  rw [decimal, text, Nat.toString_eq_repr, Nat.toList_repr, List.map_map]
  refine List.map_congr_left fun digit member => ?_
  have small := (code_of_mem_toDigits member).2
  exact Nat.mod_eq_of_lt (by omega)

theorem decimal_decimal (number : Nat) : Decimal (decimal number) := by
  intro character member
  have code : character.toNat ∈ (decimal number).map BitVec.toNat := List.mem_map_of_mem member
  rw [map_toNat_decimal] at code
  obtain ⟨digit, present, same⟩ := List.mem_map.mp code
  rw [← same]
  exact code_of_mem_toDigits present

theorem decimal_ne_nil (number : Nat) : decimal number ≠ [] := by
  intro empty
  have codes := map_toNat_decimal number
  rw [empty, List.map_nil, eq_comm, List.map_eq_nil_iff] at codes
  exact Nat.toDigits_ne_nil codes

section Spelling
variable {s : List Byte} (decimal : Decimal s)
include decimal

theorem Decimal.notMem (character : Byte) (other : ¬(48 ≤ character.toNat ∧ character.toNat ≤ 57)) :
    character ∉ s :=
  fun member => other (decimal character member)

theorem Decimal.plain : ∀ letter ∈ suffixLetters, s.getLast? ≠ some letter := by
  have others : ∀ letter ∈ suffixLetters, ¬(48 ≤ letter.toNat ∧ letter.toNat ≤ 57) := by decide
  exact fun letter member last => decimal.notMem letter (others letter member) (List.mem_of_getLast? last)

theorem Decimal.removeSuffix_eq : removeSuffix s = (s, .none) := by
  have removed := removeSuffix_append_spelling decimal.plain (show [] ∈ IntegerSuffix.none.spellings from List.mem_singleton_self [])
  rwa [List.append_nil] at removed

theorem Decimal.parseInteger_eq (nonempty : s ≠ []) (small : evaluate 10 (s.map BitVec.toNat) < 2 ^ 64) :
    parseInteger uint64 s 10 = some (evaluate 10 (s.map BitVec.toNat) : Int) := by
  have numeral : Numeral 10 s :=
    ⟨nonempty, fun character member => (isDigit_ten_iff character.toNat).mpr (decimal character member)⟩
  have below : (evaluate 10 (s.map BitVec.toNat) : Int) ≤ 2 ^ 64 - 1 := by omega
  exact (parseInteger_eq_some_iff uint64 s 10 _).mpr (.inl ⟨numeral, rfl, Int.natCast_nonneg _, below⟩)

theorem Decimal.parseNumber_eq (conversions : Conversions) (nonempty : s ≠ [])
    (small : evaluate 10 (s.map BitVec.toNat) < 2 ^ 64) :
    parseNumber conversions s = .ok (inferPositive (evaluate 10 (s.map BitVec.toNat))) := by
  have last (character : Byte) (other : ¬(48 ≤ character.toNat ∧ character.toNat ≤ 57)) :
      s.getLast? ≠ some character :=
    fun same => decimal.notMem character other (List.mem_of_getLast? same)
  have second (character : Byte) (other : ¬(48 ≤ character.toNat ∧ character.toNat ≤ 57)) :
      s[1]? ≠ some character :=
    fun same => decimal.notMem character other (List.mem_of_getElem? same)
  have positive : s.head? ≠ some (char '-') := fun same => decimal.notMem _ (by decide) (List.mem_of_head? same)
  have integer : parseIntegerNumber s = .ok (inferPositive (evaluate 10 (s.map BitVec.toNat))) := by
    simp only [parseIntegerNumber, decimal.removeSuffix_eq, second (char 'x') (by decide),
      second (char 'X') (by decide), or_self, and_false, if_false, positive,
      decimal.parseInteger_eq nonempty small, orOutOfRange]
  simp only [parseNumber, nonempty, last (char 'f') (by decide), last (char 'F') (by decide),
    decimal.notMem (char '.') (by decide), decimal.notMem (char 'e') (by decide),
    decimal.notMem (char 'E') (by decide), or_self, if_false, integer]

end Spelling

theorem parseNumber_decimal (conversions : Conversions) {number : Nat} (small : number < 2 ^ 64) :
    parseNumber conversions (decimal number) = .ok (inferPositive number) := by
  have value : evaluate 10 ((decimal number).map BitVec.toNat) = number := by
    rw [map_toNat_decimal, evaluate_toDigits]
  have read := (decimal_decimal number).parseNumber_eq conversions (decimal_ne_nil number)
  rw [value] at read
  exact read small

end Decimal

section Inference

/-- Past the third check of the cascade all but the last one come too late. -/
theorem inferPositive_eq (number : Nat) :
    inferPositive number =
      if number < 2 ^ 8 then .uint8 (BitVec.ofNat 8 number)
      else if number < 2 ^ 16 then .uint16 (BitVec.ofNat 16 number)
      else if number < 2 ^ 32 then .uint32 (BitVec.ofNat 32 number)
      else if number < 2 ^ 63 then .int64 (BitVec.ofNat 64 number)
      else .uint64 (BitVec.ofNat 64 number) := by
  unfold inferPositive
  simp only [BitVec.ofInt_natCast]
  split_ifs <;> first | rfl | omega

theorem isUnsignedInteger_inferPositive (number : Nat) :
    isUnsignedInteger (inferPositive number) = true ↔ number < 2 ^ 32 ∨ 2 ^ 63 ≤ number := by
  rw [inferPositive_eq]
  split_ifs <;> simp only [isUnsignedInteger, true_iff, Bool.false_eq_true, false_iff] <;> omega

theorem castUint64_inferPositive {number : Number} {value : Nat} (inferred : number = inferPositive value)
    (unsigned : isUnsignedInteger number = true) : castUint64 number unsigned = BitVec.ofNat 64 value := by
  have widened {width : Nat} (narrow : width ≤ 64) (fits : value < 2 ^ width) :
      (BitVec.ofNat width value).setWidth 64 = BitVec.ofNat 64 value := by
    apply BitVec.eq_of_toNat_eq
    rw [BitVec.toNat_setWidth, BitVec.toNat_ofNat, BitVec.toNat_ofNat, Nat.mod_eq_of_lt fits]
  rw [inferPositive_eq] at inferred
  split_ifs at inferred with byte short long signed
  · subst inferred
    exact widened (by decide) byte
  · subst inferred
    exact widened (by decide) short
  · subst inferred
    exact widened (by decide) long
  · subst inferred
    simp [isUnsignedInteger] at unsigned
  · subst inferred
    rfl

end Inference

end Communo.Literals
