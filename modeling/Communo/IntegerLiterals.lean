import Communo.Literals

/-! The integer literals that `parse_number` reads, against a grammar of their own. -/

namespace Communo.IntegerLiterals
open Lib.ByteCodec Lib.Numerals Protocol NumParser Literals

def integerValue : Number → Option Int
  | .int8 bits => some bits.toInt
  | .uint8 bits => some bits.toNat
  | .int16 bits => some bits.toInt
  | .uint16 bits => some bits.toNat
  | .int32 bits => some bits.toInt
  | .uint32 bits => some bits.toNat
  | .int64 bits => some bits.toInt
  | .uint64 bits => some bits.toNat
  | .float _ | .double _ => none

section Inference
variable {value : Int}

theorem toNat_ofInt {width : Nat} (low : 0 ≤ value) (high : value < 2 ^ width) :
    ((BitVec.ofInt width value).toNat : Int) = value := by
  rw [BitVec.toNat_ofInt]
  push_cast
  rw [Int.emod_eq_of_lt low high, Int.toNat_of_nonneg low]

theorem integerValue_smallestUnsigned (low : 0 ≤ value) (high : value ≤ 2 ^ 64 - 1) :
    integerValue (smallestUnsigned value) = some value := by
  unfold smallestUnsigned
  split_ifs with byte short long
  · exact congrArg some (toNat_ofInt low (by omega))
  · exact congrArg some (toNat_ofInt low (by omega))
  · exact congrArg some (toNat_ofInt low (by omega))
  · exact congrArg some (toNat_ofInt low (by omega))

theorem integerValue_inferNegative (low : -2 ^ 63 ≤ value) (high : value ≤ 0) :
    integerValue (inferNegative value) = some value := by
  unfold inferNegative
  split_ifs with byte short long
  · exact congrArg some (BitVec.toInt_ofInt_eq_self (by decide) byte (by omega))
  · exact congrArg some (BitVec.toInt_ofInt_eq_self (by decide) short (by omega))
  · exact congrArg some (BitVec.toInt_ofInt_eq_self (by decide) long (by omega))
  · exact congrArg some (BitVec.toInt_ofInt_eq_self (by decide) low (by omega))

theorem integerValue_int64 (low : -2 ^ 63 ≤ value) (high : value ≤ 2 ^ 63 - 1) :
    integerValue (.int64 (BitVec.ofInt 64 value)) = some value :=
  congrArg some (BitVec.toInt_ofInt_eq_self (by decide) low (by omega))

theorem integerValue_inferPositive (low : 0 ≤ value) (high : value ≤ 2 ^ 64 - 1) :
    integerValue (inferPositive value) = some value := by
  unfold inferPositive
  split_ifs with byte short long _ _ signed
  · exact congrArg some (toNat_ofInt low (by omega))
  · exact congrArg some (toNat_ofInt low (by omega))
  · exact congrArg some (toNat_ofInt low (by omega))
  · omega
  · omega
  · exact integerValue_int64 (by omega) signed
  · exact congrArg some (toNat_ofInt low (by omega))

end Inference

section Grammar

def unsigned : IntegerSuffix → Bool
  | .u | .ul | .ull => true
  | .none | .l | .ll => false

/-- The texts in front of a suffix: whether they have a minus sign, and the integer they denote. -/
inductive Body : List Byte → Bool → Int → Prop
  | decimal {digits : List Byte} (numeral : Numeral 10 digits) : Body digits false (denoted 10 digits)
  | negative {digits : List Byte} (numeral : Numeral 10 digits) :
      Body (char '-' :: digits) true (-(denoted 10 digits : Int))
  | hexadecimal {x : Byte} {digits : List Byte} (marked : x = char 'x' ∨ x = char 'X') (numeral : Numeral 16 digits) :
      Body (char '0' :: x :: digits) false (denoted 16 digits)

/-- The range of a literal: that of `uint64_t` for an unsigned one and for an unsuffixed one without a sign. -/
def InRange (suffix : IntegerSuffix) (minus : Bool) (value : Int) : Prop :=
  if unsigned suffix = true ∨ (suffix = .none ∧ minus = false) then 0 ≤ value ∧ value ≤ 2 ^ 64 - 1
  else -2 ^ 63 ≤ value ∧ value ≤ 2 ^ 63 - 1

/-- A literal of the grammar, with the integer that it denotes. -/
def IntegerLiteral (s : List Byte) (value : Int) : Prop :=
  ∃ body spelling suffix minus, s = body ++ spelling ∧ spelling ∈ suffix.spellings ∧ Body body minus value ∧
    (minus = true → unsigned suffix = false) ∧ InRange suffix minus value

/-- A minus sign behind the prefix: the sign is looked for before the prefix is removed. -/
def SignedHexadecimal (s : List Byte) (value : Int) : Prop :=
  ∃ (x : Byte) (digits spelling : List Byte) (suffix : IntegerSuffix),
    s = char '0' :: x :: char '-' :: digits ++ spelling ∧ (x = char 'x' ∨ x = char 'X') ∧ Numeral 16 digits ∧
      spelling ∈ suffix.spellings ∧ (suffix = .l ∨ suffix = .ll) ∧
      value = -(denoted 16 digits : Int) ∧ denoted 16 digits ≤ 2 ^ 63

end Grammar

section Reading

def readType (suffix : IntegerSuffix) (minus : Bool) : IntegerType :=
  match suffix with
  | .u | .ul | .ull => uint64
  | .l | .ll => int64
  | .none => if minus then int64 else uint64

def infer (suffix : IntegerSuffix) (minus : Bool) : Int → Number :=
  match suffix with
  | .u | .ul | .ull => smallestUnsigned
  | .l | .ll => fun value => .int64 (BitVec.ofInt 64 value)
  | .none => if minus then inferNegative else inferPositive

theorem orOutOfRange_eq_ok_iff {what : String} {infer : Int → Number} {read : Option Int} {number : Number} :
    orOutOfRange what infer read = .ok number ↔ ∃ value, read = some value ∧ number = infer value := by
  cases read with
  | none => simp [orOutOfRange]
  | some value => simp [orOutOfRange, eq_comm]

theorem inRange_iff (suffix : IntegerSuffix) (minus : Bool) (value : Int) :
    InRange suffix minus value ↔ (readType suffix minus).lowest ≤ value ∧ value ≤ (readType suffix minus).highest := by
  cases suffix <;> cases minus <;> simp [InRange, unsigned, readType, uint64, int64]

theorem integerValue_infer {suffix : IntegerSuffix} {minus : Bool} {value : Int}
    (inRange : InRange suffix minus value) (sign : minus = true → value ≤ 0) :
    integerValue (infer suffix minus value) = some value := by
  rw [inRange_iff] at inRange
  obtain ⟨low, high⟩ := inRange
  cases suffix with
  | none =>
    cases minus with
    | false => exact integerValue_inferPositive low high
    | true => exact integerValue_inferNegative low (sign rfl)
  | u | ul | ull => exact integerValue_smallestUnsigned low high
  | l | ll => exact integerValue_int64 low high

def Prefixed (body : List Byte) : Prop := ∃ x digits, body = char '0' :: x :: digits ∧ (x = char 'x' ∨ x = char 'X')

theorem prefixed_iff (body : List Byte) :
    Prefixed body ↔
      2 ≤ body.length ∧ body[0]? = some (char '0') ∧ (body[1]? = some (char 'x') ∨ body[1]? = some (char 'X')) := by
  constructor
  · rintro ⟨x, digits, rfl, marked⟩
    simp [marked]
  · rcases body with _ | ⟨first, _ | ⟨x, digits⟩⟩
    · simp
    · simp
    · rintro ⟨-, zero, marked⟩
      exact ⟨x, digits, by simpa using zero, by simpa using marked⟩

def Reads (s : List Byte) (value : Int) : Prop :=
  ∃ number, parseIntegerNumber s = .ok number ∧ integerValue number = some value

theorem reads_iff {s : List Byte} {read : Option Int} {suffix : IntegerSuffix} {minus : Bool}
    (result : ∃ what, parseIntegerNumber s = orOutOfRange what (infer suffix minus) read)
    (exactly : ∀ value, read = some value → integerValue (infer suffix minus value) = some value) (value : Int) :
    Reads s value ↔ read = some value := by
  obtain ⟨what, result⟩ := result
  simp only [Reads, result, orOutOfRange_eq_ok_iff]
  constructor
  · rintro ⟨_, ⟨other, parsed, rfl⟩, same⟩
    rw [exactly other parsed] at same
    exact parsed.trans same
  · exact fun parsed => ⟨_, ⟨value, parsed, rfl⟩, exactly value parsed⟩

section Removed
variable {s body : List Byte} {suffix : IntegerSuffix} (removed : removeSuffix s = (body, suffix))
include removed

/-- The error for a negative hexadecimal literal is never thrown: no text starts with `0` and with `-`. -/
theorem parseIntegerNumber_prefixed {x : Byte} {digits : List Byte} (shape : body = char '0' :: x :: digits)
    (marked : x = char 'x' ∨ x = char 'X') :
    ∃ what, parseIntegerNumber s =
      orOutOfRange what (infer suffix false) (parseInteger (readType suffix false) digits 16) := by
  have hexadecimal := (prefixed_iff body).mp ⟨x, digits, shape, marked⟩
  have positive : body.head? ≠ some (char '-') := by
    rw [shape, List.head?_cons]
    decide
  simp only [parseIntegerNumber, removed, hexadecimal, positive, and_self, and_false, if_true, if_false]
  rw [shape, List.drop_succ_cons, List.drop_succ_cons, List.drop_zero]
  cases suffix <;> exact ⟨_, rfl⟩

theorem parseIntegerNumber_unprefixed (unprefixed : ¬Prefixed body) :
    ∃ what, parseIntegerNumber s =
      orOutOfRange what (infer suffix (body.head? = some (char '-')))
        (parseInteger (readType suffix (body.head? = some (char '-'))) body 10) := by
  rw [prefixed_iff] at unprefixed
  simp only [parseIntegerNumber, removed, unprefixed, false_and, if_false]
  by_cases minus : body.head? = some (char '-')
  · simp only [minus, if_true, decide_true]
    cases suffix <;> exact ⟨_, rfl⟩
  · simp only [minus, if_false, decide_false]
    cases suffix <;> exact ⟨_, rfl⟩

theorem reads_prefixed_iff {x : Byte} {digits : List Byte} (shape : body = char '0' :: x :: digits)
    (marked : x = char 'x' ∨ x = char 'X') (value : Int) :
    Reads s value ↔ parseInteger (readType suffix false) digits 16 = some value := by
  apply reads_iff (parseIntegerNumber_prefixed removed shape marked)
  intro value parsed
  apply integerValue_infer _ (fun minus => absurd minus Bool.false_ne_true)
  rw [inRange_iff]
  rcases (parseInteger_eq_some_iff _ _ _ _).mp parsed with ⟨-, -, fits⟩ | ⟨-, _, -, -, -, fits⟩
  · exact fits
  · exact fits

theorem reads_unprefixed_iff (unprefixed : ¬Prefixed body) (value : Int) :
    Reads s value ↔ parseInteger (readType suffix (body.head? = some (char '-'))) body 10 = some value := by
  apply reads_iff (parseIntegerNumber_unprefixed removed unprefixed)
  intro value parsed
  rcases (parseInteger_eq_some_iff _ _ _ _).mp parsed with ⟨numeral, -, fits⟩ | ⟨-, digits, rfl, -, denotes, fits⟩
  · apply integerValue_infer ((inRange_iff _ _ _).mpr fits)
    intro minus
    obtain ⟨rest, rfl⟩ := List.head?_eq_some_iff.mp (of_decide_eq_true minus)
    exact absurd numeral (not_numeral_minus 10 rest)
  · apply integerValue_infer ((inRange_iff _ _ _).mpr fits)
    intro _
    omega

end Removed

end Reading

section Exactness
variable {s : List Byte} {value : Int}

theorem plain_append {base : Nat} (small : base ≤ 16) {digits : List Byte} (numeral : Numeral base digits)
    (front : List Byte) : ∀ letter ∈ suffixLetters, (front ++ digits).getLast? ≠ some letter := by
  intro letter member last
  rw [List.getLast?_append_of_ne_nil _ numeral.nonempty] at last
  have digit := isDigit_of_le small (numeral.digit letter (List.mem_of_getLast? last))
  have others : ∀ letter ∈ suffixLetters, isDigit 16 letter.toNat = false := by decide
  exact Bool.false_ne_true ((others letter member).symm.trans digit)

theorem not_prefixed_of_numeral (numeral : Numeral 10 s) : ¬Prefixed s := by
  rintro ⟨x, digits, rfl, marked⟩
  have digit := (isDigit_ten_iff x.toNat).mp (numeral.digit x (by simp))
  have others : ∀ x, x = char 'x' ∨ x = char 'X' → ¬(48 ≤ x.toNat ∧ x.toNat ≤ 57) := by
    rintro _ (rfl | rfl) <;> decide
  exact others x marked digit

theorem not_prefixed_minus (digits : List Byte) : ¬Prefixed (char '-' :: digits) := by
  rintro ⟨x, rest, same, -⟩
  exact absurd (List.cons.inj same).1 (by decide)

theorem head_ne_minus_of_numeral {base : Nat} (numeral : Numeral base s) : s.head? ≠ some (char '-') := by
  intro minus
  obtain ⟨rest, rfl⟩ := List.head?_eq_some_iff.mp minus
  exact not_numeral_minus base rest numeral

/-- What is read is a literal of the grammar, or has its minus sign in the wrong place. -/
theorem literal_of_reads (reads : Reads s value) : IntegerLiteral s value ∨ SignedHexadecimal s value := by
  rcases removed : removeSuffix s with ⟨body, suffix⟩
  obtain ⟨spelling, spelled, split⟩ := removeSuffix_spelling removed
  by_cases marked : Prefixed body
  · obtain ⟨x, digits, shape, marked⟩ := marked
    rcases (parseInteger_eq_some_iff _ _ _ _).mp ((reads_prefixed_iff removed shape marked value).mp reads) with
      ⟨numeral, rfl, fits⟩ | ⟨signed, rest, rfl, numeral, denotes, fits⟩
    · refine .inl ⟨body, spelling, suffix, false, split, spelled, ?_, nofun, (inRange_iff _ _ _).mpr fits⟩
      rw [shape]
      exact .hexadecimal marked numeral
    · have long : suffix = .l ∨ suffix = .ll := by cases suffix <;> simp [readType, uint64] at signed ⊢
      refine .inr ⟨x, rest, spelling, suffix, by rw [split, shape], marked, numeral, spelled, long, denotes, ?_⟩
      have low : -2 ^ 63 ≤ value := by rcases long with rfl | rfl <;> exact fits.1
      omega
  · rcases (parseInteger_eq_some_iff _ _ _ _).mp ((reads_unprefixed_iff removed marked value).mp reads) with
      ⟨numeral, rfl, fits⟩ | ⟨signed, rest, rfl, numeral, rfl, fits⟩
    · rw [decide_eq_false (head_ne_minus_of_numeral numeral)] at fits
      exact .inl ⟨body, spelling, suffix, false, split, spelled, .decimal numeral, nofun, (inRange_iff _ _ _).mpr fits⟩
    · refine .inl ⟨_, spelling, suffix, true, split, spelled, .negative numeral, fun _ => ?_, (inRange_iff _ _ _).mpr fits⟩
      cases suffix <;> simp [readType, uint64, unsigned] at signed ⊢

theorem reads_of_literal (literal : IntegerLiteral s value) : Reads s value := by
  obtain ⟨body, spelling, suffix, minus, rfl, spelled, shape, sign, inRange⟩ := literal
  cases shape with
  | decimal numeral =>
    have removed := removeSuffix_append_spelling (plain_append (by decide) numeral []) spelled
    apply (reads_unprefixed_iff removed (not_prefixed_of_numeral numeral) _).mpr
    rw [List.nil_append, decide_eq_false (head_ne_minus_of_numeral numeral)]
    exact (parseInteger_eq_some_iff _ _ _ _).mpr (.inl ⟨numeral, rfl, (inRange_iff _ _ _).mp inRange⟩)
  | @negative digits numeral =>
    have removed := removeSuffix_append_spelling (plain_append (by decide) numeral [char '-']) spelled
    apply (reads_unprefixed_iff removed (not_prefixed_minus digits) _).mpr
    have signed : (readType suffix true).lowest < 0 := by
      have plain := sign rfl
      cases suffix <;> simp [unsigned, readType, int64] at plain ⊢
    exact (parseInteger_eq_some_iff _ _ _ _).mpr
      (.inr ⟨signed, digits, rfl, numeral, rfl, (inRange_iff _ _ _).mp inRange⟩)
  | @hexadecimal x digits marked numeral =>
    have removed := removeSuffix_append_spelling (plain_append (by decide) numeral [char '0', x]) spelled
    apply (reads_prefixed_iff removed rfl marked _).mpr
    exact (parseInteger_eq_some_iff _ _ _ _).mpr (.inl ⟨numeral, rfl, (inRange_iff _ _ _).mp inRange⟩)

theorem reads_of_signedHexadecimal (signed : SignedHexadecimal s value) : Reads s value := by
  obtain ⟨x, digits, spelling, suffix, rfl, marked, numeral, spelled, long, rfl, small⟩ := signed
  have removed := removeSuffix_append_spelling (plain_append (by decide) numeral [char '0', x, char '-']) spelled
  apply (reads_prefixed_iff removed rfl marked _).mpr
  apply (parseInteger_eq_some_iff _ _ _ _).mpr
  have type : readType suffix false = int64 := by rcases long with rfl | rfl <;> rfl
  rw [type]
  have low : -2 ^ 63 ≤ -(denoted 16 digits : Int) := by omega
  have high : -(denoted 16 digits : Int) ≤ 2 ^ 63 - 1 := by omega
  exact .inr ⟨by decide, digits, rfl, numeral, rfl, low, high⟩

theorem minus_notMem_tail (literal : IntegerLiteral s value) : char '-' ∉ s.tail := by
  obtain ⟨body, spelling, suffix, minus, rfl, spelled, shape, -, -⟩ := literal
  have unspelled : char '-' ∉ spelling := by
    have letters : ∀ spelling ∈ suffix.spellings, char '-' ∉ spelling := by cases suffix <;> decide
    exact letters spelling spelled
  have undigit {base : Nat} {digits : List Byte} (numeral : Numeral base digits) : char '-' ∉ digits := fun member =>
    Bool.false_ne_true ((isDigit_minus base).symm.trans (numeral.digit _ member))
  cases shape with
  | decimal numeral =>
    intro member
    rcases List.mem_append.mp (List.mem_of_mem_tail member) with digit | letter
    · exact undigit numeral digit
    · exact unspelled letter
  | negative numeral => simp [undigit numeral, unspelled]
  | @hexadecimal x digits marked numeral =>
    have mark : char '-' ≠ x := by rcases marked with rfl | rfl <;> decide
    simp [undigit numeral, unspelled, mark]

theorem exists_integerValue_infer (suffix : IntegerSuffix) (minus : Bool) (value : Int) :
    ∃ other, integerValue (infer suffix minus value) = some other := by
  cases suffix with
  | none =>
    cases minus with
    | false =>
      simp only [infer, inferPositive, Bool.false_eq_true, if_false]
      split_ifs <;> exact ⟨_, rfl⟩
    | true =>
      simp only [infer, inferNegative, if_true]
      split_ifs <;> exact ⟨_, rfl⟩
  | u | ul | ull =>
    simp only [infer, smallestUnsigned]
    split_ifs <;> exact ⟨_, rfl⟩
  | l | ll => exact ⟨_, rfl⟩

theorem exists_integerValue {number : Number} (parsed : parseIntegerNumber s = .ok number) :
    ∃ value, integerValue number = some value := by
  rcases removed : removeSuffix s with ⟨body, suffix⟩
  obtain ⟨minus, what, read, result⟩ : ∃ minus what read, parseIntegerNumber s =
      orOutOfRange what (infer suffix minus) read := by
    by_cases marked : Prefixed body
    · obtain ⟨x, digits, shape, marked⟩ := marked
      obtain ⟨what, result⟩ := parseIntegerNumber_prefixed removed shape marked
      exact ⟨_, what, _, result⟩
    · obtain ⟨what, result⟩ := parseIntegerNumber_unprefixed removed marked
      exact ⟨_, what, _, result⟩
  obtain ⟨value, -, rfl⟩ := orOutOfRange_eq_ok_iff.mp (result.symm.trans parsed)
  exact exists_integerValue_infer suffix minus value

/-- `parse_integer_number` returns on the literals of the grammar only, and then with the integer they denote. -/
def FollowsGrammar (s : List Byte) : Prop :=
  ((∃ number, parseIntegerNumber s = .ok number) ↔ ∃ value, IntegerLiteral s value) ∧
    ∀ number value, parseIntegerNumber s = .ok number → IntegerLiteral s value → integerValue number = some value

/-- The grammar is followed but for a minus sign that hides behind the hexadecimal prefix. -/
theorem follows_grammar_iff (s : List Byte) : FollowsGrammar s ↔ ¬∃ value, SignedHexadecimal s value := by
  constructor
  · rintro ⟨returns, -⟩ ⟨value, signed⟩
    obtain ⟨number, parsed, -⟩ := reads_of_signedHexadecimal signed
    obtain ⟨other, literal⟩ := returns.mp ⟨number, parsed⟩
    obtain ⟨x, digits, spelling, suffix, rfl, -⟩ := signed
    exact minus_notMem_tail literal (by simp)
  · intro unsigned
    refine ⟨⟨?_, ?_⟩, ?_⟩
    · rintro ⟨number, parsed⟩
      obtain ⟨value, holds⟩ := exists_integerValue parsed
      rcases literal_of_reads ⟨number, parsed, holds⟩ with literal | signed
      · exact ⟨value, literal⟩
      · exact absurd ⟨value, signed⟩ unsigned
    · rintro ⟨value, literal⟩
      obtain ⟨number, parsed, -⟩ := reads_of_literal literal
      exact ⟨number, parsed⟩
    · intro number value parsed literal
      obtain ⟨other, read, holds⟩ := reads_of_literal literal
      rw [parsed] at read
      cases read
      exact holds

/-- Read as minus five, although the code means to refuse a negative hexadecimal literal. -/
theorem negative_hexadecimal_read :
    parseIntegerNumber (text "0x-5L") = .ok (.int64 (BitVec.ofInt 64 (-5))) ∧ ¬FollowsGrammar (text "0x-5L") := by
  have read : parseIntegerNumber (text "0x-5L") = .ok (.int64 (BitVec.ofInt 64 (-5))) := by decide
  refine ⟨read, fun follows => ?_⟩
  obtain ⟨value, literal⟩ := follows.1.mp ⟨_, read⟩
  exact minus_notMem_tail literal (by decide)

end Exactness

section Hexadecimal
variable (conversions : Conversions)

theorem parseNumber_of_unmarked {s : List Byte} (nonempty : s ≠ [])
    (unmarked : s.getLast? ≠ some (char 'f') ∧ s.getLast? ≠ some (char 'F') ∧ char '.' ∉ s ∧ char 'e' ∉ s ∧ char 'E' ∉ s) :
    parseNumber conversions s = parseIntegerNumber s := by
  obtain ⟨lower, upper, point, small, large⟩ := unmarked
  simp only [parseNumber, nonempty, lower, upper, point, small, large, or_self, if_false]

theorem integerValue_of_marked {s : List Byte} {number : Number}
    (marked : s.getLast? = some (char 'f') ∨ s.getLast? = some (char 'F') ∨ char 'e' ∈ s ∨ char 'E' ∈ s)
    (parsed : parseNumber conversions s = .ok number) : integerValue number = none := by
  unfold parseNumber at parsed
  split_ifs at parsed with empty float double
  · split at parsed
    · cases parsed
      rfl
    · cases parsed
  · split at parsed
    · cases parsed
      rfl
    · cases parsed
  · tauto

/-- A hexadecimal literal is read as the integer that its digits denote, with either prefix. -/
def ReadsHexadecimal (digits : List Byte) : Prop :=
  ∀ x, x = char 'x' ∨ x = char 'X' →
    ∃ number, parseNumber conversions (char '0' :: x :: digits) = .ok number ∧
      integerValue number = some (denoted 16 digits : Int)

/-- The marks of a floating-point literal are looked for before the prefix, and are hexadecimal digits too. -/
theorem hexadecimal_read_iff {digits : List Byte} (numeral : Numeral 16 digits) (small : denoted 16 digits < 2 ^ 64) :
    ReadsHexadecimal conversions digits ↔
      digits.getLast? ≠ some (char 'f') ∧ digits.getLast? ≠ some (char 'F') ∧ char 'e' ∉ digits ∧ char 'E' ∉ digits := by
  have last (x : Byte) : (char '0' :: x :: digits).getLast? = digits.getLast? :=
    List.getLast?_append_of_ne_nil [char '0', x] numeral.nonempty
  constructor
  · intro reads
    obtain ⟨number, parsed, holds⟩ := reads (char 'x') (.inl rfl)
    by_contra marked
    have none : integerValue number = none := by
      apply integerValue_of_marked conversions _ parsed
      rw [last]
      simp only [List.mem_cons]
      tauto
    rw [none] at holds
    cases holds
  · rintro ⟨lower, upper, little, big⟩ x marked
    have others : char '.' ≠ x ∧ char 'e' ≠ x ∧ char 'E' ≠ x := by rcases marked with rfl | rfl <;> decide
    have point : char '.' ∉ digits := fun member =>
      absurd (numeral.digit _ member) (by decide)
    rw [parseNumber_of_unmarked conversions (List.cons_ne_nil _ _)]
    · apply reads_of_literal
      refine ⟨char '0' :: x :: digits, [], .none, false, by simp, List.mem_singleton_self [], .hexadecimal marked numeral,
        nofun, ?_⟩
      rw [inRange_iff]
      exact ⟨Int.natCast_nonneg _, by simp [readType, uint64]; omega⟩
    · rw [last]
      refine ⟨lower, upper, ?_, ?_, ?_⟩
      · simp [point, others.1, show char '.' ≠ char '0' by decide]
      · simp [little, others.2.1, show char 'e' ≠ char '0' by decide]
      · simp [big, others.2.2, show char 'E' ≠ char '0' by decide]

end Hexadecimal

def thirtyConversions : Conversions where
  strtof _ := (0, 0)
  strtod s := if s = text "0x1e" then (0x403E000000000000, 4) else (0, 0)

theorem hexadecimal_read_ff2a : ReadsHexadecimal thirtyConversions (text "Ff2a") :=
  (hexadecimal_read_iff thirtyConversions ⟨by decide, by decide⟩ (by decide)).mpr (by decide)

theorem hexadecimal_read_as_double :
    parseNumber thirtyConversions (text "0x1e") = .ok (.double 0x403E000000000000) ∧
      ¬ReadsHexadecimal thirtyConversions (text "1e") := by
  have double : parseNumber thirtyConversions (text "0x1e") = .ok (.double 0x403E000000000000) := by decide
  refine ⟨double, fun reads => ?_⟩
  obtain ⟨number, parsed, holds⟩ := reads (char 'x') (.inl rfl)
  cases double.symm.trans parsed
  cases holds

section Decimal

inductive DecimalSpelling : List Byte → Int → Prop
  | positive {digits : List Byte} (numeral : Numeral 10 digits) : DecimalSpelling digits (denoted 10 digits)
  | negative {digits : List Byte} (numeral : Numeral 10 digits) :
      DecimalSpelling (char '-' :: digits) (-(denoted 10 digits : Int))

theorem decimal_of_numeral {digits : List Byte} (numeral : Numeral 10 digits) : Decimal digits :=
  fun character member => (isDigit_ten_iff character.toNat).mp (numeral.digit character member)

theorem parseNumber_negative (conversions : Conversions) {digits : List Byte} (numeral : Numeral 10 digits)
    (small : denoted 10 digits ≤ 2 ^ 63) :
    parseNumber conversions (char '-' :: digits) = .ok (inferNegative (-(denoted 10 digits : Int))) := by
  have decimal := decimal_of_numeral numeral
  have last : (char '-' :: digits).getLast? = digits.getLast? :=
    List.getLast?_append_of_ne_nil [char '-'] numeral.nonempty
  have unmarked (letter : Byte) (other : ¬(48 ≤ letter.toNat ∧ letter.toNat ≤ 57)) : digits.getLast? ≠ some letter :=
    fun same => decimal.notMem letter other (List.mem_of_getLast? same)
  have absent (letter : Byte) (other : ¬(48 ≤ letter.toNat ∧ letter.toNat ≤ 57)) (sign : letter ≠ char '-') :
      letter ∉ char '-' :: digits := by
    simp [sign, decimal.notMem letter other]
  have removed : removeSuffix (char '-' :: digits) = (char '-' :: digits, .none) := by
    have whole := removeSuffix_append_spelling (plain_append (by decide) numeral [char '-'])
      (show [] ∈ IntegerSuffix.none.spellings from List.mem_singleton_self [])
    rwa [List.append_nil] at whole
  obtain ⟨what, result⟩ := parseIntegerNumber_unprefixed removed (not_prefixed_minus digits)
  have low : -2 ^ 63 ≤ -(denoted 10 digits : Int) := by omega
  have high : -(denoted 10 digits : Int) ≤ 2 ^ 63 - 1 := by omega
  have read : parseInteger int64 (char '-' :: digits) 10 = some (-(denoted 10 digits : Int)) :=
    (parseInteger_eq_some_iff _ _ _ _).mpr (.inr ⟨by decide, digits, rfl, numeral, rfl, low, high⟩)
  rw [parseNumber_of_unmarked conversions (List.cons_ne_nil _ _)]
  · rw [result]
    exact congrArg (orOutOfRange what inferNegative) read
  · rw [last]
    exact ⟨unmarked _ (by decide), unmarked _ (by decide), absent _ (by decide) (by decide),
      absent _ (by decide) (by decide), absent _ (by decide) (by decide)⟩

section Size
variable {number other : Number} {value : Int} {size least : Nat}

theorem bounds_of_integerValue (holds : integerValue number = some value)
    (sized : (getNumberType number).size = some size) :
    size ∈ [1, 2, 4, 8] ∧ -2 ^ (8 * size - 1) ≤ value ∧ value < 2 ^ (8 * size) := by
  have signed {width : Nat} (bits : BitVec width) : -2 ^ (width - 1) ≤ bits.toInt ∧ bits.toInt < 2 ^ width :=
    ⟨BitVec.le_toInt bits, BitVec.toInt_lt.trans_le (pow_le_pow_right₀ (by norm_num) (Nat.sub_le _ _))⟩
  have unsigned {width : Nat} (bits : BitVec width) :
      -2 ^ (width - 1) ≤ (bits.toNat : Int) ∧ (bits.toNat : Int) < 2 ^ width :=
    ⟨(neg_nonpos.mpr (by positivity)).trans (Int.natCast_nonneg _), by exact_mod_cast bits.isLt⟩
  cases number with
  | int8 bits | int16 bits | int32 bits | int64 bits =>
    cases holds
    cases sized
    exact ⟨by decide, signed bits⟩
  | uint8 bits | uint16 bits | uint32 bits | uint64 bits =>
    cases holds
    cases sized
    exact ⟨by decide, unsigned bits⟩
  | float bits | double bits => cases holds

theorem least_inferPositive (sized : (getNumberType (inferPositive value)).size = some least)
    (possible : size ∈ [1, 2, 4, 8]) (fits : value < 2 ^ (8 * size)) : least ≤ size := by
  simp only [List.mem_cons, List.not_mem_nil, or_false] at possible
  unfold inferPositive at sized
  split_ifs at sized <;> simp only [getNumberType, NumberType.size, Option.some.injEq] at sized <;> subst sized <;>
    rcases possible with rfl | rfl | rfl | rfl <;> omega

theorem least_inferNegative (sized : (getNumberType (inferNegative value)).size = some least)
    (possible : size ∈ [1, 2, 4, 8]) (fits : -2 ^ (8 * size - 1) ≤ value) : least ≤ size := by
  simp only [List.mem_cons, List.not_mem_nil, or_false] at possible
  unfold inferNegative at sized
  split_ifs at sized <;> simp only [getNumberType, NumberType.size, Option.some.injEq] at sized <;> subst sized <;>
    rcases possible with rfl | rfl | rfl | rfl <;> omega

end Size

/-- No integer alternative that can represent the value is smaller than this one. -/
def Smallest (number : Number) (value : Int) : Prop :=
  ∃ least, (getNumberType number).size = some least ∧
    ∀ other size, integerValue other = some value → (getNumberType other).size = some size → least ≤ size

theorem smallest_of_least {number : Number} {value : Int}
    (small : ∀ least size, (getNumberType number).size = some least → size ∈ [1, 2, 4, 8] →
      -2 ^ (8 * size - 1) ≤ value → value < 2 ^ (8 * size) → least ≤ size) : Smallest number value := by
  obtain ⟨least, sized⟩ : ∃ least, (getNumberType number).size = some least := by cases number <;> exact ⟨_, rfl⟩
  refine ⟨least, sized, fun other size holds otherSized => ?_⟩
  obtain ⟨possible, low, high⟩ := bounds_of_integerValue holds otherSized
  exact small least size sized possible low high

theorem spelling_decimalInt (value : Int) : DecimalSpelling (decimalInt value) value := by
  have numeral (number : Nat) : Numeral 10 (decimal number) :=
    ⟨decimal_ne_nil number, fun character member => (isDigit_ten_iff _).mpr (decimal_decimal number character member)⟩
  have value_eq (number : Nat) : denoted 10 (decimal number) = number := by
    rw [denoted, map_toNat_decimal, evaluate_toDigits]
  unfold decimalInt
  split_ifs with negative
  · have spelled := DecimalSpelling.negative (numeral value.natAbs)
    rwa [value_eq, show -(value.natAbs : Int) = value by omega] at spelled
  · have spelled := DecimalSpelling.positive (numeral value.natAbs)
    rwa [value_eq, show (value.natAbs : Int) = value by omega] at spelled

theorem numberToString_of_integerValue (printing : Printing) {number : Number} {value : Int}
    (holds : integerValue number = some value) : numberToString printing number = decimalInt value := by
  cases number <;> cases holds <;> rfl

/-- A decimal spelling is read exactly and as the smallest type, and what is printed for an integer is one. -/
theorem decimal_inferred (conversions : Conversions) (printing : Printing) :
    (∀ s value, DecimalSpelling s value → -2 ^ 63 ≤ value → value ≤ 2 ^ 64 - 1 →
      ∃ number, parseNumber conversions s = .ok number ∧ integerValue number = some value ∧ Smallest number value) ∧
    ∀ number value, integerValue number = some value →
      ∃ read, parseNumber conversions (numberToString printing number) = .ok read ∧ integerValue read = some value := by
  have inferred (s : List Byte) (value : Int) (spelled : DecimalSpelling s value) (low : -2 ^ 63 ≤ value)
      (high : value ≤ 2 ^ 64 - 1) :
      ∃ number, parseNumber conversions s = .ok number ∧ integerValue number = some value ∧ Smallest number value := by
    cases spelled with
    | positive numeral =>
      have parsed := (decimal_of_numeral numeral).parseNumber_eq conversions numeral.nonempty
        (show denoted 10 s < 2 ^ 64 by omega)
      exact ⟨_, parsed, integerValue_inferPositive (Int.natCast_nonneg _) high,
        smallest_of_least fun least size sized possible _ fits => least_inferPositive sized possible fits⟩
    | negative numeral =>
      exact ⟨_, parseNumber_negative conversions numeral (by omega), integerValue_inferNegative low (by omega),
        smallest_of_least fun least size sized possible fits _ => least_inferNegative sized possible fits⟩
  refine ⟨inferred, fun number value holds => ?_⟩
  obtain ⟨size, sized⟩ : ∃ size, (getNumberType number).size = some size := by cases number <;> exact ⟨_, rfl⟩
  obtain ⟨possible, low, high⟩ := bounds_of_integerValue holds sized
  have bounds : -2 ^ 63 ≤ value ∧ value ≤ 2 ^ 64 - 1 := by
    simp only [List.mem_cons, List.not_mem_nil, or_false] at possible
    rcases possible with rfl | rfl | rfl | rfl <;> omega
  rw [numberToString_of_integerValue printing holds]
  obtain ⟨read, parsed, same, -⟩ := inferred _ value (spelling_decimalInt value) bounds.1 bounds.2
  exact ⟨read, parsed, same⟩

theorem decimal_inferred_leading_zeros :
    (∃ number, parseNumber thirtyConversions (text "-00129") = .ok number ∧ integerValue number = some (-129) ∧
      Smallest number (-129)) ∧
    ∃ read, parseNumber thirtyConversions (numberToString { float _ := [], double _ := [] } (.int16 300)) = .ok read ∧
      integerValue read = some 300 :=
  have inferred := decimal_inferred thirtyConversions { float _ := [], double _ := [] }
  ⟨inferred.1 _ _ (DecimalSpelling.negative (show Numeral 10 (text "00129") from ⟨by decide, by decide⟩)) (by decide) (by decide),
    inferred.2 (.int16 300) 300 (by decide)⟩

end Decimal

end Communo.IntegerLiterals
