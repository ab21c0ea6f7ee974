import Mathlib

/-! Fixed-width values as byte strings, in either byte order. The value is a
natural number, so that every width is covered by one round trip. -/

namespace Communo.Lib.ByteCodec

abbrev Byte := BitVec 8

inductive ByteOrder where
  | little
  | big
  deriving DecidableEq, Repr

def littleBytes : (count : Nat) → Nat → List Byte
  | 0, _ => []
  | count + 1, value => BitVec.ofNat 8 value :: littleBytes count (value / 256)

def littleValue : List Byte → Nat
  | [] => 0
  | byte :: rest => byte.toNat + 256 * littleValue rest

def toBytes (order : ByteOrder) (count value : Nat) : List Byte :=
  match order with
  | .little => littleBytes count value
  | .big => (littleBytes count value).reverse

def ofBytes (order : ByteOrder) (bytes : List Byte) : Nat :=
  match order with
  | .little => littleValue bytes
  | .big => littleValue bytes.reverse

theorem littleBytes_length (count value : Nat) : (littleBytes count value).length = count := by
  induction count generalizing value with
  | zero => rfl
  | succ count ih => simp [littleBytes, ih]

@[simp]
theorem toBytes_length (order : ByteOrder) (count value : Nat) :
    (toBytes order count value).length = count := by
  cases order <;> simp [toBytes, littleBytes_length]

theorem littleValue_littleBytes (count value : Nat) (bound : value < 256 ^ count) :
    littleValue (littleBytes count value) = value := by
  induction count generalizing value with
  | zero =>
    simp only [pow_zero] at bound
    simp only [littleBytes, littleValue]
    omega
  | succ count ih =>
    have tail : value / 256 < 256 ^ count := by
      rw [Nat.div_lt_iff_lt_mul (by decide)]
      simpa only [pow_succ] using bound
    simp only [littleBytes, littleValue, BitVec.toNat_ofNat, ih _ tail]
    omega

theorem ofBytes_toBytes (order : ByteOrder) (count value : Nat) (bound : value < 256 ^ count) :
    ofBytes order (toBytes order count value) = value := by
  cases order <;> simp [ofBytes, toBytes, littleValue_littleBytes count value bound]

theorem ofNat_ofBytes_toBytes (order : ByteOrder) (count : Nat) {width : Nat} (value : BitVec width)
    (wide : 2 ^ width ≤ 256 ^ count) :
    BitVec.ofNat width (ofBytes order (toBytes order count value.toNat)) = value := by
  rw [ofBytes_toBytes order count value.toNat (lt_of_lt_of_le value.isLt wide), BitVec.ofNat_toNat,
    BitVec.setWidth_eq]

theorem littleValue_lt (bytes : List Byte) : littleValue bytes < 256 ^ bytes.length := by
  induction bytes with
  | nil => simp [littleValue]
  | cons byte rest ih =>
    have low := byte.isLt
    rw [littleValue, List.length_cons, pow_succ]
    omega

theorem littleBytes_littleValue (bytes : List Byte) : littleBytes bytes.length (littleValue bytes) = bytes := by
  induction bytes with
  | nil => rfl
  | cons byte rest ih =>
    have low := byte.isLt
    have head : BitVec.ofNat 8 (byte.toNat + 256 * littleValue rest) = byte := by
      apply BitVec.eq_of_toNat_eq
      rw [BitVec.toNat_ofNat]
      omega
    have tail : (byte.toNat + 256 * littleValue rest) / 256 = littleValue rest := by omega
    rw [littleValue, List.length_cons, littleBytes, head, tail, ih]

theorem ofBytes_lt (order : ByteOrder) (bytes : List Byte) : ofBytes order bytes < 256 ^ bytes.length := by
  cases order with
  | little => exact littleValue_lt bytes
  | big => simpa only [ofBytes, List.length_reverse] using littleValue_lt bytes.reverse

theorem toBytes_ofBytes (order : ByteOrder) (bytes : List Byte) :
    toBytes order bytes.length (ofBytes order bytes) = bytes := by
  cases order with
  | little => exact littleBytes_littleValue bytes
  | big =>
    have reversed := littleBytes_littleValue bytes.reverse
    rw [List.length_reverse] at reversed
    rw [toBytes, ofBytes, reversed, List.reverse_reverse]

theorem toBytes_ofNat_ofBytes (order : ByteOrder) {width : Nat} (bytes : List Byte)
    (wide : 256 ^ bytes.length ≤ 2 ^ width) :
    toBytes order bytes.length (BitVec.ofNat width (ofBytes order bytes)).toNat = bytes := by
  rw [BitVec.toNat_ofNat, Nat.mod_eq_of_lt (lt_of_lt_of_le (ofBytes_lt order bytes) wide), toBytes_ofBytes]

end Communo.Lib.ByteCodec
