import Communo.Protocol

/-! The tagged numbers of an addition request. Every alternative is kept as its
bit pattern, so one byte codec serves integers and floating-point values. -/

namespace Communo.NumParser
open Lib.ByteCodec Lib.CheckedMemory

inductive Exn where
  | runtimeError (what : String)
  | outOfRange
  | lengthError
  deriving DecidableEq, Repr

inductive Number where
  | int8 (bits : BitVec 8)
  | uint8 (bits : BitVec 8)
  | int16 (bits : BitVec 16)
  | uint16 (bits : BitVec 16)
  | int32 (bits : BitVec 32)
  | uint32 (bits : BitVec 32)
  | int64 (bits : BitVec 64)
  | uint64 (bits : BitVec 64)
  | float (bits : BitVec 32)
  | double (bits : BitVec 64)
  deriving DecidableEq, Repr

inductive NumberType where
  | int8
  | uint8
  | int16
  | uint16
  | int32
  | uint32
  | int64
  | uint64
  | float
  | double
  | unk
  deriving DecidableEq, Repr

def NumberType.code : NumberType → Byte
  | .int8 => 0
  | .uint8 => 1
  | .int16 => 2
  | .uint16 => 3
  | .int32 => 4
  | .uint32 => 5
  | .int64 => 6
  | .uint64 => 7
  | .float => 8
  | .double => 9
  | .unk => 10

/-- `static_cast<eNumberTypes>` of a received byte. Values past the last
enumerator reach the same `default` label as `N_UNK`. -/
def NumberType.ofByte (byte : Byte) : NumberType :=
  match byte.toNat with
  | 0 => .int8
  | 1 => .uint8
  | 2 => .int16
  | 3 => .uint16
  | 4 => .int32
  | 5 => .uint32
  | 6 => .int64
  | 7 => .uint64
  | 8 => .float
  | 9 => .double
  | _ => .unk

def NumberType.size : NumberType → Option Nat
  | .int8 | .uint8 => some 1
  | .int16 | .uint16 => some 2
  | .int32 | .uint32 | .float => some 4
  | .int64 | .uint64 | .double => some 8
  | .unk => none

def getNumberType : Number → NumberType
  | .int8 _ => .int8
  | .uint8 _ => .uint8
  | .int16 _ => .int16
  | .uint16 _ => .uint16
  | .int32 _ => .int32
  | .uint32 _ => .uint32
  | .int64 _ => .int64
  | .uint64 _ => .uint64
  | .float _ => .float
  | .double _ => .double

def Number.bytes (order : ByteOrder) : Number → List Byte
  | .int8 bits | .uint8 bits => toBytes order 1 bits.toNat
  | .int16 bits | .uint16 bits => toBytes order 2 bits.toNat
  | .int32 bits | .uint32 bits | .float bits => toBytes order 4 bits.toNat
  | .int64 bits | .uint64 bits | .double bits => toBytes order 8 bits.toNat

def appendNumber (order : ByteOrder) (replyStr : List Byte) (number : Number) : List Byte :=
  replyStr ++ number.bytes order

/-- The body shared by the ten cases of `read_number`: copy, advance, wrap. -/
def readAs (order : ByteOrder) (mem : Mem) (offset count : Nat) {width : Nat} (make : BitVec width → Number) :
    Checked Exn (Number × Nat) :=
  (readBytes mem offset count).bind fun bytes =>
    .ok (make (BitVec.ofNat width (ofBytes order bytes)), offset + count)

def readNumber (order : ByteOrder) (mem : Mem) (offset : Nat) : NumberType → Checked Exn (Number × Nat)
  | .int8 => readAs order mem offset 1 .int8
  | .uint8 => readAs order mem offset 1 .uint8
  | .int16 => readAs order mem offset 2 .int16
  | .uint16 => readAs order mem offset 2 .uint16
  | .int32 => readAs order mem offset 4 .int32
  | .uint32 => readAs order mem offset 4 .uint32
  | .int64 => readAs order mem offset 8 .int64
  | .uint64 => readAs order mem offset 8 .uint64
  | .float => readAs order mem offset 4 .float
  | .double => readAs order mem offset 8 .double
  | .unk => .error (.thrown (.runtimeError "Unknown number type"))

theorem ofByte_code (type : NumberType) : NumberType.ofByte type.code = type := by
  cases type <;> rfl

theorem readNumber_unk_of_size {type : NumberType} (unsized : type.size = none) (order : ByteOrder) (mem : Mem)
    (offset : Nat) :
    readNumber order mem offset type = .error (.thrown (.runtimeError "Unknown number type")) := by
  cases type <;> simp_all [NumberType.size, readNumber]

theorem readNumber_of_size {type : NumberType} {count : Nat} (sized : type.size = some count) (order : ByteOrder) :
    ∃ make : List Byte → Number, ∀ (mem : Mem) (offset : Nat), readNumber order mem offset type =
      (readBytes mem offset count).bind fun bytes => .ok (make bytes, offset + count) := by
  cases type <;> simp only [NumberType.size, Option.some.injEq, reduceCtorEq] at sized <;> subst sized <;>
    exact ⟨_, fun _ _ => rfl⟩

theorem local_readNumber (order : ByteOrder) (offset : Nat) (type : NumberType) :
    Local (fun mem => readNumber order mem offset type) := by
  cases sized : type.size with
  | none => simpa only [readNumber_unk_of_size sized] using local_const _
  | some count =>
    obtain ⟨make, read⟩ := readNumber_of_size sized order
    simp only [read]
    exact (local_readBytes offset count).bind fun _ => local_const _

theorem readNumber_bytes (order : ByteOrder) (mem : Mem) (offset : Nat) (number : Number)
    (read : readBytes mem offset (number.bytes order).length = (.ok (number.bytes order) : Checked Exn _)) :
    readNumber order mem offset (getNumberType number) = .ok (number, offset + (number.bytes order).length) := by
  cases number <;>
    simp only [Number.bytes, toBytes_length] at read <;>
    simp [readNumber, getNumberType, readAs, read, Except.bind, Number.bytes, ofNat_ofBytes_toBytes]

end Communo.NumParser
