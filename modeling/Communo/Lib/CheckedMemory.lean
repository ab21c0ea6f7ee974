import Communo.Lib.ByteCodec

/-! Byte-addressed memory in which some bytes may not be read. A computation
that touches such a byte ends in `Fault.stray`, so bounds and information-flow
facts about a program are facts about its runs on restricted memories: a run
that does not stray on a small memory is the same on every larger one. -/

namespace Communo.Lib.CheckedMemory
open ByteCodec

/-- `none` marks a byte the program has no business reading. -/
abbrev Mem := Nat → Option Byte

inductive Fault (ε : Type) where
  | stray
  | thrown (exception : ε)
  deriving DecidableEq, Repr

abbrev Checked (ε α : Type) := Except (Fault ε) α

def readBytes {ε : Type} (mem : Mem) : (offset count : Nat) → Checked ε (List Byte)
  | _, 0 => .ok []
  | offset, count + 1 =>
      match mem offset with
      | none => .error .stray
      | some byte => (readBytes mem (offset + 1) count).map (byte :: ·)

def readByte {ε : Type} (mem : Mem) (offset : Nat) : Checked ε Byte :=
  match mem offset with
  | none => .error .stray
  | some byte => .ok byte

def holding (bytes : List Byte) : Mem := fun address => bytes[address]?

def truncate (limit : Nat) (mem : Mem) : Mem := fun address => if address < limit then mem address else none

def Extends (small large : Mem) : Prop := ∀ address byte, small address = some byte → large address = some byte

theorem truncate_extends (limit : Nat) (mem : Mem) : Extends (truncate limit mem) mem := by
  intro address byte present
  by_cases inside : address < limit
  · simpa only [truncate, if_pos inside] using present
  · simp [truncate, if_neg inside] at present

theorem truncate_congr {limit : Nat} {first second : Mem}
    (agree : ∀ address < limit, first address = second address) :
    truncate limit first = truncate limit second := by
  funext address
  by_cases inside : address < limit
  · simp only [truncate, if_pos inside, agree address inside]
  · simp only [truncate, if_neg inside]

theorem bind_ok {ε α β : Type} (value : α) (next : α → Except ε β) :
    (Except.ok value : Except ε α).bind next = next value := rfl

theorem bind_bind {ε α β γ : Type} (run : Except ε α) (next : α → Except ε β) (last : β → Except ε γ) :
    (run.bind next).bind last = run.bind fun value => (next value).bind last := by
  cases run <;> rfl

theorem bind_eq_ok {ε α β : Type} {run : Except ε α} {next : α → Except ε β} {result : β} :
    run.bind next = .ok result ↔ ∃ value, run = .ok value ∧ next value = .ok result := by
  cases run <;> simp [Except.bind]

theorem bind_eq_error {ε α β : Type} {run : Except ε α} {next : α → Except ε β} {fault : ε} :
    run.bind next = .error fault ↔
      run = .error fault ∨ ∃ value, run = .ok value ∧ next value = .error fault := by
  cases run <;> simp [Except.bind]

section Reading
variable {ε : Type}

theorem readBytes_eq_ok_iff (mem : Mem) (offset count : Nat) (bytes : List Byte) :
    (readBytes mem offset count : Checked ε (List Byte)) = .ok bytes ↔
      bytes.length = count ∧ ∀ i < count, mem (offset + i) = bytes[i]? := by
  induction count generalizing offset bytes with
  | zero =>
    simp only [readBytes, Except.ok.injEq, Nat.not_lt_zero, false_implies, implies_true, and_true,
      List.length_eq_zero_iff]
    exact eq_comm
  | succ count ih =>
    simp only [readBytes]
    cases first : mem offset with
    | none =>
      simp only [reduceCtorEq, false_iff]
      rintro ⟨length, agree⟩
      have head := agree 0 (by omega)
      rw [Nat.add_zero, first] at head
      simp only [List.getElem?_eq_getElem (by omega : 0 < bytes.length), reduceCtorEq] at head
    | some byte =>
      constructor
      · intro read
        cases tail : (readBytes mem (offset + 1) count : Checked ε (List Byte)) with
        | error fault => simp [tail, Except.map] at read
        | ok rest =>
          simp only [tail, Except.map, Except.ok.injEq] at read
          subst read
          obtain ⟨length, agree⟩ := (ih (offset + 1) rest).mp tail
          refine ⟨by simp [length], fun i bound => ?_⟩
          cases i with
          | zero => simpa using first
          | succ i =>
            have later := agree i (by omega)
            rw [show offset + (i + 1) = offset + 1 + i by omega, later, List.getElem?_cons_succ]
      · rintro ⟨length, agree⟩
        cases bytes with
        | nil => simp at length
        | cons head rest =>
          have same := agree 0 (by omega)
          simp only [Nat.add_zero, first, List.getElem?_cons_zero, Option.some.injEq] at same
          have tail : (readBytes mem (offset + 1) count : Checked ε (List Byte)) = .ok rest := by
            rw [ih]
            refine ⟨by simpa using length, fun i bound => ?_⟩
            have later := agree (i + 1) (by omega)
            rwa [show offset + (i + 1) = offset + 1 + i by omega, List.getElem?_cons_succ] at later
          rw [tail, same]
          rfl

theorem readBytes_eq_error (mem : Mem) (offset count : Nat) (fault : Fault ε)
    (failed : readBytes mem offset count = .error fault) : fault = .stray := by
  induction count generalizing offset with
  | zero => simp [readBytes] at failed
  | succ count ih =>
    simp only [readBytes] at failed
    cases first : mem offset with
    | none => simpa [first, eq_comm] using failed
    | some byte =>
      cases tail : (readBytes mem (offset + 1) count : Checked ε (List Byte)) with
      | error other =>
        simp only [first, tail, Except.map, Except.error.injEq] at failed
        exact failed ▸ ih (offset + 1) (failed ▸ tail)
      | ok rest => simp [first, tail, Except.map] at failed

theorem readBytes_stray {mem : Mem} {offset count : Nat} (i : Nat) (inside : i < count)
    (missing : mem (offset + i) = none) :
    (readBytes mem offset count : Checked ε (List Byte)) = .error .stray := by
  cases read : (readBytes mem offset count : Checked ε (List Byte)) with
  | error fault => rw [readBytes_eq_error mem offset count fault read]
  | ok bytes =>
    obtain ⟨length, agree⟩ := (readBytes_eq_ok_iff mem offset count bytes).mp read
    have present := agree i inside
    rw [missing, List.getElem?_eq_getElem (by omega)] at present
    cases present

theorem readBytes_of_isSome {mem : Mem} {offset count : Nat} (present : ∀ i < count, (mem (offset + i)).isSome) :
    ∃ bytes, (readBytes mem offset count : Checked ε (List Byte)) = .ok bytes := by
  induction count generalizing offset with
  | zero => exact ⟨[], rfl⟩
  | succ count ih =>
    obtain ⟨byte, here⟩ := Option.isSome_iff_exists.mp (present 0 (by omega))
    rw [Nat.add_zero] at here
    obtain ⟨rest, read⟩ := @ih (offset + 1) fun i bound => by
      have later := present (i + 1) (by omega)
      rwa [show offset + (i + 1) = offset + 1 + i by omega] at later
    exact ⟨byte :: rest, by simp [readBytes, here, read, Except.map]⟩

theorem readBytes_total (contents : Nat → Byte) (offset count : Nat) :
    (readBytes (fun address => some (contents address)) offset count : Checked ε (List Byte)) =
      .ok ((List.range count).map (fun i => contents (offset + i))) := by
  rw [readBytes_eq_ok_iff]
  refine ⟨by simp, fun i bound => ?_⟩
  simp [bound]

theorem readBytes_slice {mem : Mem} {bytes : List Byte} {offset count : Nat}
    (agree : ∀ address < bytes.length, mem address = bytes[address]?) (inside : offset + count ≤ bytes.length) :
    (readBytes mem offset count : Checked ε (List Byte)) = .ok ((bytes.drop offset).take count) := by
  rw [readBytes_eq_ok_iff]
  refine ⟨by simp; omega, fun i bound => ?_⟩
  rw [agree (offset + i) (by omega), List.getElem?_take_of_lt bound, List.getElem?_drop]

theorem readByte_of_drop (ε : Type) {mem : Mem} {bytes : List Byte}
    (agree : ∀ address < bytes.length, mem address = bytes[address]?) {offset : Nat} {byte : Byte} {rest : List Byte}
    (at_ : bytes.drop offset = byte :: rest) :
    (readByte mem offset : Checked ε Byte) = .ok byte ∧ offset < bytes.length ∧ bytes.drop (offset + 1) = rest := by
  have inside : offset < bytes.length := by
    by_contra outside
    rw [List.drop_of_length_le (by omega)] at at_
    cases at_
  have here : bytes[offset]? = some byte := by
    rw [← Nat.add_zero offset, ← List.getElem?_drop, at_, List.getElem?_cons_zero]
  refine ⟨by simp [readByte, agree offset inside, here], inside, ?_⟩
  rw [← List.drop_drop, at_, List.drop_one, List.tail_cons]

theorem readBytes_of_drop (ε : Type) {mem : Mem} {bytes : List Byte}
    (agree : ∀ address < bytes.length, mem address = bytes[address]?) {offset : Nat} {item rest : List Byte}
    (at_ : bytes.drop offset = item ++ rest) :
    (readBytes mem offset item.length : Checked ε (List Byte)) = .ok item ∧
      bytes.drop (offset + item.length) = rest := by
  have size := congrArg List.length at_
  simp only [List.length_drop, List.length_append] at size
  by_cases empty : item = []
  · subst empty
    exact ⟨rfl, by simpa using at_⟩
  · have positive := List.length_pos_of_ne_nil empty
    refine ⟨?_, ?_⟩
    · rw [readBytes_slice agree (by omega), at_, List.take_left]
    · rw [← List.drop_drop, at_, List.drop_left]

end Reading

/-- A run that does not stray on a memory is the same on every larger one. -/
def Local {ε α : Type} (run : Mem → Checked ε α) : Prop :=
  ∀ small large, Extends small large → run small ≠ .error .stray → run large = run small

section Locality
variable {ε α β : Type}

theorem local_const (result : Checked ε α) : Local (fun _ => result) :=
  fun _ _ _ _ => rfl

theorem local_of_constant {run : Mem → Checked ε α} (constant : ∀ first second, run first = run second) :
    Local run :=
  fun small large _ _ => constant large small

theorem local_readByte (offset : Nat) : Local (fun mem => (readByte mem offset : Checked ε Byte)) := by
  intro small large extends_ settled
  simp only [readByte] at settled ⊢
  cases present : small offset with
  | none => simp [present] at settled
  | some byte => simp only [extends_ offset byte present]

theorem local_readBytes (offset count : Nat) :
    Local (fun mem => (readBytes mem offset count : Checked ε (List Byte))) := by
  intro small large extends_ settled
  show readBytes large offset count = readBytes small offset count
  cases read : (readBytes small offset count : Checked ε (List Byte)) with
  | error fault =>
    rw [readBytes_eq_error small offset count fault read] at read
    exact absurd read settled
  | ok bytes =>
    obtain ⟨length, agree⟩ := (readBytes_eq_ok_iff small offset count bytes).mp read
    refine (readBytes_eq_ok_iff large offset count bytes).mpr ⟨length, fun i bound => ?_⟩
    have present := agree i bound
    rw [List.getElem?_eq_getElem (by omega)] at present ⊢
    exact extends_ _ _ present

theorem Local.bind {run : Mem → Checked ε α} {next : Mem → α → Checked ε β} (first : Local run)
    (rest : ∀ value, Local (fun mem => next mem value)) : Local (fun mem => (run mem).bind (next mem)) := by
  intro small large extends_ settled
  have settledFirst : run small ≠ .error .stray := by
    intro strayed
    exact settled (by simp [strayed, Except.bind])
  show (run large).bind (next large) = (run small).bind (next small)
  rw [first small large extends_ settledFirst]
  cases outcome : run small with
  | error fault => rfl
  | ok value =>
    exact rest value small large extends_ (by simpa only [outcome, Except.bind] using settled)

/-- What a local run does on a memory is decided by the part of it on which the run does not stray. -/
theorem Local.eq_of_truncate {run : Mem → Checked ε α} (isLocal : Local run) {limit : Nat} {first second : Mem}
    (agree : ∀ address < limit, first address = second address)
    (settled : run (truncate limit first) ≠ .error .stray) : run second = run first := by
  have one := isLocal _ _ (truncate_extends limit first) settled
  rw [truncate_congr agree] at settled
  have two := isLocal _ _ (truncate_extends limit second) settled
  rw [one, two, truncate_congr agree]

end Locality

end Communo.Lib.CheckedMemory
