import Mathlib

/-! Messages on a channel without message boundaries. A write is cut into
records of bounded size, and a reader with a bounded buffer takes each record
out in as few reads as the buffer allows. -/

namespace Communo.Lib.Records
variable {α : Type}

def pieces (size : Nat) (items : List α) : List (List α) :=
  if 0 < size ∧ items ≠ [] then items.take size :: pieces size (items.drop size) else []
termination_by items.length
decreasing_by
  rename_i going
  rw [List.length_drop]
  exact Nat.sub_lt (List.length_pos_of_ne_nil going.2) going.1

/-- What the reader gets for one write. -/
def reads (recordSize bufferSize : Nat) (message : List α) : List (List α) :=
  (pieces recordSize message).flatMap (pieces bufferSize)

theorem pieces_nil (size : Nat) : pieces size ([] : List α) = [] := by
  rw [pieces, if_neg (by simp)]

theorem pieces_cons {size : Nat} {items : List α} (positive : 0 < size) (nonempty : items ≠ []) :
    pieces size items = items.take size :: pieces size (items.drop size) := by
  rw [pieces, if_pos ⟨positive, nonempty⟩]

theorem pieces_of_fits {size : Nat} {items : List α} (nonempty : items ≠ []) (fits : items.length ≤ size) :
    pieces size items = [items] := by
  have positive : 0 < size := lt_of_lt_of_le (List.length_pos_of_ne_nil nonempty) fits
  rw [pieces_cons positive nonempty, List.take_of_length_le fits, List.drop_eq_nil_of_le fits, pieces_nil]

theorem reads_of_fits {recordSize bufferSize : Nat} {message : List α} (nonempty : message ≠ [])
    (inRecord : message.length ≤ recordSize) (inBuffer : message.length ≤ bufferSize) :
    reads recordSize bufferSize message = [message] := by
  simp only [reads, pieces_of_fits nonempty inRecord, List.flatMap_singleton, pieces_of_fits nonempty inBuffer]

theorem reads_of_overrun {recordSize bufferSize : Nat} {message : List α} (positive : 0 < bufferSize)
    (inRecord : message.length ≤ recordSize) (overruns : bufferSize < message.length)
    (rest : message.length ≤ bufferSize + bufferSize) :
    reads recordSize bufferSize message = [message.take bufferSize, message.drop bufferSize] := by
  have nonempty : message ≠ [] := List.ne_nil_of_length_pos (by omega)
  have left : message.drop bufferSize ≠ [] := List.ne_nil_of_length_pos (by simp only [List.length_drop]; omega)
  rw [reads, pieces_of_fits nonempty inRecord, List.flatMap_singleton, pieces_cons positive nonempty,
    pieces_of_fits left (by simp only [List.length_drop]; omega)]

end Communo.Lib.Records
