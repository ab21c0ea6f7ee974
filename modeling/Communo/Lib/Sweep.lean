import Mathlib

/-! A loop over a list that removes items in place: the index stays where an item
was removed and moves on where it was kept. -/

namespace Communo.Lib.Sweep
variable {α : Type}

/-- After some rounds what was kept stands in front of the index, and what is still to come from it on. -/
structure Swept (start kept : List α) (rounds : Nat) (items : List α) (index : Nat) : Prop where
  items_eq : items = kept ++ start.drop rounds
  index_eq : index = kept.length

namespace Swept
variable {start kept items : List α} {rounds index : Nat}

theorem initial (start : List α) : Swept start [] 0 start 0 := ⟨rfl, rfl⟩

theorem inside_iff (swept : Swept start kept rounds items index) : index < items.length ↔ rounds < start.length := by
  rw [swept.items_eq, swept.index_eq, List.length_append, List.length_drop]
  omega

/-- The item that is visited is the next one of the list as it was at the start. -/
theorem current (swept : Swept start kept rounds items index) : items[index]? = start[rounds]? := by
  rw [swept.items_eq, swept.index_eq, List.getElem?_append_right le_rfl, Nat.sub_self, List.getElem?_drop, Nat.add_zero]

theorem keep (swept : Swept start kept rounds items index) {item : α} (current : start[rounds]? = some item) :
    Swept start (kept ++ [item]) (rounds + 1) items (index + 1) := by
  obtain ⟨inside, rfl⟩ := List.getElem?_eq_some_iff.mp current
  constructor
  · rw [swept.items_eq, List.append_assoc, List.singleton_append, ← List.drop_eq_getElem_cons inside]
  · rw [List.length_append, List.length_singleton, swept.index_eq]

theorem remove (swept : Swept start kept rounds items index) :
    Swept start kept (rounds + 1) (items.eraseIdx index) index := by
  refine ⟨?_, swept.index_eq⟩
  rw [swept.items_eq, swept.index_eq, List.eraseIdx_append_of_length_le le_rfl, Nat.sub_self, List.eraseIdx_zero,
    List.tail_drop]

end Swept

theorem zip_snoc {β : Type} {items : List α} {inputs : List β} {item : α} (here : items[inputs.length]? = some item)
    (input : β) : items.zip (inputs ++ [input]) = items.zip inputs ++ [(item, input)] := by
  induction inputs generalizing items with
  | nil =>
    obtain ⟨rest, rfl⟩ := List.head?_eq_some_iff.mp (List.head?_eq_getElem?.trans here)
    simp
  | cons first inputs ih =>
    cases items with
    | nil => simp at here
    | cons other items => simpa using ih (by simpa using here)

end Communo.Lib.Sweep
