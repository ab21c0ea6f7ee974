import Mathlib

/-! Lists whose entries have distinct keys: what removing or replacing the entry
at an index means in terms of keys. -/

namespace Communo.Lib.KeyedList
variable {α κ : Type} {key : α → κ} {entries : List α} (distinct : (entries.map key).Nodup)
include distinct

theorem eq_of_key_get {first second : Fin entries.length}
    (same : key (entries.get first) = key (entries.get second)) : first = second := by
  have here : first.val < (entries.map key).length := by simp
  have there : second.val < (entries.map key).length := by simp
  have injective := List.nodup_iff_injective_get.mp distinct
  exact Fin.ext (Fin.mk.inj (@injective ⟨first, here⟩ ⟨second, there⟩ (by simpa using same)))

theorem mem_eraseIdx_iff (index : Fin entries.length) (entry : α) :
    entry ∈ entries.eraseIdx index ↔ entry ∈ entries ∧ key entry ≠ key (entries.get index) := by
  rw [List.mem_eraseIdx_iff_getElem]
  constructor
  · rintro ⟨other, inside, apart, rfl⟩
    refine ⟨List.getElem_mem inside, fun same => apart ?_⟩
    exact congrArg Fin.val (@eq_of_key_get _ _ _ _ distinct ⟨other, inside⟩ index same)
  · rintro ⟨member, different⟩
    obtain ⟨other, inside, rfl⟩ := List.getElem_of_mem member
    refine ⟨other, inside, fun same => different ?_, rfl⟩
    subst same
    rfl

theorem mem_set_iff (index : Fin entries.length) {replacement : α} (same : key replacement = key (entries.get index))
    (entry : α) :
    entry ∈ entries.set index replacement ↔
      entry = replacement ∨ entry ∈ entries ∧ key entry ≠ key replacement := by
  constructor
  · intro member
    obtain ⟨other, inside, rfl⟩ := List.getElem_of_mem member
    have bound : other < entries.length := by simpa using inside
    rw [List.getElem_set]
    split
    · exact Or.inl rfl
    · next apart =>
      refine Or.inr ⟨List.getElem_mem bound, fun equal => apart ?_⟩
      exact congrArg Fin.val (@eq_of_key_get _ _ _ _ distinct ⟨other, bound⟩ index (equal.trans same)).symm
  · rintro (rfl | ⟨member, different⟩)
    · exact List.mem_set index.isLt _
    · obtain ⟨other, inside, rfl⟩ := List.getElem_of_mem member
      have apart : index.val ≠ other := by
        intro equal
        subst equal
        exact different same.symm
      refine List.mem_iff_getElem.mpr ⟨other, by simpa using inside, ?_⟩
      rw [List.getElem_set, if_neg apart]

theorem flatMap_key {β : Type} [DecidableEq κ] (wanted : κ) (accepts : α → Bool) (item : β) :
    (entries.flatMap fun entry => if key entry = wanted ∧ accepts entry = true then [item] else []) =
      if ∃ entry ∈ entries, key entry = wanted ∧ accepts entry = true then [item] else [] := by
  induction entries with
  | nil => simp
  | cons entry entries ih =>
    rw [List.map_cons, List.nodup_cons] at distinct
    rw [List.flatMap_cons, ih distinct.2]
    by_cases here : key entry = wanted ∧ accepts entry = true
    · have nowhere : ¬∃ other ∈ entries, key other = wanted ∧ accepts other = true := by
        rintro ⟨other, member, named, -⟩
        exact distinct.1 (List.mem_map.mpr ⟨other, member, named.trans here.1.symm⟩)
      rw [if_pos here, if_neg nowhere, if_pos ⟨entry, by simp, here⟩, List.append_nil]
    · have later : (∃ other ∈ entry :: entries, key other = wanted ∧ accepts other = true) ↔
          ∃ other ∈ entries, key other = wanted ∧ accepts other = true := by
        constructor
        · rintro ⟨other, member, held⟩
          rcases List.mem_cons.mp member with same | later
          · exact absurd (same ▸ held) here
          · exact ⟨other, later, held⟩
        · rintro ⟨other, member, held⟩
          exact ⟨other, List.mem_cons_of_mem _ member, held⟩
      rw [if_neg here, List.nil_append]
      simp only [later]

theorem find?_key [DecidableEq κ] {entry : α} (member : entry ∈ entries) :
    (entries.find? fun other => key other = key entry) = some entry := by
  induction entries with
  | nil => cases member
  | cons first entries ih =>
    rw [List.map_cons, List.nodup_cons] at distinct
    rcases List.mem_cons.mp member with here | later
    · subst here
      exact List.find?_cons_of_pos (by simp)
    · have apart : key first ≠ key entry := fun same => distinct.1 (same ▸ List.mem_map_of_mem later)
      rw [List.find?_cons_of_neg (by simpa using apart)]
      exact ih distinct.2 later

theorem eraseIdx_eq_filter [DecidableEq κ] (index : Fin entries.length) :
    entries.eraseIdx index = entries.filter fun entry => key entry ≠ key (entries.get index) := by
  induction entries with
  | nil => exact index.elim0
  | cons first entries ih =>
    rw [List.map_cons, List.nodup_cons] at distinct
    obtain ⟨position, inside⟩ := index
    cases position with
    | zero =>
      have others : ∀ entry ∈ entries, key entry ≠ key first := fun entry member same =>
        distinct.1 (same ▸ List.mem_map_of_mem member)
      rw [List.eraseIdx_cons_zero, List.filter_cons_of_neg (by simp), List.filter_eq_self.mpr]
      simpa using others
    | succ position =>
      have bound : position < entries.length := Nat.lt_of_succ_lt_succ inside
      have apart : key first ≠ key (entries.get ⟨position, bound⟩) := fun same =>
        distinct.1 (same ▸ List.mem_map_of_mem (List.get_mem _ _))
      rw [List.eraseIdx_cons_succ, List.filter_cons_of_pos (by simpa using apart)]
      exact congrArg (first :: ·) (ih distinct.2 ⟨position, bound⟩)

end Communo.Lib.KeyedList
