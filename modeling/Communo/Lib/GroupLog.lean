import Mathlib

/-! Group communication as one log of events. A member is in at most one group
at a time, and what it hears are the messages of members that are in its group
at that point of the log. The log orders all messages, so members that share
messages hear them in the same order. -/

namespace Communo.Lib.GroupLog

inductive GroupEvent (μ γ α : Type) where
  | joined (member : μ) (group : γ)
  | left (member : μ)
  | said (member : μ) (message : α)
  deriving DecidableEq, Repr

variable {μ γ α : Type} [DecidableEq μ]

def groupOf (log : List (GroupEvent μ γ α)) (member : μ) : Option γ :=
  log.foldl (fun current event =>
    match event with
    | .joined other group => if other = member then some group else current
    | .left other => if other = member then none else current
    | .said _ _ => current) none

@[simp]
theorem groupOf_nil (member : μ) : groupOf ([] : List (GroupEvent μ γ α)) member = none := rfl

@[simp]
theorem groupOf_joined (log : List (GroupEvent μ γ α)) (other member : μ) (group : γ) :
    groupOf (log ++ [.joined other group]) member = if other = member then some group else groupOf log member := by
  simp [groupOf]

@[simp]
theorem groupOf_said (log : List (GroupEvent μ γ α)) (other member : μ) (message : α) :
    groupOf (log ++ [.said other message]) member = groupOf log member := by
  simp [groupOf]

theorem groupOf_left (log : List (GroupEvent μ γ α)) (members : List μ) (member : μ) :
    groupOf (log ++ members.map .left) member = if member ∈ members then none else groupOf log member := by
  induction members using List.reverseRecOn with
  | nil => simp
  | append_singleton members last ih =>
    rw [List.map_append, ← List.append_assoc]
    unfold groupOf at ih ⊢
    rw [List.foldl_append, ih]
    by_cases same : last = member
    · simp [same]
    · have different : member ≠ last := fun equal => same equal.symm
      simp [same, different]

variable [DecidableEq γ]

/-- A listener hears a speaker when both are in the same group. -/
def Hears (log : List (GroupEvent μ γ α)) (speaker listener : μ) : Prop :=
  (groupOf log speaker).isSome ∧ groupOf log speaker = groupOf log listener

instance (log : List (GroupEvent μ γ α)) (speaker listener : μ) : Decidable (Hears log speaker listener) :=
  inferInstanceAs (Decidable (_ ∧ _))

def heardAt (log : List (GroupEvent μ γ α)) (listener : μ) (position : Nat) : Option α :=
  match log[position]? with
  | some (.said speaker message) => if Hears (log.take position) speaker listener then some message else none
  | _ => none

def heard (log : List (GroupEvent μ γ α)) (listener : μ) : List α :=
  (List.range log.length).filterMap (heardAt log listener)

def positionsHeard (log : List (GroupEvent μ γ α)) (listener : μ) : List Nat :=
  (List.range log.length).filter fun position => (heardAt log listener position).isSome

def messageAt (log : List (GroupEvent μ γ α)) (position : Nat) : Option α :=
  match log[position]? with
  | some (.said _ message) => some message
  | _ => none

theorem heardAt_append (log extra : List (GroupEvent μ γ α)) (listener : μ) {position : Nat}
    (inside : position < log.length) : heardAt (log ++ extra) listener position = heardAt log listener position := by
  unfold heardAt
  rw [List.getElem?_append_left inside, List.take_append_of_le_length inside.le]

theorem heard_snoc (log : List (GroupEvent μ γ α)) (event : GroupEvent μ γ α) (listener : μ) :
    heard (log ++ [event]) listener =
      heard log listener ++ (heardAt (log ++ [event]) listener log.length).toList := by
  unfold heard
  rw [List.length_append, List.length_singleton, List.range_succ, List.filterMap_append]
  congr 1
  apply List.filterMap_congr
  intro position member
  exact heardAt_append log [event] listener (List.mem_range.mp member)

@[simp]
theorem heard_said (log : List (GroupEvent μ γ α)) (speaker listener : μ) (message : α) :
    heard (log ++ [.said speaker message]) listener =
      heard log listener ++ if Hears log speaker listener then [message] else [] := by
  rw [heard_snoc, heardAt, List.getElem?_concat_length, List.take_left]
  by_cases hears : Hears log speaker listener
  · simp [hears]
  · simp [hears]

@[simp]
theorem heard_joined (log : List (GroupEvent μ γ α)) (member listener : μ) (group : γ) :
    heard (log ++ [.joined member group]) listener = heard log listener := by
  rw [heard_snoc, heardAt, List.getElem?_concat_length]
  simp

theorem heard_left (log : List (GroupEvent μ γ α)) (members : List μ) (listener : μ) :
    heard (log ++ members.map .left) listener = heard log listener := by
  induction members using List.reverseRecOn with
  | nil => simp
  | append_singleton members last ih =>
    rw [List.map_append, ← List.append_assoc, List.map_singleton, heard_snoc, ih, heardAt, List.getElem?_concat_length]
    simp

theorem heard_eq_positions (log : List (GroupEvent μ γ α)) (listener : μ) :
    heard log listener = (positionsHeard log listener).filterMap (messageAt log) := by
  rw [heard, positionsHeard, List.filterMap_filter]
  apply List.filterMap_congr
  intro position _
  unfold heardAt messageAt
  cases log[position]? with
  | none => rfl
  | some event =>
    cases event with
    | said speaker message => by_cases hears : Hears (log.take position) speaker listener <;> simp [hears]
    | _ => rfl

theorem heard_of_never (log : List (GroupEvent μ γ α)) (listener : μ)
    (never : ∀ position, groupOf (log.take position) listener = none) : heard log listener = [] := by
  apply List.filterMap_eq_nil_iff.mpr
  intro position _
  unfold heardAt
  split
  · next speaker message _ =>
    refine if_neg fun hears => ?_
    have silent : groupOf (log.take position) speaker = none := hears.2.trans (never position)
    exact absurd hears.1 (by simp [silent])
  · rfl

/-- What two listeners both hear, both hear in the same order. -/
theorem positionsHeard_shared (log : List (GroupEvent μ γ α)) (first second : μ) :
    (positionsHeard log first).filter (· ∈ positionsHeard log second) =
      (positionsHeard log second).filter (· ∈ positionsHeard log first) := by
  simp only [positionsHeard, List.filter_filter]
  apply List.filter_congr
  intro position member
  simp [List.mem_range.mp member, Bool.and_comm]

end Communo.Lib.GroupLog
