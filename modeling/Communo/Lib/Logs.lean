import Mathlib

/-! Logs that grow at their end, and resources whose life is read off a log:
acquired, used, released, and perhaps acquired again under the same name. -/

namespace Communo.Lib.Logs
variable {α : Type}

theorem split_append {old new before after : List α} {entry : α} (split : old ++ new = before ++ entry :: after) :
    (∃ rest, old = before ++ entry :: rest) ∨ ∃ first, before = old ++ first ∧ new = first ++ entry :: after := by
  rcases List.append_eq_append_iff.mp split with ⟨first, early, late⟩ | ⟨rest, early, late⟩
  · exact Or.inr ⟨first, early, late⟩
  · cases rest with
    | nil => exact Or.inr ⟨[], by simpa using early.symm, late.symm⟩
    | cons head rest =>
      obtain ⟨rfl, -⟩ := List.cons.inj late
      exact Or.inl ⟨rest, early⟩

/-- What an entry does to the resource that is being watched. -/
inductive Action where
  | acquire
  | release
  | use
  | other
  deriving DecidableEq, Repr

inductive Stage where
  | absent
  | live
  | released
  deriving DecidableEq, Repr

def Stage.advance : Stage → Action → Stage
  | _, .acquire => .live
  | .live, .release => .released
  | stage, _ => stage

/-- A released resource may neither be used nor released again. -/
def Stage.permits : Stage → Action → Bool
  | .released, .release | .released, .use => false
  | _, _ => true

section Lifecycle
variable (act : α → Action)

def stageFrom (stage : Stage) (log : List α) : Stage := log.foldl (fun stage entry => stage.advance (act entry)) stage

def Obeys : Stage → List α → Prop
  | _, [] => True
  | stage, entry :: rest => stage.permits (act entry) = true ∧ Obeys (stage.advance (act entry)) rest

instance decidableObeys : (stage : Stage) → (log : List α) → Decidable (Obeys act stage log)
  | _, [] => .isTrue trivial
  | stage, entry :: rest =>
      have := decidableObeys (stage.advance (act entry)) rest
      inferInstanceAs (Decidable (stage.permits (act entry) = true ∧ Obeys act (stage.advance (act entry)) rest))

@[simp]
theorem stageFrom_nil (stage : Stage) : stageFrom act stage [] = stage := rfl

@[simp]
theorem stageFrom_cons (stage : Stage) (entry : α) (rest : List α) :
    stageFrom act stage (entry :: rest) = stageFrom act (stage.advance (act entry)) rest := rfl

@[simp]
theorem stageFrom_append (stage : Stage) (first second : List α) :
    stageFrom act stage (first ++ second) = stageFrom act (stageFrom act stage first) second :=
  List.foldl_append

@[simp]
theorem obeys_nil (stage : Stage) : Obeys act stage [] := trivial

@[simp]
theorem obeys_cons (stage : Stage) (entry : α) (rest : List α) :
    Obeys act stage (entry :: rest) ↔
      stage.permits (act entry) = true ∧ Obeys act (stage.advance (act entry)) rest := Iff.rfl

@[simp]
theorem obeys_append (stage : Stage) (first second : List α) :
    Obeys act stage (first ++ second) ↔ Obeys act stage first ∧ Obeys act (stageFrom act stage first) second := by
  induction first generalizing stage with
  | nil => simp
  | cons entry rest ih => rw [List.cons_append, obeys_cons, obeys_cons, stageFrom_cons, ih, and_assoc]

variable {act}

theorem advance_other (stage : Stage) : stage.advance .other = stage := by
  cases stage <;> rfl

theorem permits_other (stage : Stage) : stage.permits .other = true := by
  cases stage <;> rfl

/-- Every entry is permitted, and together they take the resource from one stage to another. -/
def Leads (act : α → Action) (stage : Stage) (log : List α) (final : Stage) : Prop :=
  Obeys act stage log ∧ stageFrom act stage log = final

theorem Leads.append {stage middle final : Stage} {first second : List α} (early : Leads act stage first middle)
    (late : Leads act middle second final) : Leads act stage (first ++ second) final := by
  obtain ⟨permitted, rfl⟩ := early
  refine ⟨(obeys_append _ _ _ _).mpr ⟨permitted, late.1⟩, ?_⟩
  rw [stageFrom_append]
  exact late.2

theorem undisturbed {log : List α} (others : ∀ entry ∈ log, act entry = .other) (stage : Stage) :
    Leads act stage log stage := by
  induction log with
  | nil => exact ⟨trivial, rfl⟩
  | cons entry rest ih =>
    have here := others entry (by simp)
    have later := ih fun entry member => others entry (List.mem_cons_of_mem _ member)
    simpa [Leads, here, advance_other, permits_other] using later

theorem used {log : List α} (uses : ∀ entry ∈ log, act entry = .use ∨ act entry = .other) :
    Leads act .live log .live := by
  induction log with
  | nil => exact ⟨trivial, rfl⟩
  | cons entry rest ih =>
    have later := ih fun entry member => uses entry (List.mem_cons_of_mem _ member)
    rcases uses entry (by simp) with use | other
    · simpa [Leads, use, Stage.advance, Stage.permits] using later
    · simpa [Leads, other, Stage.advance, Stage.permits] using later

theorem released {entry : α} {rest : List α} (releases : act entry = .release)
    (others : ∀ entry ∈ rest, act entry = .other) : Leads act .live (entry :: rest) .released := by
  have settled := undisturbed others .released
  simpa [Leads, releases, Stage.advance, Stage.permits] using settled

/-- Entries that do not acquire it leave a resource live exactly if none of them releases it. -/
theorem stageFrom_eq_live_iff {log : List α} (once : ∀ entry ∈ log, act entry ≠ .acquire) (stage : Stage) :
    stageFrom act stage log = .live ↔ stage = .live ∧ ∀ entry ∈ log, act entry ≠ .release := by
  induction log generalizing stage with
  | nil => simp
  | cons entry rest ih =>
    rw [stageFrom_cons, ih fun later member => once later (List.mem_cons_of_mem _ member), List.forall_mem_cons]
    have here := once entry List.mem_cons_self
    cases does : act entry with
    | acquire => exact absurd does here
    | release => cases stage <;> simp [Stage.advance]
    | _ => cases stage <;> simp [Stage.advance]

section Counting
variable {log : List α} (once : ∀ entry ∈ log, act entry ≠ .acquire)
include once

theorem releases_of_released (obeys : Obeys act .released log) :
    log.countP (fun entry => act entry = .release) = 0 ∧ stageFrom act .released log = .released := by
  induction log with
  | nil => exact ⟨rfl, rfl⟩
  | cons entry rest ih =>
    obtain ⟨permitted, obeys⟩ := (obeys_cons _ _ _ _).mp obeys
    cases does : act entry with
    | acquire => exact absurd does (once entry (by simp))
    | release => simp [does, Stage.permits] at permitted
    | use => simp [does, Stage.permits] at permitted
    | other =>
      rw [does, advance_other] at obeys
      simpa [does, advance_other] using ih (fun entry member => once entry (List.mem_cons_of_mem _ member)) obeys

theorem releases_of_live (obeys : Obeys act .live log) :
    stageFrom act .live log = .live ∧ log.countP (fun entry => act entry = .release) = 0 ∨
      stageFrom act .live log = .released ∧ log.countP (fun entry => act entry = .release) = 1 := by
  induction log with
  | nil => exact Or.inl ⟨rfl, rfl⟩
  | cons entry rest ih =>
    have later : ∀ entry ∈ rest, act entry ≠ .acquire := fun entry member => once entry (List.mem_cons_of_mem _ member)
    obtain ⟨-, obeys⟩ := (obeys_cons _ _ _ _).mp obeys
    cases does : act entry with
    | acquire => exact absurd does (once entry (by simp))
    | release =>
      rw [does] at obeys
      have settled := releases_of_released later obeys
      refine Or.inr ⟨?_, ?_⟩
      · rw [stageFrom_cons, does]
        exact settled.2
      · rw [List.countP_cons_of_pos (by simp [does]), settled.1]
    | use =>
      rw [does] at obeys
      simpa [does, Stage.advance] using ih later obeys
    | other =>
      rw [does] at obeys
      simpa [does, Stage.advance] using ih later obeys

end Counting

theorem last_acquire {log : List α} (live : stageFrom act .absent log = .live) :
    ∃ before entry after, log = before ++ entry :: after ∧ act entry = .acquire ∧
      ∀ entry ∈ after, act entry ≠ .acquire := by
  induction log using List.reverseRecOn with
  | nil => simp at live
  | append_singleton log entry ih =>
    by_cases acquires : act entry = .acquire
    · exact ⟨log, entry, [], rfl, acquires, by simp⟩
    · rw [stageFrom_append] at live
      have earlier : stageFrom act .absent log = .live := by
        revert live
        cases does : act entry with
        | acquire => exact absurd does acquires
        | _ => cases stageFrom act .absent log <;> simp [does, Stage.advance]
      obtain ⟨before, first, after, rfl, acquired, once⟩ := ih earlier
      refine ⟨before, first, after ++ [entry], by simp, acquired, fun other member => ?_⟩
      rcases List.mem_append.mp member with old | new
      · exact once other old
      · rw [List.mem_singleton.mp new]
        exact acquires

end Lifecycle

end Communo.Lib.Logs
