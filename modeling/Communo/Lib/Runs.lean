import Mathlib

/-! Machines driven by inputs. A step may fail, and an execution is a sequence
of steps that succeeded, each on an input the state allows. -/

namespace Communo.Lib.Runs

inductive Execution {σ ι ε : Type} (step : ι → σ → Except ε σ) (allowed : ι → σ → Prop) (start : σ) :
    List ι → σ → Prop where
  | nil : Execution step allowed start [] start
  | snoc {inputs : List ι} {state next : σ} {input : ι} (before : Execution step allowed start inputs state)
      (permitted : allowed input state) (stepped : step input state = .ok next) :
      Execution step allowed start (inputs ++ [input]) next

namespace Execution
variable {σ ι ε : Type} {step : ι → σ → Except ε σ} {allowed : ι → σ → Prop} {start : σ}

/-- What holds initially and is kept by every allowed step holds after every execution. -/
theorem invariant {I : σ → Prop} (initial : I start)
    (preserved : ∀ input state next, I state → allowed input state → step input state = .ok next → I next)
    {inputs : List ι} {state : σ} (execution : Execution step allowed start inputs state) : I state := by
  induction execution with
  | nil => exact initial
  | snoc _ permitted stepped ih => exact preserved _ _ _ ih permitted stepped

theorem append {first second : List ι} {middle state : σ} (before : Execution step allowed start first middle)
    (later : Execution step allowed middle second state) : Execution step allowed start (first ++ second) state := by
  induction later with
  | nil => simpa using before
  | snoc _ permitted stepped ih =>
    rw [← List.append_assoc]
    exact .snoc ih permitted stepped

/-- Another restriction may replace the one an execution was made under, if it follows in every state reached. -/
theorem weaken {weaker : ι → σ → Prop} (implied : ∀ inputs input state, Execution step allowed start inputs state →
      allowed input state → weaker input state)
    {inputs : List ι} {state : σ} (execution : Execution step allowed start inputs state) :
    Execution step weaker start inputs state := by
  induction execution with
  | nil => exact .nil
  | snoc before permitted stepped ih => exact .snoc ih (implied _ _ _ before permitted) stepped

/-- An execution that ends in a state with `J` never left `J`, when no step enters it. -/
theorem allowed_of_final {J : σ → Prop} {strict : ι → σ → Prop}
    (backward : ∀ input state next, allowed input state → step input state = .ok next → J next →
      J state ∧ strict input state)
    {inputs : List ι} {state : σ} (execution : Execution step allowed start inputs state) (final : J state) :
    Execution step strict start inputs state := by
  induction execution with
  | nil => exact .nil
  | snoc _ permitted stepped ih =>
    obtain ⟨before, strictly⟩ := backward _ _ _ permitted stepped final
    exact .snoc (ih before) strictly stepped

/-- The same when it takes the run so far to see that a step into `J` was a strict one. -/
theorem strict_of_final {J : σ → Prop} {strict : ι → σ → Prop}
    (backward : ∀ input state next, allowed input state → step input state = .ok next → J next → J state)
    (strictly : ∀ inputs input state next, Execution step strict start inputs state → allowed input state →
      step input state = .ok next → J next → strict input state)
    {inputs : List ι} {state : σ} (execution : Execution step allowed start inputs state) (final : J state) :
    Execution step strict start inputs state := by
  induction execution with
  | nil => exact .nil
  | snoc _ permitted stepped ih =>
    have before := ih (backward _ _ _ permitted stepped final)
    exact .snoc before (strictly _ _ _ _ before permitted stepped final) stepped

theorem exists_of_total {permitted : ι → Prop} (holds : ∀ input state, permitted input → allowed input state)
    (total : ∀ input state, permitted input → ∃ next, step input state = .ok next) (inputs : List ι)
    (all : ∀ input ∈ inputs, permitted input) : ∃ state, Execution step allowed start inputs state := by
  induction inputs using List.reverseRecOn with
  | nil => exact ⟨start, .nil⟩
  | append_singleton inputs input ih =>
    obtain ⟨state, before⟩ := ih fun earlier member => all earlier (List.mem_append_left _ member)
    have last := all input (by simp)
    obtain ⟨next, stepped⟩ := total input state last
    exact ⟨next, .snoc before (holds input state last) stepped⟩

end Execution

def run {σ ι ε : Type} (step : ι → σ → Except ε σ) : List ι → σ → Except ε σ
  | [], state => .ok state
  | input :: inputs, state => (step input state).bind (run step inputs)

/-- A run of the function is an execution when what holds after each part of it allows the next input. -/
theorem Execution.of_run_invariant {σ ι ε : Type} {step : ι → σ → Except ε σ} {allowed : ι → σ → Prop}
    {I : List ι → σ → Prop} {start state : σ} {inputs : List ι} (initial : I [] start)
    (goes : ∀ before input later current, inputs = before ++ input :: later → I before current →
      allowed input current ∧ ∀ next, step input current = .ok next → I (before ++ [input]) next)
    (ran : run step inputs start = .ok state) : Execution step allowed start inputs state ∧ I inputs state := by
  suffices extended : ∀ (later before : List ι) (middle : σ), inputs = before ++ later →
      Execution step allowed start before middle → I before middle → run step later middle = .ok state →
      Execution step allowed start inputs state ∧ I inputs state from
    extended inputs [] start rfl .nil initial ran
  intro later
  induction later with
  | nil =>
    intro before middle whole reached holds ran
    obtain rfl := Except.ok.inj ran
    rw [whole, List.append_nil]
    exact ⟨reached, holds⟩
  | cons input later ih =>
    intro before middle whole reached holds ran
    obtain ⟨permitted, kept⟩ := goes before input later middle whole holds
    cases stepped : step input middle with
    | error fault => simp [run, stepped, Except.bind] at ran
    | ok next =>
      simp only [run, stepped, Except.bind] at ran
      exact ih (before ++ [input]) next (by simp [whole]) (.snoc reached permitted stepped) (kept next stepped) ran

theorem Execution.of_run_permitted {σ ι ε : Type} {step : ι → σ → Except ε σ} {permitted : ι → Prop} {inputs : List ι}
    {start state : σ} (all : ∀ input ∈ inputs, permitted input) (ran : run step inputs start = .ok state) :
    Execution step (fun input _ => permitted input) start inputs state := by
  refine (Execution.of_run_invariant (I := fun _ _ => True) trivial ?_ ran).1
  intro before input later current whole _
  exact ⟨all input (by simp [whole]), fun _ _ => trivial⟩

theorem Execution.of_run {σ ι ε : Type} {step : ι → σ → Except ε σ} {start : σ} {before inputs : List ι}
    {middle state : σ} (reached : Execution step (fun _ _ => True) start before middle)
    (ran : run step inputs middle = .ok state) :
    Execution step (fun _ _ => True) start (before ++ inputs) state :=
  reached.append (.of_run_permitted (fun _ _ => trivial) ran)

/-- Each input is allowed when its turn comes. -/
def Steered {σ ι ε : Type} (step : ι → σ → Except ε σ) (allowed : ι → σ → Prop) : List ι → σ → Prop
  | [], _ => True
  | input :: inputs, state => allowed input state ∧ ∀ next, step input state = .ok next → Steered step allowed inputs next

instance Steered.decidable {σ ι ε : Type} {step : ι → σ → Except ε σ} {allowed : ι → σ → Prop}
    [∀ input state, Decidable (allowed input state)] :
    (inputs : List ι) → (state : σ) → Decidable (Steered step allowed inputs state)
  | [], _ => .isTrue trivial
  | input :: inputs, state =>
    match stepped : step input state with
    | .error _ => decidable_of_iff (allowed input state) (by simp [Steered, stepped])
    | .ok next =>
      have : Decidable (Steered step allowed inputs next) := Steered.decidable inputs next
      decidable_of_iff (allowed input state ∧ Steered step allowed inputs next) (by simp [Steered, stepped])

theorem Steered.imp {σ ι ε : Type} {step : ι → σ → Except ε σ} {allowed weaker : ι → σ → Prop} {inputs : List ι} {state : σ}
    (implied : ∀ input ∈ inputs, ∀ current, allowed input current → weaker input current)
    (steered : Steered step allowed inputs state) : Steered step weaker inputs state := by
  induction inputs generalizing state with
  | nil => exact trivial
  | cons input inputs ih =>
    refine ⟨implied input List.mem_cons_self state steered.1, fun next stepped => ?_⟩
    exact ih (fun later member => implied later (List.mem_cons_of_mem _ member)) (steered.2 next stepped)

theorem Execution.of_steered {σ ι ε : Type} {step : ι → σ → Except ε σ} {allowed : ι → σ → Prop} {start state : σ}
    {inputs : List ι} (steered : Steered step allowed inputs start) (ran : run step inputs start = .ok state) :
    Execution step allowed start inputs state := by
  have goes : ∀ (before : List ι) (input : ι) (later : List ι) (current : σ), inputs = before ++ input :: later →
      (∀ rest, inputs = before ++ rest → Steered step allowed rest current) → allowed input current ∧
        ∀ next, step input current = .ok next → ∀ rest, inputs = (before ++ [input]) ++ rest →
          Steered step allowed rest next := by
    intro before input later current whole holds
    obtain ⟨permitted, onward⟩ := holds _ whole
    refine ⟨permitted, fun next stepped rest whole' => ?_⟩
    rw [whole, List.append_assoc] at whole'
    obtain rfl := (List.cons.inj (List.append_cancel_left whole')).2
    exact onward next stepped
  exact (Execution.of_run_invariant (I := fun before current => ∀ rest, inputs = before ++ rest →
    Steered step allowed rest current) (fun rest whole => by rw [List.nil_append] at whole; exact whole ▸ steered) goes ran).1

/-- Where every allowed step short of the goal brings it nearer, enough inputs reach it. -/
theorem Execution.reaches {σ ι ε : Type} {step : ι → σ → Except ε σ} {allowed : ι → σ → Prop} {goal I : σ → Prop}
    {distance : σ → Nat} (there : ∀ state, I state → distance state = 0 → goal state)
    (nearer : ∀ input state, I state → allowed input state → ¬goal state →
      ∃ next, step input state = .ok next ∧ I next ∧ distance next < distance state)
    {inputs : List ι} {start : σ} (initial : I start) (steered : Steered step allowed inputs start)
    (enough : distance start ≤ inputs.length) :
    ∃ taken rest final, inputs = taken ++ rest ∧ taken.length ≤ distance start ∧ goal final ∧
      Execution step (fun input state => allowed input state ∧ ¬goal state) start taken final := by
  induction inputs generalizing start with
  | nil => exact ⟨[], [], start, rfl, Nat.zero_le _, there start initial (Nat.le_zero.mp enough), .nil⟩
  | cons input inputs ih =>
    by_cases arrived : goal start
    · exact ⟨[], input :: inputs, start, rfl, Nat.zero_le _, arrived, .nil⟩
    · obtain ⟨permitted, onward⟩ := steered
      obtain ⟨next, stepped, kept, closer⟩ := nearer input start initial permitted arrived
      rw [List.length_cons] at enough
      obtain ⟨taken, rest, final, rfl, few, arrives, ran⟩ := ih kept (onward next stepped) (by omega)
      exact ⟨input :: taken, rest, final, rfl, by rw [List.length_cons]; omega, arrives,
        .append (.snoc .nil ⟨permitted, arrived⟩ stepped) ran⟩

end Communo.Lib.Runs
