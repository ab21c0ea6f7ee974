import Communo.Lib.Runs

/-! Machines that answer an input with outputs or do not accept it, and machines
with a log that follow such a one step by step. -/

namespace Communo.Lib.Transducers
open Runs

/-- The inputs a transducer accepts one after the other, and all that it puts out meanwhile. -/
inductive Reacts {τ ι ο : Type} (react : τ → ι → Option (τ × List ο)) (start : τ) : List ι → List ο → τ → Prop where
  | nil : Reacts react start [] [] start
  | snoc {inputs : List ι} {outputs more : List ο} {state next : τ} {input : ι}
      (before : Reacts react start inputs outputs state) (accepted : react state input = some (next, more)) :
      Reacts react start (inputs ++ [input]) (outputs ++ more) next

namespace Reacts
variable {τ ι ο : Type} {react : τ → ι → Option (τ × List ο)} {start : τ}

theorem single {input : ι} {next : τ} {outputs : List ο} (accepted : react start input = some (next, outputs)) :
    Reacts react start [input] outputs next :=
  .snoc .nil accepted

theorem append {first second : List ι} {early late : List ο} {middle final : τ}
    (before : Reacts react start first early middle) (later : Reacts react middle second late final) :
    Reacts react start (first ++ second) (early ++ late) final := by
  induction later with
  | nil => simpa using before
  | snoc _ accepted ih =>
    rw [← List.append_assoc, ← List.append_assoc]
    exact .snoc ih accepted

theorem invariant {I : τ → Prop}
    (preserved : ∀ state input next outputs, I state → react state input = some (next, outputs) → I next)
    {inputs : List ι} {outputs : List ο} {state : τ} (initial : I start)
    (reacts : Reacts react start inputs outputs state) : I state := by
  induction reacts with
  | nil => exact initial
  | snoc _ accepted ih => exact preserved _ _ _ _ ih accepted

/-- Inputs that change nothing and are not seen may be left out, and the rest replaced by inputs that look the same.
`K` tells them and holds all the way back. -/
theorem purged {K : τ → Prop} {keep : ι → Bool} {alike : ι → ι → Prop} {β : Type} {look : ο → Option β}
    (backward : ∀ state input next outputs, react state input = some (next, outputs) → K next → K state)
    (idle : ∀ state input next outputs, K state → react state input = some (next, outputs) → keep input = false →
      next = state ∧ outputs.filterMap look = [])
    (equal : ∀ input other, alike input other → keep other = keep input)
    (replaced : ∀ state input other next outputs, react state input = some (next, outputs) → keep input = true →
      alike input other → ∃ rest, react state other = some (next, rest) ∧ rest.filterMap look = outputs.filterMap look)
    {inputs others : List ι} {outputs : List ο} {state : τ} (reacts : Reacts react start inputs outputs state)
    (final : K state) (pairs : List.Forall₂ alike inputs others) :
    ∃ rest, Reacts react start (others.filter keep) rest state ∧ rest.filterMap look = outputs.filterMap look := by
  induction reacts generalizing others with
  | nil =>
    rw [List.forall₂_nil_left_iff.mp pairs]
    exact ⟨[], .nil, rfl⟩
  | @snoc inputs outputs more state next input before accepted ih =>
    have here := backward _ _ _ _ accepted final
    obtain ⟨early, last, rfl, earlier, pair⟩ : ∃ early last, others = early ++ [last] ∧
        List.Forall₂ alike inputs early ∧ alike input last := by
      have front := List.forall₂_take inputs.length pairs
      have back := List.forall₂_drop inputs.length pairs
      rw [List.take_left] at front
      rw [List.drop_left, List.forall₂_cons_left_iff] at back
      obtain ⟨last, rest, pair, none, split⟩ := back
      rw [List.forall₂_nil_left_iff.mp none] at split
      exact ⟨_, last, by rw [← split, List.take_append_drop], front, pair⟩
    obtain ⟨rest, kept, same⟩ := ih here earlier
    rw [List.filter_append, List.filterMap_append]
    cases keeps : keep input with
    | true =>
      obtain ⟨answers, accepted', looks⟩ := replaced _ _ _ _ _ accepted keeps pair
      refine ⟨rest ++ answers, ?_, by rw [List.filterMap_append, same, looks]⟩
      rw [List.filter_cons_of_pos ((equal _ _ pair).trans keeps)]
      exact .snoc kept accepted'
    | false =>
      obtain ⟨rfl, unseen⟩ := idle _ _ _ _ here accepted keeps
      refine ⟨rest, ?_, by rw [unseen, List.append_nil, same]⟩
      rw [List.filter_cons_of_neg (by simp [equal _ _ pair, keeps]), List.filter_nil, List.append_nil]
      exact kept

end Reacts

def toward {κ α : Type} [DecidableEq κ] (key : κ) (outputs : List (κ × α)) : List α :=
  outputs.filterMap fun output => if output.1 = key then some output.2 else none

section Toward
variable {κ α : Type} [DecidableEq κ]

@[simp]
theorem toward_append (key : κ) (first second : List (κ × α)) :
    toward key (first ++ second) = toward key first ++ toward key second :=
  List.filterMap_append

@[simp]
theorem toward_nil (key : κ) : toward key ([] : List (κ × α)) = [] := rfl

@[simp]
theorem toward_cons (key : κ) (output : κ × α) (rest : List (κ × α)) :
    toward key (output :: rest) = (if output.1 = key then [output.2] else []) ++ toward key rest := by
  by_cases own : output.1 = key
  · simp [toward, own]
  · simp [toward, own]

theorem mem_toward {key : κ} {outputs : List (κ × α)} {item : α} : item ∈ toward key outputs ↔ (key, item) ∈ outputs := by
  rw [toward, List.mem_filterMap]
  constructor
  · rintro ⟨output, member, found⟩
    split at found
    · next own =>
      obtain rfl := Option.some.inj found
      exact own ▸ member
    · cases found
  · intro member
    exact ⟨(key, item), member, if_pos rfl⟩

theorem toward_map {β : Type} {address : β → κ} {entries : List β} (distinct : (entries.map address).Nodup) (key : κ)
    (item : α) :
    toward key (entries.map fun entry => (address entry, item)) =
      if key ∈ entries.map address then [item] else [] := by
  induction entries with
  | nil => rfl
  | cons entry entries ih =>
    obtain ⟨apart, rest⟩ := List.nodup_cons.mp distinct
    rw [List.map_cons, toward_cons, ih rest]
    by_cases own : address entry = key
    · subst own
      simp [apart]
    · have other : ¬key = address entry := fun same => own same.symm
      simp [own, other]

theorem toward_rel {κ' β : Type} [DecidableEq κ'] {related : α → β → Prop} {key : κ} {key' : κ'}
    {outputs : List (κ × α)} {others : List (κ' × β)}
    (pairwise : List.Forall₂ (fun output other => (output.1 = key ↔ other.1 = key') ∧ related output.2 other.2)
      outputs others) :
    List.Forall₂ related (toward key outputs) (toward key' others) := by
  induction pairwise with
  | nil => exact .nil
  | @cons output other _ _ same _ ih =>
    rw [toward_cons, toward_cons]
    by_cases own : output.1 = key
    · rw [if_pos own, if_pos (same.1.mp own)]
      exact .cons same.2 ih
    · rw [if_neg own, if_neg fun mine => own (same.1.mpr mine)]
      exact ih

end Toward

theorem forall₂_comp {α β γ : Type} {first : α → β → Prop} {second : β → γ → Prop} {final : α → γ → Prop}
    (compose : ∀ one other last, first one other → second other last → final one last) {ones : List α} {others : List β}
    {lasts : List γ} (early : List.Forall₂ first ones others) (late : List.Forall₂ second others lasts) :
    List.Forall₂ final ones lasts := by
  induction early generalizing lasts with
  | nil =>
    cases late
    exact .nil
  | cons here _ ih =>
    cases late with
    | cons there rest => exact .cons (compose _ _ _ here there) (ih rest)

theorem filterMap_eq_of_forall₂ {α β γ : Type} {first : α → Option γ} {second : β → Option γ} {ones : List α}
    {others : List β} (same : List.Forall₂ (fun one other => first one = second other) ones others) :
    ones.filterMap first = others.filterMap second := by
  induction same with
  | nil => rfl
  | cons here _ ih => rw [List.filterMap_cons, List.filterMap_cons, here, ih]

theorem exists_left_of_forall₂ {α β : Type} {related : α → β → Prop} {ones : List α} {others : List β}
    (pairwise : List.Forall₂ related ones others) {other : β} (member : other ∈ others) :
    ∃ one ∈ ones, related one other := by
  induction pairwise with
  | nil => cases member
  | @cons one _ _ _ here _ ih =>
    rcases List.mem_cons.mp member with rfl | later
    · exact ⟨one, List.mem_cons_self, here⟩
    · obtain ⟨found, inside, same⟩ := ih later
      exact ⟨found, List.mem_cons_of_mem _ inside, same⟩

section Following
variable {σ ι ε τ υ ο κ β : Type} {step : ι → σ → Except ε σ} {allowed : ι → σ → Prop} {start : σ}
  {react : τ → υ → Option (τ × List ο)} {origin : τ}

/-- A way of explaining log entries by inputs and outputs that may be applied piece by piece. A piece
belongs to some inputs of the machine and takes a memory from one content to another. -/
structure Additive (explains : β → β → List ι → List κ → List υ → List ο → Prop) : Prop where
  nil : ∀ memory, explains memory memory [] [] [] []
  append : ∀ {first middle last : β} {driven further : List ι} {entries later : List κ} {inputs more : List υ}
    {outputs rest : List ο}, explains first middle driven entries inputs outputs →
      explains middle last further later more rest →
      explains first last (driven ++ further) (entries ++ later) (inputs ++ more) (outputs ++ rest)

/-- A run of the transducer from `origin` that explains the entries and ends in a state related to `state`. -/
def Followed (react : τ → υ → Option (τ × List ο)) (origin : τ) (explains : List κ → List υ → List ο → Prop)
    (related : σ → τ → Prop) (entries : List κ) (state : σ) : Prop :=
  ∃ inputs outputs final, Reacts react origin inputs outputs final ∧ related state final ∧ explains entries inputs outputs

/-- If the transducer can follow every step of the machine, it can follow every run. -/
theorem followed_of_execution {explains : β → β → List ι → List κ → List υ → List ο → Prop} (additive : Additive explains)
    {related : σ → τ → Prop} {log : σ → List κ} {memory : σ → β} (initial : related start origin)
    (follow : ∀ inputs input state next abstract, Execution step allowed start inputs state → allowed input state →
      step input state = .ok next → related state abstract →
      ∃ entries, log next = log state ++ entries ∧
        Followed react abstract (explains (memory state) (memory next) [input]) related entries next)
    {inputs : List ι} {state : σ} (execution : Execution step allowed start inputs state) :
    ∃ entries, log state = log start ++ entries ∧
      Followed react origin (explains (memory start) (memory state) inputs) related entries state := by
  induction execution with
  | nil => exact ⟨[], (List.append_nil _).symm, [], [], origin, .nil, initial, additive.nil _⟩
  | snoc before permitted stepped ih =>
    obtain ⟨early, grew, events, outputs, middle, reacts, here, explained⟩ := ih
    obtain ⟨late, grows, more, rest, final, later, there, explainedLater⟩ :=
      follow _ _ _ _ middle before permitted stepped here
    refine ⟨early ++ late, by rw [grows, grew, List.append_assoc], events ++ more, outputs ++ rest, final,
      reacts.append later, there, additive.append explained explainedLater⟩

end Following

end Communo.Lib.Transducers
