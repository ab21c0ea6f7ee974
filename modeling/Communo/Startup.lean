import Communo.Leaks

/-! The server from its command line to its end, and the TLS context it makes
before the loop: `main` goes on when `InitSSL` has failed. -/

namespace Communo.Startup
open Lib.ByteCodec Lib.CheckedMemory Lib.Runs Lib.Logs Protocol NumParser Chat Session Handlers MainLoop Transitions
  SessionTable Resources Leaks

def known : List (List Byte) := [text "no-daemon", text "debug", text "help"]

/-- The constructor of `Options`: the names that were given, or an error about the first argument that is none. -/
def parseOptions : List (List Byte) → Except (List Byte) (List (List Byte))
  | [] => .ok []
  | arg :: args =>
      if arg.length < 3 ∨ arg.take 2 ≠ text "--" then .error (text "Invalid argument: " ++ arg)
      else if arg.drop 2 ∉ known then .error (text "Unknown option: --" ++ arg.drop 2)
      else (parseOptions args).map (arg.drop 2 :: ·)

theorem parseOptions_eq_ok_iff (args names : List (List Byte)) :
    parseOptions args = .ok names ↔ args = names.map (text "--" ++ ·) ∧ ∀ name ∈ names, name ∈ known := by
  induction args generalizing names with
  | nil => cases names <;> simp [parseOptions]
  | cons arg args ih =>
    constructor
    · intro parsed
      rw [parseOptions] at parsed
      split_ifs at parsed with invalid unknown
      cases later : parseOptions args with
      | error what =>
        rw [later] at parsed
        cases parsed
      | ok rest =>
        rw [later] at parsed
        obtain rfl := Except.ok.inj parsed
        obtain ⟨spelled, recognized⟩ := (ih rest).mp later
        push Not at invalid
        refine ⟨?_, List.forall_mem_cons.mpr ⟨unknown, recognized⟩⟩
        rw [List.map_cons, ← spelled, ← invalid.2, List.take_append_drop]
    · rintro ⟨spelled, recognized⟩
      cases names with
      | nil => cases spelled
      | cons name names =>
        obtain ⟨rfl, later⟩ := List.cons.inj spelled
        obtain ⟨mem, recognized⟩ := List.forall_mem_cons.mp recognized
        have front : (text "--" ++ name).take 2 = text "--" := rfl
        have back : (text "--" ++ name).drop 2 = name := rfl
        have long : ∀ name ∈ known, ¬(text "--" ++ name).length < 3 := by decide
        have valid : ¬((text "--" ++ name).length < 3 ∨ (text "--" ++ name).take 2 ≠ text "--") :=
          not_or.mpr ⟨long name mem, not_not.mpr front⟩
        rw [parseOptions, if_neg valid, back, if_neg (not_not.mpr mem), (ih names).mpr ⟨later, recognized⟩]
        rfl

inductive Fork where
  | failed
  | parent
  | child
  deriving DecidableEq, Repr

structure Answers where
  fork : Fork
  session : Bool
  directory : Bool
  context : Option Handle
  protocol : Bool
  certificate : Bool
  key : Bool
  matching : Bool
  socket : Option Int
  reusable : Bool
  bound : Bool
  listening : Bool
  rows : Option (List Row)
  buffer : Nat → Byte
  readfds : Int → Bool

inductive ContextCall where
  | new (ctx : Option Handle)
  -- the protocol version, the certificate, the key, its check or the options
  | set (ctx : Option Handle)
  | sslNew (ctx : Option Handle)
  | free (ctx : Option Handle)
  deriving DecidableEq, Repr

/-- `Server::InitSSL`: whether it returns, and its calls. What is thrown is caught by `main`, and
a context that has been freed stays in the member. -/
def initSSL (answers : Answers) : Bool × List ContextCall :=
  let ctx := answers.context
  if ctx = none then (false, [.new ctx])
  else if answers.protocol = false then (false, [.new ctx, .set ctx, .free ctx])
  else if answers.certificate = false then (false, [.new ctx, .set ctx, .set ctx, .free ctx])
  else if answers.key = false then (false, [.new ctx, .set ctx, .set ctx, .set ctx, .free ctx])
  else if answers.matching = false then (false, [.new ctx, .set ctx, .set ctx, .set ctx, .set ctx, .free ctx])
  else (true, [.new ctx, .set ctx, .set ctx, .set ctx, .set ctx, .set ctx])

inductive Launch where
  | exits (code : Nat)
  -- the exception of `Database` is not caught
  | terminates
  -- without a socket the loop fills its set with descriptor -1
  | adrift
  | loops (boot : Boot)

/-- `InitSocket` and `InitEntities`. -/
def initSocket (answers : Answers) : Launch :=
  match answers.socket, answers.rows with
  | some socket, some rows =>
      if answers.reusable && answers.bound && answers.listening then
        .loops ⟨rows, socket, true, answers.buffer, answers.readfds⟩
      else .exits 1
  | some _, none => if answers.reusable && answers.bound && answers.listening then .terminates else .exits 1
  | none, none => .terminates
  | none, some _ => .adrift

def launch (args : List (List Byte)) (answers : Answers) : Launch :=
  match parseOptions args with
  | .error _ => .exits 1
  | .ok names =>
      if text "help" ∈ names then .exits 0
      else if text "no-daemon" ∈ names then initSocket answers
      else
        match answers.fork with
        | .failed => .exits 1
        | .parent => .exits 0
        | .child => if answers.session && answers.directory then initSocket answers else .exits 1

/-- A run of `main` that has come to its loop with a listening socket. -/
def MainRun (host : Host) (args : List (List Byte)) (answers : Answers) (allowed : Input → Config → Prop)
    (inputs : List Input) (config : Config) : Prop :=
  ∃ boot, launch args answers = .loops boot ∧ ServerRun host allowed boot inputs config

/-- The context of every `SSL_new` in the loop is the member. -/
def contextUses (ctx : Option Handle) (trace : List Call) : List ContextCall :=
  trace.filterMap fun
    | .sslNew _ => some (.sslNew ctx)
    | _ => none

/-- Everything that has been done with the context: by `InitSSL`, by the loop and by `~Server`. -/
def contextCalls (answers : Answers) (config : Config) : List ContextCall :=
  (initSSL answers).2 ++ contextUses answers.context config.trace ++
    (if config.pc = .exited ∧ answers.context.isSome then [.free answers.context] else [])

def contextAction (handle : Handle) : ContextCall → Action
  | .new ctx => if ctx = some handle then .acquire else .other
  | .set ctx | .sslNew ctx => if ctx = some handle then .use else .other
  | .free ctx => if ctx = some handle then .release else .other

/-- The context is not touched before it is made or after it is freed. -/
def RespectsContext (calls : List ContextCall) : Prop := ∀ handle, Obeys (contextAction handle) .released calls

/-- The step takes no connection and does not end the server. -/
def Refuses (input : Input) (config : Config) : Prop := ¬Accepts input config ∧ config.pc ≠ .returning

section Steps
variable {host : Host} {input : Input} {config next : Config}

theorem makes_iff {calls : List Call} (worked : Worked input config next calls) :
    (∃ ssl, .sslNew ssl ∈ calls) ↔ Accepts input config := by
  have silent {held : Option Handle → Prop} {calls : List Call} (uses : ∀ call ∈ calls, Uses held call) :
      ¬∃ ssl, .sslNew ssl ∈ calls := fun ⟨_, made⟩ => uses _ made
  cases worked with
  | talked keeps kept state uses => exact iff_of_false (silent uses) keeps.accepts
  | refused accepts kept state failed =>
    refine iff_of_true ?_ accepts
    cases failed <;> simp
  | admitted accepts allocated attached grown state onHandle => exact iff_of_true ⟨some config.fresh, by simp⟩ accepts
  | erased erases shrunk state uses =>
    refine iff_of_false ?_ fun accepts => ?_
    · rintro ⟨ssl, made⟩
      rcases List.mem_append.mp made with talk | moved
      · rcases List.mem_append.mp talk with talk | closed
        · exact silent uses ⟨ssl, talk⟩
        · simp [ClientSocket.close] at closed
      · split at moved
        · simpa using (mem_vacate _).mp moved
        · simpa using (mem_destroy _).mp moved
    · cases accepts.1.symm.trans erases.1
  | closed reached kept state =>
    refine iff_of_false ?_ fun accepts => ?_
    · simp [ClientSocket.close]
    · cases accepts.1.symm.trans reached
  | returned reached emptied state =>
    refine iff_of_false ?_ fun accepts => ?_
    · rintro ⟨ssl, made⟩
      obtain ⟨client, -, made⟩ := List.mem_flatMap.mp made
      simpa using (mem_destroy _).mp made
    · cases accepts.1.symm.trans reached

theorem exited_iff (stepped : step host input config = .ok next) :
    next.pc = .exited ↔ config.pc = .returning ∨ config.pc = .exited := by
  cases reached : config.pc with
  | poolActivity | handleNewConnections =>
    simp only [step, reached] at stepped
    obtain rfl := Except.ok.inj stepped
    simp
  | processRequests it =>
    simp only [step, reached] at stepped
    split at stepped
    · obtain ⟨visited, -, returned⟩ := bind_eq_ok.mp stepped
      obtain rfl := Except.ok.inj returned
      simp
    · obtain rfl := Except.ok.inj stepped
      simp
  | loopEnd =>
    simp only [step, reached] at stepped
    obtain rfl := Except.ok.inj stepped
    simp only [reduceCtorEq, or_self, iff_false]
    split <;> simp
  | returning | exited =>
    simp only [step, reached] at stepped
    obtain rfl := Except.ok.inj stepped
    simp [reached]

def Untouched (config : Config) : Prop := (∀ ssl, .sslNew ssl ∉ config.trace) ∧ config.pc ≠ .exited

theorem untouched_iff (stepped : step host input config = .ok next) :
    Untouched next ↔ Untouched config ∧ Refuses input config := by
  obtain ⟨calls, trace, worked⟩ := worked_of_step stepped
  have makes := makes_iff worked
  have exits := exited_iff stepped
  unfold Untouched Refuses
  rw [trace, ne_eq, exits, ← makes]
  simp only [List.mem_append, not_or, forall_and, not_exists, ne_eq]
  tauto

end Steps

theorem refuses_iff {host : Host} {boot : Boot} {inputs : List Input} {config : Config}
    (ran : ServerRun host (fun _ _ => True) boot inputs config) :
    Untouched config ↔ ServerRun host Refuses boot inputs config := by
  constructor
  · intro untouched
    have backward (input : Input) (config next : Config) (_ : True) (stepped : step host input config = .ok next)
        (untouched : Untouched next) : Untouched config ∧ Refuses input config := (untouched_iff stepped).mp untouched
    exact ran.allowed_of_final backward untouched
  · intro refuses
    refine refuses.invariant ⟨by simp [Boot.config], by simp [Boot.config]⟩ ?_
    exact fun _ _ _ untouched refuses stepped => (untouched_iff stepped).mpr ⟨untouched, refuses⟩

section Contexts
variable {answers : Answers} {config : Config} {handle : Handle}

theorem contextUses_eq_nil_iff (ctx : Option Handle) (trace : List Call) :
    contextUses ctx trace = [] ↔ ∀ ssl, .sslNew ssl ∉ trace := by
  rw [contextUses, List.filterMap_eq_nil_iff]
  constructor
  · intro none ssl made
    simpa using none _ made
  · intro unmade call made
    cases call with
    | sslNew ssl => exact absurd made (unmade ssl)
    | _ => rfl

theorem mem_contextUses {ctx : Option Handle} {trace : List Call} {call : ContextCall}
    (made : call ∈ contextUses ctx trace) : call = .sslNew ctx := by
  obtain ⟨call', -, uses⟩ := List.mem_filterMap.mp made
  cases call' with
  | sslNew ssl => exact (Option.some.inj uses).symm
  | _ => cases uses

theorem respects_of_none (context : answers.context = none) : RespectsContext (contextCalls answers config) := by
  intro handle
  refine (undisturbed (fun call made => ?_) _).1
  have calls : (initSSL answers).2 = [.new none] := by simp [initSSL, context]
  simp only [contextCalls, calls, context, Option.isSome_none, Bool.false_eq_true, and_false, if_false,
    List.append_nil] at made
  rcases List.mem_append.mp made with start | loop
  · rw [List.mem_singleton.mp start]
    rfl
  · rw [mem_contextUses loop]
    rfl

theorem respects_of_set_up (succeeded : (initSSL answers).1 = true) : RespectsContext (contextCalls answers config) := by
  intro handle
  have calls : (initSSL answers).2 = .new answers.context :: List.replicate 5 (.set answers.context) := by
    simp only [initSSL] at succeeded ⊢
    split_ifs at succeeded ⊢
    rfl
  by_cases own : answers.context = some handle
  · have made : Leads (contextAction handle) .released (initSSL answers).2 .live := by
      simp [calls, Leads, own, contextAction, List.replicate, Stage.advance, Stage.permits]
    have uses : ∀ call ∈ contextUses answers.context config.trace,
        contextAction handle call = .use ∨ contextAction handle call = .other := by
      intro call loop
      rw [mem_contextUses loop]
      exact Or.inl (if_pos own)
    have serving := made.append (used uses)
    rw [contextCalls, obeys_append, serving.2]
    refine ⟨serving.1, ?_⟩
    split <;> simp [contextAction, own, Stage.permits]
  · refine (undisturbed (fun call made => ?_) _).1
    rw [contextCalls, calls] at made
    rcases List.mem_append.mp made with early | last
    · rcases List.mem_append.mp early with start | loop
      · rcases List.mem_cons.mp start with rfl | set
        · exact if_neg own
        · rw [List.eq_of_mem_replicate set]
          exact if_neg own
      · rw [mem_contextUses loop]
        exact if_neg own
    · split at last
      · rw [List.mem_singleton.mp last]
        exact if_neg own
      · cases last

theorem freed_of_failed {ctx : Handle} (context : answers.context = some ctx) (failed : ¬(initSSL answers).1 = true) :
    Obeys (contextAction handle) .released (initSSL answers).2 ∧
      stageFrom (contextAction ctx) .released (initSSL answers).2 = .released := by
  unfold initSSL at failed ⊢
  rw [context] at failed ⊢
  by_cases own : ctx = handle <;> split_ifs at failed ⊢ <;>
    simp_all [contextAction, Stage.advance, Stage.permits]

/-- After a failure the context is gone, and its next use or its release is one too many. -/
theorem respects_iff_of_failed {ctx : Handle} (context : answers.context = some ctx)
    (failed : ¬(initSSL answers).1 = true) :
    RespectsContext (contextCalls answers config) ↔ Untouched config := by
  unfold RespectsContext contextCalls
  rw [List.append_assoc, context]
  constructor
  · intro respects
    have obeys := ((obeys_append _ _ _ _).mp (respects ctx)).2
    obtain ⟨-, freed⟩ : Obeys (contextAction ctx) .released (initSSL answers).2 ∧ _ := freed_of_failed context failed
    rw [freed] at obeys
    rw [Untouched, ← contextUses_eq_nil_iff (some ctx)]
    cases uses : contextUses (some ctx) config.trace with
    | nil =>
      refine ⟨rfl, fun exited => ?_⟩
      simp [uses, exited, contextAction, Stage.permits] at obeys
    | cons call rest =>
      have first := mem_contextUses (uses ▸ List.mem_cons_self : call ∈ contextUses (some ctx) config.trace)
      simp [uses, first, contextAction, Stage.permits] at obeys
  · rintro ⟨unmade, running⟩ handle
    rw [(contextUses_eq_nil_iff _ _).mpr unmade, if_neg fun ended => running ended.1, List.append_nil, List.append_nil]
    exact (freed_of_failed context failed).1

end Contexts

/-- The server keeps to the life of its TLS context, from its start to its end, exactly if `InitSSL` has set
one up or has made none, or if no step has taken a connection or ended the server. -/
theorem context_respected_iff (host : Host) (args : List (List Byte)) (answers : Answers) (inputs : List Input)
    (config : Config) (ran : MainRun host args answers (fun _ _ => True) inputs config) :
    RespectsContext (contextCalls answers config) ↔
      answers.context = none ∨ (initSSL answers).1 = true ∨ MainRun host args answers Refuses inputs config := by
  obtain ⟨boot, launched, ran⟩ := ran
  have refuses : MainRun host args answers Refuses inputs config ↔ Untouched config := by
    rw [refuses_iff ran]
    constructor
    · rintro ⟨other, same, refuses⟩
      obtain rfl := Launch.loops.inj (launched.symm.trans same)
      exact refuses
    · exact fun refuses => ⟨boot, launched, refuses⟩
  rw [refuses]
  cases context : answers.context with
  | none => exact iff_of_true (respects_of_none context) (Or.inl rfl)
  | some ctx =>
    by_cases succeeded : (initSSL answers).1 = true
    · exact iff_of_true (respects_of_set_up succeeded) (Or.inr (Or.inl succeeded))
    · rw [respects_iff_of_failed context succeeded]
      simp [succeeded]

def uncertified : Answers where
  fork := .child
  session := true
  directory := true
  context := some 0
  protocol := true
  certificate := false
  key := true
  matching := true
  socket := some 3
  reusable := true
  bound := true
  listening := true
  rows := some []
  buffer _ := 0
  readfds _ := false

/-- The server starts without its certificate, and the first client that comes finds the context freed. -/
theorem context_freed_before_first_client :
    ∃ config, MainRun exampleHost [text "--no-daemon", text "--debug"] uncertified (fun _ _ => True) [connect 4, connect 4]
        config ∧
      ¬RespectsContext (contextCalls uncertified config) := by
  have launched : launch [text "--no-daemon", text "--debug"] uncertified = .loops (exampleBoot []) := by rfl
  obtain ⟨config, ran⟩ : ∃ config, run (step exampleHost) [connect 4, connect 4] (exampleBoot []).config = .ok config :=
    ⟨_, rfl⟩
  have start : ServerRun exampleHost (fun _ _ => True) (exampleBoot []) [] _ := .nil
  have whole := start.of_run ran
  have taken : ¬Untouched config := by
    cases ran
    exact fun untouched => absurd (untouched.1 (some 0)) (by decide)
  refine ⟨config, ⟨_, launched, whole⟩, fun respects => ?_⟩
  rcases (context_respected_iff exampleHost _ uncertified _ config ⟨_, launched, whole⟩).mp respects with
    none | succeeded | ⟨boot, same, refuses⟩
  · cases none
  · exact absurd succeeded (by decide)
  · obtain rfl := Launch.loops.inj (launched.symm.trans same)
    exact taken ((refuses_iff whole).mpr refuses)

end Communo.Startup
