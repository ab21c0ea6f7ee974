import Communo.Lib.Logs
import Communo.Resources

/-! The life of a TLS handle, read off the calls of a run: `SSL_new` makes it
live, `SSL_free` ends it, and what is freed may be neither used nor freed again. -/

namespace Communo.Handles
open Lib.KeyedList Lib.Runs Lib.Logs Session Handlers MainLoop Transitions Survival SessionTable Resources

def handleAction (handle : Handle) : Call → Action
  | .sslNew ssl => if ssl = some handle then .acquire else .other
  | .sslFree ssl => if ssl = some handle then .release else .other
  | .sslAccept ssl | .sslGetError ssl | .sslShutdown ssl | .sslRead ssl _ | .sslWrite ssl _ =>
      if ssl = some handle then .use else .other
  | _ => .other

/-- Every handle is freed at most once after `SSL_new` and not used after that. -/
def RespectsHandles (trace : List Call) : Prop := ∀ handle, Obeys (handleAction handle) .absent trace

def handleStage (handle : Handle) (trace : List Call) : Stage := stageFrom (handleAction handle) .absent trace

section Calls
variable {handle : Handle} {stage : Stage} {calls : List Call}

theorem leads_of_uses {held : Option Handle → Prop} (uses : ∀ call ∈ calls, Uses held call)
    (live : held (some handle) → stage = .live) : Leads (handleAction handle) stage calls stage := by
  by_cases mine : held (some handle)
  · rw [live mine]
    refine used fun call member => ?_
    have use := uses call member
    cases call with
    | sslNew => exact use.elim
    | sslFree => exact use.elim
    | sslShutdown => exact use.elim
    | sslAccept | sslGetError | sslRead | sslWrite => exact ite_eq_or_eq _ Action.use Action.other
    | _ => exact Or.inr rfl
  · have different {ssl : Option Handle} (others : held ssl) : ¬ssl = some handle := fun same => mine (same ▸ others)
    refine undisturbed (fun call member => ?_) stage
    have use := uses call member
    cases call with
    | sslNew => exact use.elim
    | sslFree => exact use.elim
    | sslShutdown => exact use.elim
    | sslAccept | sslGetError | sslRead | sslWrite => exact if_neg (different use)
    | _ => rfl

theorem leads_of_new {fresh : Handle} (fd : Int) (uses : ∀ call ∈ calls, Uses (· = some fresh) call) :
    Leads (handleAction handle) stage ([Call.sslNew (some fresh), .sslSetFd (some fresh) fd] ++ calls)
      (if handle = fresh then .live else stage) := by
  have made : Leads (handleAction handle) stage [Call.sslNew (some fresh), .sslSetFd (some fresh) fd]
      (if handle = fresh then .live else stage) := by
    by_cases mine : handle = fresh
    · simp [Leads, mine, handleAction, Stage.advance, Stage.permits]
    · have different : ¬fresh = handle := fun same => mine same.symm
      simp [Leads, handleAction, mine, different, advance_other, permits_other]
  exact made.append (leads_of_uses uses fun mine => if_pos (Option.some.inj mine))

theorem leads_of_freed {fresh : Handle} (fd : Int) (uses : ∀ call ∈ calls, Uses (· = some fresh) call)
    {rest : List Call} (quiet : ∀ call ∈ rest, handleAction handle call = .other) :
    Leads (handleAction handle) stage
      ([Call.sslNew (some fresh), .sslSetFd (some fresh) fd] ++ calls ++ .sslFree (some fresh) :: rest)
      (if handle = fresh then .released else stage) := by
  refine (leads_of_new fd uses).append ?_
  by_cases mine : handle = fresh
  · rw [if_pos mine, if_pos mine]
    exact released (if_pos (congrArg some mine.symm)) quiet
  · have apart : handleAction handle (.sslFree (some fresh)) = .other :=
      if_neg fun same => mine (Option.some.inj same).symm
    rw [if_neg mine, if_neg mine]
    exact undisturbed (List.forall_mem_cons.mpr ⟨apart, quiet⟩) stage

theorem leads_of_refused {input : Input} {fresh : Handle} (refused : Refused input fresh calls) :
    ∃ final, Leads (handleAction handle) stage calls final ∧ (handle ≠ fresh → final = stage) := by
  cases refused with
  | unallocated => exact ⟨stage, undisturbed (by simp [handleAction]) stage, fun _ => rfl⟩
  | unattached =>
    have freed : Leads (handleAction handle) stage _ _ := leads_of_freed input.acceptedFd
      (List.forall_mem_nil (Uses (· = some fresh)))
      (by simp [handleAction] : ∀ call ∈ [Call.shutdown input.acceptedFd, .close input.acceptedFd],
        handleAction handle call = .other)
    exact ⟨_, freed, fun other => if_neg other⟩
  | unfinished _ _ uses onHandle =>
    have freed : Leads (handleAction handle) stage _ _ := leads_of_freed input.acceptedFd onHandle
      (List.forall_mem_nil (handleAction handle · = .other))
    exact ⟨_, freed, fun other => if_neg other⟩

theorem leads_of_vacate {hole : ClientSocket} (live : hole.ssl = some handle → stage = .live) :
    Leads (handleAction handle) stage (vacate hole) (if hole.ssl = some handle then .released else stage) := by
  have closing : ∀ call ∈ if hole.socket ≠ invalidSocket then [Call.close hole.socket] else [],
      handleAction handle call = .other := by
    intro call member
    split at member
    · rw [List.mem_singleton.mp member]
      rfl
    · simp at member
  unfold vacate
  by_cases mine : hole.ssl = some handle
  · rw [live mine, if_pos mine, mine, Option.isSome_some, if_pos rfl]
    exact released (if_pos rfl) closing
  · rw [if_neg mine]
    refine (undisturbed (fun call member => ?_) stage).append (undisturbed closing stage)
    split at member
    · rw [List.mem_singleton.mp member]
      exact if_neg mine
    · simp at member

end Calls

structure Tracked (config : Config) : Prop where
  respects : RespectsHandles config.trace
  live : ∀ handle, held config (some handle) → handleStage handle config.trace = .live

theorem Tracked.extend {config next : Config} {calls : List Call} (tracked : Tracked config)
    (extended : next.trace = config.trace ++ calls)
    (each : ∀ handle, ∃ final, Leads (handleAction handle) (handleStage handle config.trace) calls final ∧
      (held next (some handle) → final = .live)) : Tracked next := by
  have whole (handle : Handle) : ∃ final, Leads (handleAction handle) .absent next.trace final ∧
      (held next (some handle) → final = .live) := by
    obtain ⟨final, leads, live⟩ := each handle
    exact ⟨final, extended ▸ Leads.append ⟨tracked.respects handle, rfl⟩ leads, live⟩
  constructor
  · intro handle
    obtain ⟨final, leads, -⟩ := whole handle
    exact leads.1
  · intro handle present
    obtain ⟨final, leads, live⟩ := whole handle
    exact leads.2.trans (live present)

theorem held_iff (config : Config) (ssl : Option Handle) :
    held config ssl ↔ ssl ∈ (config.server.clientSockets.map connection).map Connection.ssl := by
  rw [List.map_map]
  exact Iff.rfl

/-- No session is erased from the last place, and the table is empty when the server is destroyed. -/
def SparesDestructor (input : Input) (config : Config) : Prop :=
  (∀ it, Erases input config it → it.val + 1 < config.server.clientSockets.length) ∧
    (config.pc = .returning → config.server.clientSockets = [])

instance (input : Input) (config : Config) : Decidable (SparesDestructor input config) :=
  inferInstanceAs (Decidable (_ ∧ _))

section Steps
variable {host : Host} {input : Input} {config next : Config} {calls : List Call} (tracked : Tracked config)
  (secured : Secured (config.server.clientSockets.map connection) config.fresh)

theorem leads_of_opening (master fd : Int) (id : BitVec 64) (handle : Handle) (stage : Stage) :
    Leads (handleAction handle) stage [Call.fdIsSet master, .accept fd, .clientID id] stage :=
  undisturbed (by simp [handleAction]) stage

theorem leads_of_close (client : ClientSocket) (handle : Handle) (stage : Stage) :
    Leads (handleAction handle) stage client.close stage :=
  undisturbed (by simp [handleAction, ClientSocket.close]) stage

include secured in
theorem ne_of_held {handle : Handle} (present : held config (some handle)) : handle ≠ config.fresh := by
  obtain ⟨client, member, same⟩ := List.mem_map.mp present
  obtain ⟨mine, early, named⟩ := secured.ssl_of_mem member
  obtain rfl : mine = handle := Option.some.inj (named.symm.trans same)
  exact Nat.ne_of_lt early

include secured in
theorem held_of_erased {it : Fin config.server.clientSockets.length}
    (shrunk : next.server.clientSockets = config.server.clientSockets.eraseIdx it) {ssl : Option Handle}
    (present : held next ssl) : held config ssl ∧ (config.server.clientSockets.get it).ssl ≠ ssl := by
  obtain ⟨client, member, rfl⟩ := List.mem_map.mp present
  rw [shrunk] at member
  obtain ⟨still, different⟩ := (mem_eraseIdx_iff secured.distinct_ssl it client).mp member
  exact ⟨List.mem_map_of_mem still, different.symm⟩

include tracked secured in
theorem Tracked.step (spares : SparesDestructor input config) (extended : next.trace = config.trace ++ calls)
    (worked : Worked input config next calls) : Tracked next := by
  refine tracked.extend extended fun handle => ?_
  cases worked with
  | talked _ kept _ uses =>
    refine ⟨_, leads_of_uses uses (tracked.live handle), fun present => tracked.live handle ?_⟩
    rw [held_iff, ← kept, ← held_iff]
    exact present
  | refused accepts kept _ failed =>
    obtain ⟨final, leads, same⟩ := @leads_of_refused handle (handleStage handle config.trace) _ _ _ failed
    have closing : Leads (handleAction handle) final [Call.close input.acceptedFd] final :=
      undisturbed (by simp [handleAction]) final
    refine ⟨final, ((leads_of_opening _ _ _ handle _).append leads).append closing, fun present => ?_⟩
    have still : held config (some handle) := by
      rw [held_iff, ← kept, ← held_iff]
      exact present
    rw [same (ne_of_held secured still)]
    exact tracked.live handle still
  | admitted accepts _ _ grown _ onHandle =>
    refine ⟨_, (leads_of_opening _ _ _ handle _).append (leads_of_new input.acceptedFd onHandle), fun present => ?_⟩
    split
    · rfl
    · next old =>
      rw [held_iff, grown, List.map_append, List.mem_append, ← held_iff] at present
      rcases present with still | new
      · exact tracked.live handle still
      · exact absurd (Option.some.inj (List.mem_singleton.mp new)) old
  | @erased it polled erases shrunk _ uses =>
    rw [if_pos (spares.1 it erases)]
    have live (mine : (config.server.clientSockets.get it).ssl = some handle) :
        handleStage handle config.trace = .live :=
      tracked.live handle (mine ▸ List.mem_map_of_mem (List.get_mem _ _))
    refine ⟨_, ((leads_of_uses uses (tracked.live handle)).append (leads_of_close _ handle _)).append
      (leads_of_vacate live), fun present => ?_⟩
    obtain ⟨still, different⟩ := held_of_erased secured shrunk present
    rw [if_neg different]
    exact tracked.live handle still
  | closed _ kept _ =>
    refine ⟨_, undisturbed (fun call made => ?_) _, fun present => tracked.live handle ?_⟩
    · obtain ⟨client, -, closed⟩ := List.mem_flatMap.mp made
      simp only [ClientSocket.close, List.mem_cons, List.not_mem_nil, or_false] at closed
      rcases closed with rfl | rfl
      · rfl
      · rfl
    · rw [held, ← kept]
      exact present
  | returned reached emptied _ =>
    rw [spares.2 reached]
    refine ⟨_, undisturbed (by simp) _, fun present => ?_⟩
    rw [held, emptied] at present
    exact absurd present List.not_mem_nil

/-- The destructor uses the handle that it has just freed. -/
theorem not_obeys_destroy {client : ClientSocket} {handle : Handle} (held : client.ssl = some handle)
    (rest : List Call) : ¬Obeys (handleAction handle) .live (client.destroy ++ rest) := by
  simp [ClientSocket.destroy, held, handleAction, Stage.advance, Stage.permits]

include tracked secured in
theorem sparesDestructor_of_respects (stepped : step host input config = .ok next)
    (respects : RespectsHandles next.trace) : SparesDestructor input config := by
  obtain ⟨calls, extended, worked⟩ := worked_of_step stepped
  have lawful (handle : Handle) : Obeys (handleAction handle) (handleStage handle config.trace) calls := by
    have whole := respects handle
    rw [extended, obeys_append] at whole
    exact whole.2
  have live {client : ClientSocket} (member : client ∈ config.server.clientSockets) :
      ∃ handle, client.ssl = some handle ∧ handleStage handle config.trace = .live := by
    obtain ⟨handle, -, named⟩ := secured.ssl_of_mem member
    exact ⟨handle, named, tracked.live handle (named ▸ List.mem_map_of_mem member)⟩
  constructor
  · intro it erases
    obtain ⟨polled, uses, rfl⟩ := worked.calls_of_erases erases
    by_contra last
    obtain ⟨handle, named, alive⟩ := live (List.get_mem config.server.clientSockets it)
    have before : Leads (handleAction handle) .live (polled ++ (config.server.clientSockets.get it).close) .live :=
      (leads_of_uses uses fun _ => rfl).append (leads_of_close _ handle _)
    have after := lawful handle
    rw [if_neg last, obeys_append, alive, before.2] at after
    rw [← List.append_nil (ClientSocket.destroy _)] at after
    exact not_obeys_destroy named [] after.2
  · intro returning
    cases worked with
    | talked keeps => exact absurd returning keeps.returns
    | refused accepts => exact absurd (accepts.1.symm.trans returning) (by simp)
    | admitted accepts => exact absurd (accepts.1.symm.trans returning) (by simp)
    | closed reached => exact absurd (reached.symm.trans returning) (by simp)
    | erased erases => exact absurd (erases.1.symm.trans returning) (by simp)
    | returned =>
      cases sockets : config.server.clientSockets with
      | nil => rfl
      | cons client clients =>
        obtain ⟨handle, named, alive⟩ := live (sockets ▸ List.mem_cons_self : client ∈ config.server.clientSockets)
        have after := lawful handle
        rw [sockets, List.flatMap_cons, alive] at after
        exact absurd after (not_obeys_destroy named _)

end Steps

theorem tracked_of_run {host : Host} {boot : Boot} {inputs : List Input} {config : Config}
    (ran : ServerRun host SparesDestructor boot inputs config) : Tracked config := by
  have maintained : Secured (config.server.clientSockets.map connection) config.fresh ∧ Tracked config := by
    refine ran.invariant (I := fun config => Secured (config.server.clientSockets.map connection) config.fresh ∧
      Tracked config) ⟨?_, ?_⟩ ?_
    · exact ⟨by simp [Boot.config], by simp [Boot.config], by simp [Boot.config]⟩
    · exact ⟨fun handle => trivial, fun handle present => absurd present List.not_mem_nil⟩
    · rintro input config next ⟨secured, tracked⟩ spares stepped
      obtain ⟨calls, effect⟩ := stepped_of_step stepped
      obtain ⟨calls, extended, worked⟩ := worked_of_step stepped
      exact ⟨secured_of_stepped secured effect, tracked.step secured spares extended worked⟩
  exact maintained.2

/-- A run keeps to the protocol of the handles exactly when it never comes to the destructor with a live one. -/
theorem handles_respected_iff (host : Host) (boot : Boot) (inputs : List Input) (config : Config)
    (ran : ServerRun host (fun _ _ => True) boot inputs config) :
    RespectsHandles config.trace ↔ ServerRun host SparesDestructor boot inputs config := by
  constructor
  · refine ran.strict_of_final (J := fun config => RespectsHandles config.trace) ?_ ?_
    · intro input config next _ stepped respects handle
      obtain ⟨calls, extended, -⟩ := worked_of_step stepped
      have whole := respects handle
      rw [extended, obeys_append] at whole
      exact whole.1
    · intro inputs input config next before _ stepped respects
      exact sparesDestructor_of_respects (tracked_of_run before) (secured_of_run before) stepped respects
  · intro careful
    exact (tracked_of_run careful).respects

/-- The first of two clients hangs up, and its handle is freed in good order. -/
theorem handles_respected_reconnecting :
    ∃ config, ServerRun exampleHost (fun _ _ => True) (exampleBoot []) reconnecting config ∧
      RespectsHandles config.trace ∧ handleStage 0 config.trace = .released ∧ handleStage 1 config.trace = .live ∧
      handleStage 2 config.trace = .live := by
  obtain ⟨config, ran⟩ : ∃ config, run (step exampleHost) reconnecting (exampleBoot []).config = .ok config := ⟨_, rfl⟩
  have spared : ServerRun exampleHost SparesDestructor (exampleBoot []) reconnecting config :=
    Execution.of_steered (by decide) ran
  have execution : ServerRun exampleHost (fun _ _ => True) (exampleBoot []) reconnecting config :=
    spared.weaken fun _ _ _ _ _ => trivial
  refine ⟨config, execution,
    (handles_respected_iff exampleHost (exampleBoot []) reconnecting config execution).mpr spared, ?_⟩
  cases ran
  decide

/-- The only client disconnects: its session is destroyed in the last place, and its handle is shut down after it
was freed. -/
theorem hangUp_uses_freed_handle :
    ∃ config, ServerRun exampleHost (fun _ _ => True) (exampleBoot []) (untilRead ++ [hangUp]) config ∧
      ¬RespectsHandles config.trace := by
  obtain ⟨config, ran⟩ : ∃ config, run (step exampleHost) (untilRead ++ [hangUp]) (exampleBoot []).config = .ok config :=
    ⟨_, rfl⟩
  have start : ServerRun exampleHost (fun _ _ => True) (exampleBoot []) [] _ := .nil
  refine ⟨config, start.of_run ran, fun respects => ?_⟩
  have broken : ¬Obeys (handleAction 0) .absent config.trace := by
    cases ran
    decide
  exact broken (respects 0)

end Communo.Handles
