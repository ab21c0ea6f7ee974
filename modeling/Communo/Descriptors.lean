import Communo.Lib.Logs
import Communo.Resources

/-! The life of a descriptor, read off the calls of a run: `accept` returns it
and `close` gives it up. The kernel returns the same number again later. -/

namespace Communo.Descriptors
open Lib.KeyedList Lib.Runs Lib.Logs Session Handlers MainLoop Transitions Survival SessionTable Resources

def fdAction (fd : Int) : Call → Action
  | .accept accepted => if 0 ≤ accepted ∧ accepted = fd then .acquire else .other
  | .close closed => if closed = fd then .release else .other
  | _ => .other

def fdStage (fd : Int) (trace : List Call) : Stage := stageFrom (fdAction fd) .absent trace

theorem fdAction_eq_acquire_iff {fd : Int} {call : Call} :
    fdAction fd call = .acquire ↔ 0 ≤ fd ∧ call = .accept fd := by
  cases call with
  | accept accepted =>
    simp only [fdAction, Call.accept.injEq]
    split
    · next mine =>
      obtain ⟨valid, rfl⟩ := mine
      simp [valid]
    · next other =>
      simp only [reduceCtorEq, false_iff]
      rintro ⟨valid, rfl⟩
      exact other ⟨valid, rfl⟩
  | close closed =>
    simp only [fdAction, reduceCtorEq, and_false, iff_false]
    split <;> simp
  | _ => simp [fdAction]

theorem fdAction_eq_release_iff {fd : Int} {call : Call} : fdAction fd call = .release ↔ call = .close fd := by
  cases call with
  | accept accepted =>
    simp only [fdAction, reduceCtorEq, iff_false]
    split <;> simp
  | close closed =>
    simp only [fdAction, Call.close.injEq]
    split
    · next mine => simp [mine]
    · next other => simp [other]
  | _ => simp [fdAction]

theorem isOpen_iff (trace : List Call) (fd : Int) : isOpen trace fd = true ↔ fdStage fd trace = .live := by
  suffices moved : ∀ (value : Bool) (stage : Stage), (value = true ↔ stage = .live) →
      (trace.foldl (reopen fd) value = true ↔ stageFrom (fdAction fd) stage trace = .live) from
    moved false .absent (by simp)
  induction trace with
  | nil => exact fun value stage same => same
  | cons call calls ih =>
    intro value stage same
    refine ih _ _ ?_
    cases call with
    | accept accepted =>
      simp only [reopen, fdAction]
      split
      · simp [Stage.advance]
      · rw [advance_other]
        exact same
    | close closed =>
      simp only [reopen, fdAction]
      split
      · cases stage <;> simp [Stage.advance]
      · rw [advance_other]
        exact same
    | _ => simpa only [reopen, fdAction, advance_other] using same

section Calls
variable {fd : Int} {stage : Stage} {calls : List Call}

theorem fdAction_of_uses {held : Option Handle → Prop} {call : Call} (uses : Uses held call) :
    fdAction fd call = .other := by
  cases call with
  | accept accepted =>
    have failed : accepted < 0 := uses
    exact if_neg fun mine => absurd mine.1 (not_le.mpr failed)
  | close => exact uses.elim
  | _ => rfl

theorem leads_of_talk {held : Option Handle → Prop} (uses : ∀ call ∈ calls, Uses held call) :
    Leads (fdAction fd) stage calls stage :=
  undisturbed (fun call member => fdAction_of_uses (uses call member)) stage

theorem leads_of_accept {accepted : Int} (valid : 0 ≤ accepted) (master : Int) (id : BitVec 64) :
    Leads (fdAction fd) stage [Call.fdIsSet master, .accept accepted, .clientID id]
      (if fd = accepted then .live else stage) := by
  by_cases mine : fd = accepted
  · simp [Leads, mine, valid, fdAction, Stage.advance, Stage.permits]
  · have different : ¬accepted = fd := fun same => mine same.symm
    simp [Leads, mine, different, fdAction, advance_other, permits_other]

theorem leads_of_handshake {fresh : Handle} {accepted : Int} (uses : ∀ call ∈ calls, Uses (· = some fresh) call) :
    Leads (fdAction fd) stage ([Call.sslNew (some fresh), .sslSetFd (some fresh) accepted] ++ calls) stage :=
  Leads.append (undisturbed (by simp [fdAction]) stage) (leads_of_talk uses)

theorem leads_of_release {closed : Int} (live : fd = closed → stage = .live) :
    Leads (fdAction fd) stage [Call.close closed] (if fd = closed then .released else stage) := by
  by_cases mine : fd = closed
  · rw [live mine, if_pos mine]
    exact released (if_pos mine.symm) (by simp)
  · have different : ¬closed = fd := fun same => mine same.symm
    rw [if_neg mine]
    exact undisturbed (by simp [fdAction, different]) stage

theorem leads_of_close {client : ClientSocket} (live : fd = client.socket → stage = .live) :
    Leads (fdAction fd) stage client.close (if fd = client.socket then .released else stage) := by
  have shut : Leads (fdAction fd) stage [Call.shutdown client.socket] stage := undisturbed (by simp [fdAction]) stage
  exact shut.append (leads_of_release live)

theorem fdAction_of_destroy {client : ClientSocket} {call : Call} (made : call ∈ client.destroy) :
    fdAction fd call = .other := by
  unfold ClientSocket.destroy at made
  split at made
  · simp only [List.mem_cons, List.not_mem_nil, or_false] at made
    rcases made with rfl | rfl
    · rfl
    · rfl
  · simp at made

theorem leads_of_closeAll {sockets : List ClientSocket} (distinct : (sockets.map ClientSocket.socket).Nodup)
    (live : fd ∈ sockets.map ClientSocket.socket → stage = .live) :
    Leads (fdAction fd) stage (sockets.flatMap ClientSocket.close)
      (if fd ∈ sockets.map ClientSocket.socket then .released else stage) := by
  induction sockets generalizing stage with
  | nil => exact undisturbed (by simp) stage
  | cons client clients ih =>
    rw [List.map_cons, List.nodup_cons] at distinct
    have here : Leads (fdAction fd) stage client.close (if fd = client.socket then .released else stage) :=
      leads_of_close fun mine => live (by simp [mine])
    rw [List.flatMap_cons]
    refine here.append ?_
    by_cases mine : fd = client.socket
    · have absent : fd ∉ clients.map ClientSocket.socket := mine ▸ distinct.1
      have later := ih distinct.2 (fun present => absurd present absent : _ → Stage.released = .live)
      rw [if_pos mine, if_pos (by simp [mine])]
      rw [if_neg absent] at later
      exact later
    · have later := ih distinct.2 (fun present => live (List.mem_cons_of_mem _ present) : _ → stage = .live)
      simpa [mine] using later

end Calls

def occupied (config : Config) (fd : Int) : Prop := fd ∈ config.server.clientSockets.map ClientSocket.socket

theorem occupied_iff (config : Config) (fd : Int) :
    occupied config fd ↔ fd ∈ (config.server.clientSockets.map connection).map Connection.socket := by
  rw [List.map_map]
  exact Iff.rfl

/-- No descriptor is closed twice, and those that are open belong to the sessions of a server that has not ended. -/
structure Accounted (config : Config) : Prop where
  obeys : ∀ fd, Obeys (fdAction fd) .absent config.trace
  owned : ∀ fd, fdStage fd config.trace = .live → config.server.serverState = .started ∧ occupied config fd

theorem Accounted.extend {config next : Config} {calls : List Call} (accounted : Accounted config)
    (extended : next.trace = config.trace ++ calls)
    (each : ∀ fd, ∃ final, Leads (fdAction fd) (fdStage fd config.trace) calls final ∧
      (final = .live → next.server.serverState = .started ∧ occupied next fd)) : Accounted next := by
  have whole (fd : Int) : ∃ final, Leads (fdAction fd) .absent next.trace final ∧
      (final = .live → next.server.serverState = .started ∧ occupied next fd) := by
    obtain ⟨final, leads, owned⟩ := each fd
    exact ⟨final, extended ▸ Leads.append ⟨accounted.obeys fd, rfl⟩ leads, owned⟩
  constructor
  · intro fd
    obtain ⟨final, leads, -⟩ := whole fd
    exact leads.1
  · intro fd live
    obtain ⟨final, leads, owned⟩ := whole fd
    exact owned (leads.2.symm.trans live)

/-- `InitSSL` does not fail before the handshake begins, and sessions are erased from the last place only. -/
def SparesDescriptors (input : Input) (config : Config) : Prop :=
  (Accepts input config → input.handshake.allocated = true ∧ input.handshake.attached = true) ∧
    ∀ it, Erases input config it → config.server.clientSockets.length ≤ it.val + 1

section Steps
variable {host : Host} {input : Input} {config next : Config} {calls : List Call}

section Started
variable (wellformed : Wellformed (table config))
include wellformed

theorem live_of_occupied {fd : Int} (present : occupied config fd) : fdStage fd config.trace = .live := by
  obtain ⟨client, member, rfl⟩ := List.mem_map.mp present
  exact (isOpen_iff _ _).mp (wellformed.opened (connection client) (List.mem_map_of_mem member))

theorem distinct_sockets : (config.server.clientSockets.map ClientSocket.socket).Nodup := by
  have distinct := wellformed.distinct
  rw [table, List.map_map] at distinct
  exact distinct

theorem occupied_of_erased {it : Fin config.server.clientSockets.length}
    (shrunk : next.server.clientSockets = config.server.clientSockets.eraseIdx it) {fd : Int}
    (present : occupied config fd) (different : fd ≠ (config.server.clientSockets.get it).socket) :
    occupied next fd := by
  obtain ⟨client, member, rfl⟩ := List.mem_map.mp present
  rw [occupied, shrunk]
  exact List.mem_map_of_mem ((mem_eraseIdx_iff (distinct_sockets wellformed) it client).mpr ⟨member, different⟩)

end Started

theorem Accounted.step (accounted : Accounted config) (phase : Phase config)
    (wellformed : config.server.serverState = .started → Wellformed (table config))
    (spares : SparesDescriptors input config) (extended : next.trace = config.trace ++ calls)
    (worked : Worked input config next calls) : Accounted next := by
  refine accounted.extend extended fun fd => ?_
  cases worked with
  | talked _ kept state uses =>
    refine ⟨_, leads_of_talk uses, fun live => ?_⟩
    obtain ⟨started, present⟩ := accounted.owned fd live
    refine ⟨?_, ?_⟩
    · rcases state with same | closing
      · exact same.trans started
      · exact absurd (closing.symm.trans started) (by simp)
    · rw [occupied_iff, kept, ← occupied_iff]
      exact present
  | refused accepts kept state failed =>
    obtain ⟨allocated, attached⟩ := spares.1 accepts
    cases failed with
    | unallocated failed => exact absurd (allocated.symm.trans failed) (by simp)
    | unattached _ failed => exact absurd (attached.symm.trans failed) (by simp)
    | unfinished _ _ uses onHandle =>
      have freed (stage : Stage) : Leads (fdAction fd) stage [Call.sslFree (some config.fresh)] stage :=
        undisturbed (by simp [fdAction]) stage
      refine ⟨_, ((leads_of_accept accepts.2.2 _ _).append ((leads_of_handshake onHandle).append (freed _))).append
        (leads_of_release fun mine => if_pos mine), fun live => ?_⟩
      by_cases mine : fd = input.acceptedFd
      · rw [if_pos mine] at live
        exact absurd live (by simp)
      · rw [if_neg mine, if_neg mine] at live
        obtain ⟨started, present⟩ := accounted.owned fd live
        rw [occupied_iff, kept, ← occupied_iff]
        exact ⟨state.trans started, present⟩
  | admitted accepts _ _ grown state onHandle =>
    refine ⟨_, (leads_of_accept accepts.2.2 _ _).append (leads_of_handshake onHandle), fun live => ?_⟩
    have started := started_of_phase phase accepts.1 (by simp) (by simp)
    rw [occupied_iff, grown, List.map_append, List.mem_append, ← occupied_iff]
    refine ⟨state.trans started, ?_⟩
    by_cases mine : fd = input.acceptedFd
    · exact Or.inr (by simp [mine])
    · rw [if_neg mine] at live
      exact Or.inl (accounted.owned fd live).2
  | @erased it polled erases shrunk state uses =>
    have started := started_of_phase phase erases.1 (by simp) (by simp)
    rw [if_neg (not_lt.mpr (spares.2 it erases))]
    have present : occupied config (config.server.clientSockets.get it).socket :=
      List.mem_map_of_mem (List.get_mem _ _)
    have closing : Leads (fdAction fd) _ (config.server.clientSockets.get it).close _ := leads_of_close fun mine =>
      live_of_occupied (wellformed started) (mine ▸ present)
    refine ⟨_, ((leads_of_talk uses).append closing).append
      (undisturbed (fun call made => fdAction_of_destroy made) _), fun live => ?_⟩
    by_cases mine : fd = (config.server.clientSockets.get it).socket
    · rw [if_pos mine] at live
      exact absurd live (by simp)
    · rw [if_neg mine] at live
      exact ⟨state.trans started,
        occupied_of_erased (wellformed started) shrunk (accounted.owned fd live).2 mine⟩
  | closed reached kept state =>
    have started := started_of_phase phase reached (by simp) (by simp)
    refine ⟨_, leads_of_closeAll (distinct_sockets (wellformed started))
      (live_of_occupied (wellformed started)), fun live => ?_⟩
    by_cases present : fd ∈ config.server.clientSockets.map ClientSocket.socket
    · rw [if_pos present] at live
      exact absurd live (by simp)
    · rw [if_neg present] at live
      exact absurd (accounted.owned fd live).2 present
  | returned reached emptied state =>
    refine ⟨_, undisturbed (fun call made => ?_) _, fun live => ?_⟩
    · obtain ⟨client, -, destroyed⟩ := List.mem_flatMap.mp made
      exact fdAction_of_destroy destroyed
    · have started := (accounted.owned fd live).1
      rcases phase with ⟨-, early, -⟩ | ⟨closed, -⟩
      · exact absurd reached early
      · exact absurd (started.symm.trans closed) (by simp)

section Accepting
variable {fd : Int} (valid : 0 ≤ fd)
include valid

theorem accept_notMem_of_uses {held : Option Handle → Prop} (uses : ∀ call ∈ calls, Uses held call) :
    .accept fd ∉ calls :=
  fun member => absurd valid (not_le.mpr (uses _ member))

theorem accept_notMem_of_releases {other : Int} {ssl : Option Handle}
    (releases : ∀ call ∈ calls, Releases other ssl call) : .accept fd ∉ calls :=
  fun member => absurd valid (not_le.mpr (releases _ member))

theorem accept_notMem_of_refused {fresh : Handle} (refused : Refused input fresh calls) : .accept fd ∉ calls := by
  cases refused with
  | unallocated => simp
  | unattached => simp
  | unfinished _ _ uses onHandle => simp [accept_notMem_of_uses valid onHandle]

theorem accept_notMem_of_erased (client : ClientSocket) (inner : Prop) [Decidable inner] :
    .accept fd ∉ client.close ++ if inner then vacate client else client.destroy := by
  have moved : .accept fd ∉ vacate client := accept_notMem_of_releases valid (releases_moveAssign client client)
  have destroyed := accept_notMem_of_releases valid (releases_destroy client)
  split
  · simp [ClientSocket.close, moved]
  · simp [ClientSocket.close, destroyed]

/-- Only `HandleNewConnections` accepts, once and after asking for the listening descriptor. -/
theorem accepts_of_worked (worked : Worked input config next calls) {first after : List Call}
    (split : calls = first ++ .accept fd :: after) :
    Accepts input config ∧ fd = input.acceptedFd ∧ first = [Call.fdIsSet config.server.masterSocket] := by
  have member : .accept fd ∈ calls := by simp [split]
  have front {rest : List Call} (others : .accept fd ∉ rest)
      (split : [Call.fdIsSet config.server.masterSocket, .accept input.acceptedFd,
        .clientID config.server.uniqueClientCounter] ++ rest = first ++ .accept fd :: after) :
      fd = input.acceptedFd ∧ first = [Call.fdIsSet config.server.masterSocket] := by
    match first, split with
    | [], split => simp at split
    | [call], split =>
      simp only [List.cons_append, List.nil_append, List.cons.injEq, Call.accept.injEq] at split
      exact ⟨split.2.1.symm, by rw [split.1]⟩
    | call :: second :: more, split =>
      simp only [List.cons_append, List.nil_append, List.cons.injEq] at split
      have late : .accept fd ∈ .clientID config.server.uniqueClientCounter :: rest := by simp [split.2.2]
      exact absurd late (by simp [others])
  cases worked with
  | talked _ _ _ uses => exact absurd member (accept_notMem_of_uses valid uses)
  | refused accepts _ _ failed =>
    rw [List.append_assoc] at split
    exact ⟨accepts, front (by simp [accept_notMem_of_refused valid failed]) split⟩
  | admitted accepts _ _ _ _ onHandle =>
    exact ⟨accepts, front (by simp [accept_notMem_of_uses valid onHandle]) split⟩
  | erased _ _ _ uses =>
    rw [List.append_assoc, List.mem_append] at member
    rcases member with talked | given
    · exact absurd talked (accept_notMem_of_uses valid uses)
    · exact absurd given (accept_notMem_of_erased valid _ _)
  | closed => simp [ClientSocket.close] at member
  | returned =>
    obtain ⟨client, -, destroyed⟩ := List.mem_flatMap.mp member
    exact absurd destroyed (accept_notMem_of_releases valid (releases_destroy client))

end Accepting

/-- Whenever `accept` returned a descriptor it was not open. -/
theorem vacant_of_run {boot : Boot} {inputs : List Input} (ran : ServerRun host KernelFresh boot inputs config) :
    ∀ early late fd, 0 ≤ fd → config.trace = early ++ .accept fd :: late → isOpen early fd = false := by
  refine ran.invariant (I := fun config => ∀ early late fd, 0 ≤ fd → config.trace = early ++ .accept fd :: late →
    isOpen early fd = false) (by simp [Boot.config]) ?_
  intro input config next vacant fresh stepped early late fd valid split
  obtain ⟨calls, extended, worked⟩ := worked_of_step stepped
  rcases split_append (extended.symm.trans split) with ⟨rest, old⟩ | ⟨first, new, here⟩
  · exact vacant early rest fd valid old
  · obtain ⟨⟨reached, ready, -⟩, rfl, rfl⟩ := accepts_of_worked valid worked here
    rw [new, isOpen_append_of_forall (by simp [reopen])]
    exact fresh reached ready valid

theorem accounted_of_run {boot : Boot} {inputs : List Input}
    (ran : ServerRun host (fun input config => KernelFresh input config ∧ SparesDescriptors input config) boot inputs
      config) : Accounted config := by
  induction ran with
  | nil => exact ⟨fun fd => trivial, fun fd live => absurd live (by simp [fdStage, Boot.config])⟩
  | snoc before careful stepped accounted =>
    have fresh : ServerRun host KernelFresh boot _ _ := before.weaken fun _ _ _ _ careful => careful.1
    obtain ⟨calls, extended, worked⟩ := worked_of_step stepped
    exact accounted.step (phase_of_run fresh) (wellformed_of_run fresh) careful.2 extended worked

end Steps

/-- `middle` begins where `accept` returned the descriptor and goes no further than to its next return. -/
def Since (trace : List Call) (fd : Int) (middle after : List Call) : Prop :=
  0 ≤ fd ∧ .accept fd ∉ middle ∧ ∃ before, trace = before ++ .accept fd :: (middle ++ after)

/-- Since `accept` returned it, a descriptor was closed at most once, and exactly once if it belongs to no session
any more or was returned again. -/
structure ClosedOnce (config : Config) : Prop where
  atMost : ∀ fd middle after, Since config.trace fd middle after → middle.count (.close fd) ≤ 1
  exactly : ∀ fd middle after, Since config.trace fd middle after →
    (after = [] ∧ ¬occupied config fd ∨ ∃ later, after = .accept fd :: later) → middle.count (.close fd) = 1

theorem count_close (fd : Int) (calls : List Call) :
    calls.countP (fun call => fdAction fd call = .release) = calls.count (.close fd) := by
  refine List.countP_congr fun call _ => ?_
  simp [fdAction_eq_release_iff]

section Counting
variable {config : Config} (accounted : Accounted config)
include accounted

theorem count_of_since {fd : Int} {middle after : List Call} (since : Since config.trace fd middle after) :
    stageFrom (fdAction fd) .live middle = .live ∧ middle.count (.close fd) = 0 ∨
      stageFrom (fdAction fd) .live middle = .released ∧ middle.count (.close fd) = 1 := by
  obtain ⟨valid, once, before, split⟩ := since
  have acquires : fdAction fd (.accept fd) = .acquire := fdAction_eq_acquire_iff.mpr ⟨valid, rfl⟩
  have obeys := accounted.obeys fd
  rw [split, obeys_append, obeys_cons, acquires, obeys_append] at obeys
  rw [← count_close]
  refine releases_of_live (fun call member acquired => once ?_) obeys.2.2.1
  rw [(fdAction_eq_acquire_iff.mp acquired).2] at member
  exact member

theorem closedOnce_of_accounted
    (vacant : ∀ early late fd, 0 ≤ fd → config.trace = early ++ .accept fd :: late → isOpen early fd = false) :
    ClosedOnce config := by
  constructor
  · intro fd middle after since
    rcases count_of_since accounted since with ⟨-, none⟩ | ⟨-, one⟩
    · omega
    · omega
  · intro fd middle after since ended
    rcases count_of_since accounted since with ⟨live, -⟩ | ⟨-, one⟩
    · obtain ⟨valid, -, before, split⟩ := since
      have acquires : fdAction fd (.accept fd) = .acquire := fdAction_eq_acquire_iff.mpr ⟨valid, rfl⟩
      have still : fdStage fd (before ++ .accept fd :: middle) = .live := by
        rw [fdStage, stageFrom_append, stageFrom_cons, acquires]
        exact live
      rcases ended with ⟨rfl, nobody⟩ | ⟨later, rfl⟩
      · rw [List.append_nil] at split
        exact absurd (accounted.owned fd (split ▸ still)).2 nobody
      · have closed := vacant (before ++ .accept fd :: middle) later fd valid (by simpa using split)
        rw [(isOpen_iff _ _).mpr still] at closed
        exact absurd closed (by simp)
    · exact one

end Counting

section Converse
variable {host : Host} {input : Input} {config next : Config}

theorem since_of_live {fd : Int} {calls : List Call} (live : fdStage fd config.trace = .live)
    (quiet : 0 ≤ fd → .accept fd ∉ calls) :
    ∃ middle, Since (config.trace ++ calls) fd (middle ++ calls) [] := by
  obtain ⟨before, call, after, split, acquires, once⟩ := last_acquire live
  obtain ⟨valid, rfl⟩ := fdAction_eq_acquire_iff.mp acquires
  refine ⟨after, valid, fun member => ?_, before, by simp [split]⟩
  rcases List.mem_append.mp member with early | late
  · exact once _ early acquires
  · exact quiet valid late

/-- Closing a session and overwriting it closes its descriptor twice. -/
theorem count_overwritten {client : ClientSocket} (valid : 0 ≤ client.socket) :
    (client.close ++ vacate client).count (.close client.socket) = 2 := by
  have named : client.socket ≠ invalidSocket := by
    unfold invalidSocket
    omega
  have freed : (if client.ssl.isSome then [Call.sslFree client.ssl] else []).count (.close client.socket) = 0 := by
    split <;> simp
  rw [vacate, if_pos named, List.count_append, List.count_append, freed]
  simp [ClientSocket.close]

theorem sparesDescriptors_of_atMost (phase : Phase config)
    (wellformed : config.server.serverState = .started → Wellformed (table config))
    (stepped : step host input config = .ok next)
    (atMost : ∀ fd middle after, Since next.trace fd middle after → middle.count (.close fd) ≤ 1) :
    SparesDescriptors input config := by
  obtain ⟨calls, extended, worked⟩ := worked_of_step stepped
  constructor
  · intro accepts
    cases worked with
    | talked keeps => exact absurd accepts keeps.accepts
    | erased erases => exact absurd (accepts.1.symm.trans erases.1) (by simp)
    | closed reached => exact absurd (accepts.1.symm.trans reached) (by simp)
    | returned reached => exact absurd (accepts.1.symm.trans reached) (by simp)
    | admitted _ allocated attached => exact ⟨allocated, attached⟩
    | @refused calls _ _ _ failed =>
      have since : Since next.trace input.acceptedFd
          (.clientID config.server.uniqueClientCounter :: (calls ++ [Call.close input.acceptedFd])) [] := by
        refine ⟨accepts.2.2, ?_, config.trace ++ [Call.fdIsSet config.server.masterSocket], by simp [extended]⟩
        simp [accept_notMem_of_refused accepts.2.2 failed]
      have few := atMost _ _ _ since
      cases failed with
      | unallocated => simp at few
      | unattached => simp at few
      | unfinished allocated attached => exact ⟨allocated, attached⟩
  · intro it erases
    obtain ⟨polled, uses, rfl⟩ := worked.calls_of_erases erases
    by_contra inner
    have started := started_of_phase phase erases.1 (by simp) (by simp)
    have live : fdStage (config.server.clientSockets.get it).socket config.trace = .live :=
      live_of_occupied (wellformed started) (List.mem_map_of_mem (List.get_mem _ _))
    rw [List.append_assoc, if_pos (not_le.mp inner)] at extended
    have quiet (valid : 0 ≤ (config.server.clientSockets.get it).socket) :
        .accept (config.server.clientSockets.get it).socket ∉ polled ++
          ((config.server.clientSockets.get it).close ++ vacate (config.server.clientSockets.get it)) := by
      have given := accept_notMem_of_erased valid (config.server.clientSockets.get it) True
      rw [if_pos trivial] at given
      rw [List.mem_append]
      exact not_or.mpr ⟨accept_notMem_of_uses valid uses, given⟩
    obtain ⟨middle, since⟩ := since_of_live live quiet
    have few := atMost _ _ _ (extended ▸ since)
    rw [List.count_append, List.count_append, count_overwritten since.1] at few
    omega

end Converse

/-- A run closes every accepted descriptor once exactly when no step of it fails before the handshake or erases a
session from before the last place. -/
theorem fds_closed_once_iff (host : Host) (boot : Boot) (inputs : List Input) (config : Config)
    (ran : ServerRun host KernelFresh boot inputs config) :
    ClosedOnce config ↔
      ServerRun host (fun input config => KernelFresh input config ∧ SparesDescriptors input config) boot inputs
        config := by
  constructor
  · intro closed
    refine ran.strict_of_final (J := fun config =>
      ∀ fd middle after, Since config.trace fd middle after → middle.count (.close fd) ≤ 1) ?_ ?_ closed.atMost
    · rintro input config next - stepped atMost fd middle after ⟨valid, once, before, split⟩
      obtain ⟨calls, extended, -⟩ := worked_of_step stepped
      exact atMost fd middle (after ++ calls) ⟨valid, once, before, by simp [extended, split]⟩
    · intro inputs input config next before fresh stepped atMost
      have earlier : ServerRun host KernelFresh boot inputs config := before.weaken fun _ _ _ _ careful => careful.1
      exact ⟨fresh, sparesDescriptors_of_atMost (phase_of_run earlier) (wellformed_of_run earlier) stepped atMost⟩
  · intro careful
    exact closedOnce_of_accounted (accounted_of_run careful) (vacant_of_run ran)

def stall (fd : Int) : Input := { connect fd with handshake := { allocated := true, attached := true, attempts := [] } }

/-- A client that stalls: its descriptor is closed, once. -/
theorem fds_closed_once_stalled :
    ∃ config, ServerRun exampleHost KernelFresh (exampleBoot []) [stall 4, stall 4] config ∧
      ClosedOnce config ∧ .close 4 ∈ config.trace := by
  have first : ServerRun exampleHost (fun input config => KernelFresh input config ∧ SparesDescriptors input config)
      (exampleBoot []) [stall 4] _ :=
    .snoc .nil ⟨fun early => absurd early (by decide), fun accepts => absurd accepts.1 (by decide),
      fun it => it.elim0⟩ rfl
  have second : ServerRun exampleHost (fun input config => KernelFresh input config ∧ SparesDescriptors input config)
      (exampleBoot []) [stall 4, stall 4] _ :=
    .snoc first ⟨fun _ _ _ => by decide, fun _ => ⟨rfl, rfl⟩, fun it => it.elim0⟩ rfl
  have ran := second.weaken fun _ _ _ _ careful => careful.1
  exact ⟨_, ran, (fds_closed_once_iff exampleHost (exampleBoot []) _ _ ran).mpr second, by decide⟩

def firstLeaves : List Input := [connect 4, connect 4, idle, idle, idle, connect 5, connect 5, hangUp]

theorem firstLeaves_closed_twice :
    ∃ config, ServerRun exampleHost KernelFresh (exampleBoot []) firstLeaves config ∧ ¬ClosedOnce config := by
  have first : ServerRun exampleHost KernelFresh (exampleBoot []) [connect 4] _ :=
    .snoc .nil (fun early => absurd early (by decide)) rfl
  have admitted : ServerRun exampleHost KernelFresh (exampleBoot []) [connect 4, connect 4] _ :=
    .snoc first (fun _ _ _ => by decide) rfl
  have visited : ServerRun exampleHost KernelFresh (exampleBoot []) [connect 4, connect 4, idle] _ :=
    .snoc admitted (fun early => absurd early (by decide)) rfl
  have swept : ServerRun exampleHost KernelFresh (exampleBoot []) [connect 4, connect 4, idle, idle] _ :=
    .snoc visited (fun early => absurd early (by decide)) rfl
  have looped : ServerRun exampleHost KernelFresh (exampleBoot []) [connect 4, connect 4, idle, idle, idle] _ :=
    .snoc swept (fun early => absurd early (by decide)) rfl
  have polled : ServerRun exampleHost KernelFresh (exampleBoot [])
      [connect 4, connect 4, idle, idle, idle, connect 5] _ :=
    .snoc looped (fun early => absurd early (by decide)) rfl
  have joined : ServerRun exampleHost KernelFresh (exampleBoot [])
      [connect 4, connect 4, idle, idle, idle, connect 5, connect 5] _ :=
    .snoc polled (fun _ _ _ => by decide) rfl
  have left : ServerRun exampleHost KernelFresh (exampleBoot []) firstLeaves _ :=
    .snoc joined (fun early => absurd early (by decide)) rfl
  have twice {config : Config} (split : config.trace = config.trace.take 3 ++ .accept 4 :: (config.trace.drop 4 ++ []))
      (once : .accept 4 ∉ config.trace.drop 4) (many : (config.trace.drop 4).count (.close 4) = 2) :
      ¬ClosedOnce config := by
    intro closed
    have few := closed.atMost 4 (config.trace.drop 4) [] ⟨by decide, once, _, split⟩
    omega
  exact ⟨_, left, twice rfl (by decide) (by decide)⟩

end Communo.Descriptors
