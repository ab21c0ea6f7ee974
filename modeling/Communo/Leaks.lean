import Communo.Descriptors
import Communo.Handles

/-! Nothing leaks. Whatever the server has acquired and not given back belongs to
a session of its table, and at its end there is none. -/

namespace Communo.Leaks
open Lib.KeyedList Lib.Runs Lib.Logs Session Handlers MainLoop Transitions Survival SessionTable Resources Handles Descriptors

/-- The server holds the handles and the descriptors of its sessions, and no others. Once it
is closed it holds no descriptors. -/
structure Exact (config : Config) : Prop where
  handles : ∀ handle, handleStage handle config.trace = .live ↔ held config (some handle)
  descriptors : ∀ fd, isOpen config.trace fd = true ↔ config.server.serverState = .started ∧ occupied config fd

section Calls
variable {handle : Handle} {fd : Int} {calls : List Call}

theorem handleAction_eq_acquire_iff {call : Call} : handleAction handle call = .acquire ↔ call = .sslNew (some handle) := by
  cases call with
  | sslNew ssl =>
    simp only [handleAction, Call.sslNew.injEq]
    split <;> simp_all
  | sslFree | sslAccept | sslGetError | sslShutdown | sslRead | sslWrite =>
    simp only [handleAction, reduceCtorEq, iff_false]
    split <;> simp
  | _ => simp [handleAction]

theorem handleAction_eq_release_iff {call : Call} : handleAction handle call = .release ↔ call = .sslFree (some handle) := by
  cases call with
  | sslFree ssl =>
    simp only [handleAction, Call.sslFree.injEq]
    split <;> simp_all
  | sslNew | sslAccept | sslGetError | sslShutdown | sslRead | sslWrite =>
    simp only [handleAction, reduceCtorEq, iff_false]
    split <;> simp
  | _ => simp [handleAction]

theorem handleStage_append (trace : List Call) (unmade : .sslNew (some handle) ∉ calls) :
    handleStage handle (trace ++ calls) = .live ↔ handleStage handle trace = .live ∧ .sslFree (some handle) ∉ calls := by
  have once : ∀ call ∈ calls, handleAction handle call ≠ .acquire := fun call member acquires =>
    unmade (handleAction_eq_acquire_iff.mp acquires ▸ member)
  rw [handleStage, stageFrom_append, stageFrom_eq_live_iff once]
  refine and_congr Iff.rfl ⟨fun unfreed member => ?_, fun unfreed call member releases => ?_⟩
  · exact unfreed _ member (handleAction_eq_release_iff.mpr rfl)
  · exact unfreed (handleAction_eq_release_iff.mp releases ▸ member)

theorem isOpen_append (trace : List Call) (unaccepted : 0 ≤ fd → .accept fd ∉ calls) :
    isOpen (trace ++ calls) fd = true ↔ isOpen trace fd = true ∧ .close fd ∉ calls := by
  have once : ∀ call ∈ calls, fdAction fd call ≠ .acquire := fun call member acquires =>
    unaccepted (fdAction_eq_acquire_iff.mp acquires).1 ((fdAction_eq_acquire_iff.mp acquires).2 ▸ member)
  rw [isOpen_iff, isOpen_iff, fdStage, stageFrom_append, stageFrom_eq_live_iff once]
  refine and_congr Iff.rfl ⟨fun unclosed member => ?_, fun unclosed call member releases => ?_⟩
  · exact unclosed _ member (fdAction_eq_release_iff.mpr rfl)
  · exact unclosed (fdAction_eq_release_iff.mp releases ▸ member)

theorem lasting_of_uses {held : Option Handle → Prop} (uses : ∀ call ∈ calls, Uses held call) (ssl : Option Handle) :
    .sslNew ssl ∉ calls ∧ .sslFree ssl ∉ calls :=
  ⟨fun member => uses _ member, fun member => uses _ member⟩

theorem close_notMem_of_uses {held : Option Handle → Prop} (uses : ∀ call ∈ calls, Uses held call) : .close fd ∉ calls :=
  fun member => uses _ member

theorem mem_vacate (hole : ClientSocket) {call : Call} : call ∈ vacate hole ↔
    hole.ssl.isSome = true ∧ call = .sslFree hole.ssl ∨ hole.socket ≠ invalidSocket ∧ call = .close hole.socket := by
  unfold vacate
  rw [List.mem_append]
  refine or_congr ?_ ?_
  · split <;> simp_all
  · split <;> simp_all

theorem mem_destroy (client : ClientSocket) {call : Call} : call ∈ client.destroy ↔
    client.ssl.isSome = true ∧ (call = .sslFree client.ssl ∨ call = .sslShutdown client.ssl) := by
  unfold ClientSocket.destroy
  split <;> simp_all

theorem handleStage_freed (handle : Handle) (trace first rest : List Call) (unmade : .sslNew (some handle) ∉ rest)
    (freed : .sslFree (some handle) ∈ rest) : handleStage handle (trace ++ (first ++ rest)) ≠ .live := by
  rw [← List.append_assoc]
  exact fun live => ((handleStage_append (trace ++ first) unmade).mp live).2 freed

theorem mem_refused {input : Input} {fresh : Handle} (refused : Refused input fresh calls) (other : handle ≠ fresh) :
    .sslNew (some handle) ∉ calls ∧ .sslFree (some handle) ∉ calls := by
  cases refused with
  | unallocated => simp
  | unattached => simp [other]
  | unfinished _ _ uses onHandle =>
    simp [other, lasting_of_uses onHandle (some handle)]

theorem closes_refused {input : Input} {fresh : Handle} (refused : Refused input fresh calls)
    (closed : .close fd ∈ calls) : fd = input.acceptedFd := by
  cases refused with
  | unallocated => simpa using closed
  | unattached => simpa using closed
  | unfinished _ _ uses onHandle =>
    have talk : .close fd ∉ uses := close_notMem_of_uses onHandle
    simp [talk] at closed

theorem handleStage_refused {input : Input} {fresh : Handle} (refused : Refused input fresh calls) (trace opening : List Call)
    {closing : List Call} (opens : ∀ ssl, .sslNew ssl ∉ opening) (closes : ∀ ssl, .sslNew ssl ∉ closing)
    (dead : handleStage fresh trace ≠ .live) : handleStage fresh (trace ++ (opening ++ calls ++ closing)) ≠ .live := by
  cases refused with
  | unallocated =>
    intro live
    refine dead ((handleStage_append trace ?_).mp live).1
    simp [opens, closes]
  | unattached =>
    have regrouped := handleStage_freed fresh trace
      (opening ++ [Call.sslNew (some fresh), .sslSetFd (some fresh) input.acceptedFd])
      ([Call.sslFree (some fresh), .shutdown input.acceptedFd, .close input.acceptedFd] ++ closing)
      (by simp [closes]) (by simp)
    simpa using regrouped
  | unfinished _ _ uses =>
    have regrouped := handleStage_freed fresh trace
      (opening ++ ([Call.sslNew (some fresh), .sslSetFd (some fresh) input.acceptedFd] ++ uses))
      ([Call.sslFree (some fresh)] ++ closing) (by simp [closes]) (by simp)
    simpa using regrouped

end Calls

section Steps
variable {host : Host} {input : Input} {config next : Config} {calls : List Call}

theorem held_of_kept (kept : next.server.clientSockets.map connection = config.server.clientSockets.map connection)
    (ssl : Option Handle) : held next ssl ↔ held config ssl := by
  rw [held_iff, kept, ← held_iff]

theorem occupied_of_kept (kept : next.server.clientSockets.map connection = config.server.clientSockets.map connection)
    (fd : Int) : occupied next fd ↔ occupied config fd := by
  rw [occupied_iff, kept, ← occupied_iff]

theorem mem_erased (client : ClientSocket) {polled : List Call} {owned : Option Handle → Prop}
    (uses : ∀ call ∈ polled, Uses owned call) (inner : Prop) [Decidable inner] (handle : Handle) :
    .sslNew (some handle) ∉ polled ++ client.close ++ (if inner then vacate client else client.destroy) ∧
      (.sslFree (some handle) ∈ polled ++ client.close ++ (if inner then vacate client else client.destroy) ↔
        client.ssl = some handle) := by
  have lasting := lasting_of_uses uses (some handle)
  have own (ssl : Option Handle) : ssl.isSome = true ∧ some handle = ssl ↔ ssl = some handle := by
    cases ssl <;> simp [eq_comm]
  split
  · simp [ClientSocket.close, lasting, mem_vacate, own]
  · simp [ClientSocket.close, lasting, mem_destroy, own]

theorem handles_of_worked (secured : Secured (config.server.clientSockets.map connection) config.fresh)
    (exact_ : ∀ handle, handleStage handle config.trace = .live ↔ held config (some handle))
    (extended : next.trace = config.trace ++ calls) (worked : Worked input config next calls) (handle : Handle) :
    handleStage handle next.trace = .live ↔ held next (some handle) := by
  rw [extended]
  cases worked with
  | talked _ kept _ uses =>
    have lasting := lasting_of_uses uses (some handle)
    rw [handleStage_append _ lasting.1, exact_, held_of_kept kept]
    exact and_iff_left lasting.2
  | @refused calls accepts kept _ failed =>
    rw [held_of_kept kept]
    by_cases mine : handle = config.fresh
    · subst mine
      have apart : ¬held config (some config.fresh) := fun present => ne_of_held secured present rfl
      refine iff_of_false (handleStage_refused failed config.trace _ (by simp) (by simp) ?_) apart
      exact fun live => apart ((exact_ _).mp live)
    · have others := mem_refused failed mine
      rw [handleStage_append _ (by simp [others]), exact_]
      exact and_iff_left (by simp [others])
  | @admitted uses accepts _ _ grown _ onHandle =>
    have lasting := lasting_of_uses onHandle (some handle)
    have here : held next (some handle) ↔ held config (some handle) ∨ handle = config.fresh := by
      rw [held_iff, grown, List.map_append, List.mem_append, ← held_iff]
      simp
    rw [here]
    by_cases mine : handle = config.fresh
    · subst mine
      refine iff_of_true ?_ (Or.inr rfl)
      rw [← List.append_assoc, ← List.append_assoc, handleStage_append _ lasting.1]
      refine ⟨?_, lasting.2⟩
      simp [handleStage, handleAction, Stage.advance]
    · rw [handleStage_append _ (by simp [mine, lasting]), exact_]
      simp [mine, lasting]
  | @erased it polled erases shrunk _ uses =>
    have erasing := mem_erased (config.server.clientSockets.get it) uses
      (it.val + 1 < config.server.clientSockets.length) handle
    rw [handleStage_append _ erasing.1, exact_, erasing.2]
    constructor
    · rintro ⟨present, different⟩
      obtain ⟨client, member, same⟩ := List.mem_map.mp present
      have still : client ∈ config.server.clientSockets.eraseIdx it :=
        (mem_eraseIdx_iff secured.distinct_ssl it client).mpr ⟨member, fun equal => different (equal.symm.trans same)⟩
      rw [held, shrunk, ← same]
      exact List.mem_map_of_mem still
    · exact fun present => held_of_erased secured shrunk present
  | closed reached kept _ =>
    have nothing : ∀ ssl, .sslNew ssl ∉ config.server.clientSockets.flatMap ClientSocket.close ∧
        .sslFree ssl ∉ config.server.clientSockets.flatMap ClientSocket.close := by
      simp [ClientSocket.close]
    rw [handleStage_append _ (nothing _).1, exact_, held, held, kept]
    exact and_iff_left (nothing _).2
  | returned reached emptied _ =>
    have unmade : .sslNew (some handle) ∉ config.server.clientSockets.flatMap ClientSocket.destroy := by
      simp [mem_destroy]
    rw [handleStage_append _ unmade, exact_, held, held, emptied]
    refine iff_of_false ?_ List.not_mem_nil
    rintro ⟨present, unfreed⟩
    obtain ⟨client, member, same⟩ := List.mem_map.mp present
    exact unfreed (List.mem_flatMap.mpr ⟨client, member, (mem_destroy client).mpr (by simp [same])⟩)

theorem closes_erased (client : ClientSocket) {polled : List Call} {owned : Option Handle → Prop}
    (uses : ∀ call ∈ polled, Uses owned call) (inner : Prop) [Decidable inner] (fd : Int) :
    .close fd ∈ polled ++ client.close ++ (if inner then vacate client else client.destroy) ↔ client.socket = fd := by
  have lasting : .close fd ∉ polled := close_notMem_of_uses uses
  split
  · simp only [ClientSocket.close, List.mem_append, lasting, false_or, mem_vacate]
    aesop
  · simp only [ClientSocket.close, List.mem_append, lasting, false_or, mem_destroy]
    aesop

theorem descriptors_of_worked (phase : Phase config)
    (wellformed : config.server.serverState = .started → Wellformed (table config))
    (exact_ : ∀ fd, isOpen config.trace fd = true ↔ config.server.serverState = .started ∧ occupied config fd)
    (fresh : KernelFresh input config)
    (extended : next.trace = config.trace ++ calls) (worked : Worked input config next calls) (fd : Int) :
    isOpen next.trace fd = true ↔ next.server.serverState = .started ∧ occupied next fd := by
  rw [extended]
  have inherited (unaccepted : 0 ≤ fd → .accept fd ∉ calls) (unclosed : .close fd ∉ calls)
      (state : next.server.serverState = config.server.serverState) (same : occupied next fd ↔ occupied config fd) :
      isOpen (config.trace ++ calls) fd = true ↔ next.server.serverState = .started ∧ occupied next fd := by
    rw [isOpen_append _ unaccepted, exact_, state, same]
    exact and_iff_left unclosed
  cases worked with
  | talked _ kept state uses =>
    have same : next.server.serverState = config.server.serverState := by
      rcases state with same | closing
      · exact same
      · rcases phase with ⟨started, -⟩ | ⟨closed, -⟩
        · exact absurd (closing.symm.trans started) (by simp)
        · exact absurd (closing.symm.trans closed) (by simp)
    exact inherited (fun valid => accept_notMem_of_uses valid uses) (close_notMem_of_uses uses) same
      (occupied_of_kept kept fd)
  | @refused calls accepts kept state failed =>
    by_cases mine : fd = input.acceptedFd
    · subst mine
      have vacant := fresh accepts.1 accepts.2.1 accepts.2.2
      have started := started_of_phase phase accepts.1 (by simp) (by simp)
      have apart : ¬occupied config input.acceptedFd := fun present =>
        absurd ((exact_ _).mpr ⟨started, present⟩) (by simp [vacant])
      rw [occupied_of_kept kept, ← List.append_assoc, isOpen_append _ (by simp)]
      exact iff_of_false (fun stays => stays.2 List.mem_cons_self) fun present => apart present.2
    · have unclosed : .close fd ∉ calls := fun closed => mine (closes_refused failed closed)
      refine inherited (fun valid => ?_) (by simp [mine, unclosed]) state (occupied_of_kept kept fd)
      simp [mine, accept_notMem_of_refused valid failed]
  | @admitted uses accepts _ _ grown state onHandle =>
    have unclosed : .close fd ∉ uses := close_notMem_of_uses onHandle
    have started := started_of_phase phase accepts.1 (by simp) (by simp)
    have here : occupied next fd ↔ occupied config fd ∨ fd = input.acceptedFd := by
      rw [occupied_iff, grown, List.map_append, List.mem_append, ← occupied_iff]
      simp
    by_cases mine : fd = input.acceptedFd
    · subst mine
      rw [← List.append_assoc, isOpen_append _ fun valid => by simp [accept_notMem_of_uses valid onHandle]]
      refine iff_of_true ⟨?_, by simp [unclosed]⟩ ⟨state.trans started, here.mpr (Or.inr rfl)⟩
      simp [isOpen, reopen, accepts.2.2]
    · refine inherited (fun valid => ?_) (by simp [unclosed]) state (here.trans (or_iff_left mine))
      simp [mine, accept_notMem_of_uses valid onHandle]
  | @erased it polled erases shrunk state uses =>
    have started := started_of_phase phase erases.1 (by simp) (by simp)
    have unaccepted (valid : 0 ≤ fd) : .accept fd ∉ polled ++ (config.server.clientSockets.get it).close ++
        if it.val + 1 < config.server.clientSockets.length then vacate (config.server.clientSockets.get it)
        else (config.server.clientSockets.get it).destroy := by
      rw [List.append_assoc, List.mem_append, not_or]
      exact ⟨accept_notMem_of_uses valid uses, accept_notMem_of_erased valid _ _⟩
    rw [isOpen_append _ unaccepted, exact_, closes_erased _ uses, state]
    constructor
    · rintro ⟨⟨_, present⟩, different⟩
      exact ⟨started, occupied_of_erased (wellformed started) shrunk present fun same => different same.symm⟩
    · rintro ⟨_, present⟩
      obtain ⟨client, member, rfl⟩ := List.mem_map.mp present
      rw [shrunk] at member
      obtain ⟨still, different⟩ := (mem_eraseIdx_iff (distinct_sockets (wellformed started)) it client).mp member
      exact ⟨⟨started, List.mem_map_of_mem still⟩, fun same => different same.symm⟩
  | closed reached kept state =>
    have unaccepted : .accept fd ∉ config.server.clientSockets.flatMap ClientSocket.close := by simp [ClientSocket.close]
    rw [isOpen_append _ fun _ => unaccepted, exact_]
    refine iff_of_false ?_ fun later => absurd (state.symm.trans later.1) (by simp)
    rintro ⟨⟨-, present⟩, unclosed⟩
    obtain ⟨client, member, rfl⟩ := List.mem_map.mp present
    exact unclosed (List.mem_flatMap.mpr ⟨client, member, by simp [ClientSocket.close]⟩)
  | returned reached emptied state =>
    have closed : config.server.serverState ≠ .started := by
      rcases phase with ⟨-, early, -⟩ | ⟨closed, -⟩
      · exact absurd reached early
      · simp [closed]
    have unaccepted : .accept fd ∉ config.server.clientSockets.flatMap ClientSocket.destroy := by simp [mem_destroy]
    rw [isOpen_append _ fun _ => unaccepted, exact_, state]
    exact iff_of_false (fun early => closed early.1.1) fun late => closed late.1

end Steps

theorem exact_of_run {host : Host} {boot : Boot} {inputs : List Input} {config : Config}
    (ran : ServerRun host KernelFresh boot inputs config) : Exact config := by
  induction ran with
  | nil =>
    constructor
    · simp [handleStage, Boot.config, held]
    · simp [isOpen, Boot.config, occupied]
  | snoc before fresh stepped exact_ =>
    obtain ⟨calls, extended, worked⟩ := worked_of_step stepped
    constructor
    · exact handles_of_worked (secured_of_run before) exact_.handles extended worked
    · exact descriptors_of_worked (phase_of_run before) (wellformed_of_run before) exact_.descriptors fresh extended worked

/-- Nothing leaks and nothing is lost: in every state that the server comes to, the handles
made and not freed are those of its sessions, and so are the descriptors accepted and not closed. -/
theorem nothing_leaks (host : Host) (boot : Boot) (inputs : List Input) (config : Config)
    (ran : ServerRun host KernelFresh boot inputs config) :
    (∀ handle, handleStage handle config.trace = .live ↔
      some handle ∈ config.server.clientSockets.map ClientSocket.ssl) ∧
    ∀ fd, isOpen config.trace fd = true ↔
      config.server.serverState = .started ∧ fd ∈ config.server.clientSockets.map ClientSocket.socket :=
  ⟨(exact_of_run ran).handles, (exact_of_run ran).descriptors⟩

/-- The client that hung up has left nothing behind. -/
theorem nothing_leaks_reconnecting :
    ∃ (config : Config), (∀ handle, handleStage handle config.trace = .live ↔ some handle ∈ [some 1, some 2]) ∧
      ∀ fd, isOpen config.trace fd = true ↔ config.server.serverState = .started ∧ fd ∈ [(5 : Int), 4] := by
  obtain ⟨config, ran⟩ : ∃ config, run (step exampleHost) reconnecting (exampleBoot []).config = .ok config := ⟨_, rfl⟩
  have owned := nothing_leaks exampleHost (exampleBoot []) reconnecting config (Execution.of_steered (by decide) ran)
  have table : config.server.clientSockets.map ClientSocket.ssl = [some 1, some 2] ∧
      config.server.clientSockets.map ClientSocket.socket = [5, 4] := by
    cases ran
    exact ⟨rfl, rfl⟩
  rw [table.1, table.2] at owned
  exact ⟨config, owned⟩

end Communo.Leaks
