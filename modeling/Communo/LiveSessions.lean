import Communo.SessionTable

/-! Which sessions a step may remove from the table. `ProcessRequests` takes any
result of `SSL_read` that is not positive for the end of the session. -/

namespace Communo.LiveSessions
open Lib.ByteCodec Lib.CheckedMemory Lib.KeyedList Lib.Runs Protocol NumParser Chat Session Handlers MainLoop Dispatch Transitions
  SessionTable

def handles (config : Config) : List (Option Handle) := config.server.clientSockets.map ClientSocket.ssl

/-- Whoever is missing after the step had its own read report the end of the connection. -/
def DropsOnlyDead (config next : Config) : Prop :=
  ∀ ssl ∈ handles config, ssl ∉ handles next →
    ∃ result, .sslRead ssl result ∈ next.trace.drop config.trace.length ∧ (result = .closed ∨ result = .fatal)

/-- The step is made by a started server and drops nobody who is alive. -/
def KeepsLive (host : Host) (input : Input) (config : Config) : Prop :=
  config.server.serverState = .started → ∀ next, step host input config = .ok next → DropsOnlyDead config next

/-- The step calls `SSL_read` and is told to try again later. -/
def ReadsWant (input : Input) (config : Config) : Prop :=
  ∃ (it : Nat) (present : it < config.server.clientSockets.length), config.pc = .processRequests it ∧
    config.server.serverState ≠ .closing ∧
    config.server.readfds (config.server.clientSockets.get ⟨it, present⟩).socket = true ∧
    (input.read = .wantRead ∨ input.read = .wantWrite)

theorem ssl_of_connections {first second : List ClientSocket}
    (same : first.map connection = second.map connection) :
    first.map ClientSocket.ssl = second.map ClientSocket.ssl := by
  have mapped := congrArg (List.map Connection.ssl) same
  rw [List.map_map, List.map_map] at mapped
  exact mapped

theorem sslRead_of_erased {socket : ClientSocket} {read result : ReadResult} {ssl : Option Handle} {moves : List Call}
    (released : ∀ call ∈ moves, Releases socket.socket socket.ssl call)
    (made : .sslRead ssl result ∈ [Call.fdIsSet socket.socket, .sslRead socket.ssl read] ++ socket.close ++ moves) :
    ssl = socket.ssl ∧ result = read := by
  simp only [ClientSocket.close, List.mem_append, List.mem_cons, List.not_mem_nil, or_false, reduceCtorEq, false_or,
    Call.sslRead.injEq] at made
  rcases made with same | moved
  · exact same
  · exact (released _ moved).elim

section Step
variable {host : Host} {input : Input} {config next : Config} {calls : List Call}

theorem mem_handles_of_lost {it : Nat} (present : it < config.server.clientSockets.length)
    (secured : Secured (config.server.clientSockets.map connection) config.fresh)
    (erased : next.server.clientSockets = (erase config.server.clientSockets it).1) (ssl : Option Handle) :
    ssl ∈ handles next ↔ ssl ∈ handles config ∧ ssl ≠ (config.server.clientSockets.get ⟨it, present⟩).ssl := by
  have kept := mem_eraseIdx_iff secured.distinct_ssl ⟨it, present⟩
  simp only [handles, erased, erase_fst, List.mem_map]
  constructor
  · rintro ⟨client, member, rfl⟩
    obtain ⟨still, different⟩ := (kept client).mp member
    exact ⟨⟨client, still, rfl⟩, different⟩
  · rintro ⟨⟨client, member, rfl⟩, different⟩
    exact ⟨client, (kept client).mpr ⟨member, different⟩, rfl⟩

theorem dropsOnlyDead_of_stepped (secured : Secured (config.server.clientSockets.map connection) config.fresh)
    (phase : Phase config) (started : config.server.serverState = .started) (settled : ¬ReadsWant input config)
    (stepped : Stepped input config next calls) : DropsOnlyDead config next := by
  intro ssl member missing
  have grown := stepped.trace_eq
  cases stepped with
  | admitted =>
    refine absurd ?_ missing
    rw [handles, List.map_append]
    exact List.mem_append_left _ member
  | visited it present reached server position calls effect =>
    cases effect with
    | closing closing => exact absurd (closing.symm.trans started) (by simp)
    | lost isOpen ready lost =>
      have own : ssl = (config.server.clientSockets.get ⟨it, present⟩).ssl := by
        by_contra different
        exact missing ((mem_handles_of_lost present secured rfl ssl).mpr ⟨member, different⟩)
      refine ⟨input.read, ?_, ?_⟩
      · rw [grown, List.drop_left, own]
        simp
      · cases read : input.read with
        | data received => exact absurd read (lost received)
        | wantRead => exact absurd ⟨it, present, reached, isOpen, ready, Or.inl read⟩ settled
        | wantWrite => exact absurd ⟨it, present, reached, isOpen, ready, Or.inr read⟩ settled
        | closed => exact Or.inl rfl
        | fatal => exact Or.inr rfl
    | handled _ _ _ _ _ _ _ effect =>
      have kept := ssl_of_connections (connections_of_handled effect).1
      have still : ssl ∈ server.clientSockets.map ClientSocket.ssl := by
        rw [kept]
        exact member
      exact absurd still missing
    | _ => exact absurd member missing
  | returned reached =>
    rcases phase with ⟨-, early, -⟩ | ⟨closed, -⟩
    · exact absurd reached early
    · exact absurd (closed.symm.trans started) (by simp)
  | _ => exact absurd member missing

theorem not_dropsOnlyDead_of_readsWant
    (secured : Secured (config.server.clientSockets.map connection) config.fresh) (wants : ReadsWant input config)
    (stepped : Stepped input config next calls) : ¬DropsOnlyDead config next := by
  obtain ⟨it, present, reached, isOpen, ready, want⟩ := wants
  have grown := stepped.trace_eq
  intro drops
  cases stepped with
  | visited it' present' reached' server position calls effect =>
    obtain rfl := Pc.processRequests.inj (reached.symm.trans reached')
    cases effect with
    | closing closing => exact absurd closing isOpen
    | idle _ quiet => exact absurd (quiet.symm.trans ready) (by simp)
    | lost _ _ lost =>
      obtain ⟨result, made, dead⟩ := drops (config.server.clientSockets.get ⟨it, present⟩).ssl
        (List.mem_map_of_mem (List.get_mem _ _))
        (fun member => ((mem_handles_of_lost present secured rfl _).mp member).2 rfl)
      rw [grown, List.drop_left] at made
      have same := (sslRead_of_erased (releases_erase _ ⟨it, present⟩) made).2
      rcases want with wantRead | wantWrite
      · simp [same, wantRead] at dead
      · simp [same, wantWrite] at dead
    | short _ _ received data => rcases want with want | want <;> exact absurd (data.symm.trans want) (by simp)
    | handled _ _ received data => rcases want with want | want <;> exact absurd (data.symm.trans want) (by simp)
  | swept it' reached' done =>
    obtain rfl := Pc.processRequests.inj (reached.symm.trans reached')
    omega
  | _ => simp_all

end Step

/-- The condition names the steps of a run that drop a living session exactly. -/
theorem keepsLive_iff {host : Host} {allowed : Input → Config → Prop} {boot : Boot} {inputs : List Input}
    {config : Config} (ran : ServerRun host allowed boot inputs config) (input : Input) :
    KeepsLive host input config ↔ ¬ReadsWant input config := by
  have secured := secured_of_run ran
  have phase := phase_of_run ran
  constructor
  · intro keeps wants
    obtain ⟨it, present, reached, isOpen, ready, want⟩ := id wants
    have started : config.server.serverState = .started := by
      rcases phase with ⟨started, -⟩ | ⟨-, returning | exited⟩
      · exact started
      · exact absurd (reached.symm.trans returning) (by simp)
      · exact absurd (reached.symm.trans exited) (by simp)
    have lost : ∀ received, input.read ≠ .data received := by
      intro received data
      rcases want with want | want <;> exact absurd (data.symm.trans want) (by simp)
    obtain ⟨next, stepped⟩ : ∃ next, step host input config = .ok next := by
      simp only [step, reached, dif_pos present, visit_lost isOpen ready lost, bind_ok]
      exact ⟨_, rfl⟩
    obtain ⟨calls, effect⟩ := stepped_of_step stepped
    exact not_dropsOnlyDead_of_readsWant secured wants effect (keeps started next stepped)
  · intro settled started next stepped
    obtain ⟨calls, effect⟩ := stepped_of_step stepped
    exact dropsOnlyDead_of_stepped secured phase started settled effect

/-- A run of the server drops only sessions whose peer is gone exactly when no
read in it is answered with `WANT_READ` or `WANT_WRITE`. -/
theorem live_sessions_kept_iff (host : Host) (boot : Boot) (inputs : List Input) (config : Config) :
    ServerRun host (KeepsLive host) boot inputs config ↔
      ServerRun host (fun input config => ¬ReadsWant input config) boot inputs config := by
  constructor
  · intro ran
    exact ran.weaken fun _ input _ before keeps => (keepsLive_iff before input).mp keeps
  · intro ran
    exact ran.weaken fun _ input _ before settled => (keepsLive_iff before input).mpr settled

/-- The first bytes of a TLS record have arrived on every watched connection. -/
def firstSegment : Input := { idle with select := .ready fun fd => fd ≠ 3, read := .wantRead }

/-- A connected client whose record arrives in two segments is thrown out after the first. -/
theorem firstSegment_drops_client :
    ∃ (inputs : List Input) (config next : Config),
      ServerRun exampleHost (fun _ _ => True) (exampleBoot []) inputs config ∧
      config.server.serverState = .started ∧ handles config = [some 0] ∧
      step exampleHost firstSegment config = .ok next ∧ firstSegment.read = .wantRead ∧ handles next = [] ∧
      ¬KeepsLive exampleHost firstSegment config := by
  obtain ⟨config, ran⟩ : ∃ config, run (step exampleHost) [connect 4, connect 4, idle, idle, idle, firstSegment, idle]
      (exampleBoot []).config = .ok config := ⟨_, rfl⟩
  obtain ⟨next, stepped⟩ : ∃ next, step exampleHost firstSegment config = .ok next := by
    cases ran
    exact ⟨_, rfl⟩
  have execution : ServerRun exampleHost (fun _ _ => True) (exampleBoot []) _ config := Execution.of_run .nil ran
  refine ⟨_, config, next, execution, ?_, ?_, stepped, rfl, ?_, ?_⟩
  · cases ran
    rfl
  · cases ran
    rfl
  · cases ran
    cases stepped
    rfl
  · rw [keepsLive_iff execution]
    cases ran
    exact not_not_intro ⟨0, by decide, rfl, by decide, rfl, Or.inl rfl⟩

end Communo.LiveSessions
