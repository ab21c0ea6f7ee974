import Communo.Faults

/-! Which packets end the server process. The main loop catches no exception of
the standard library, so a failed step is the end of the run. -/

namespace Communo.Survival
open Lib.ByteCodec Lib.CheckedMemory Lib.Runs Protocol NumParser Session Handlers MainLoop Dispatch Addition Faults

/-- An addition request in which, after complete items, a tag stands for no type. -/
def SendsUnknownTag (packet : List Byte) : Prop :=
  opcodeOf packet = some .cmsgAdditionRequest ∧ 6 ≤ packet.length ∧ UnknownTag (packet.drop 2)

/-- The step reads `received` from the session the loop of `ProcessRequests` stands at. -/
def Receives (input : Input) (config : Config) (received : Received) : Prop :=
  ∃ (it : Nat) (present : it < config.server.clientSockets.length), config.pc = .processRequests it ∧
    config.server.serverState ≠ .closing ∧
    config.server.readfds (config.server.clientSockets.get ⟨it, present⟩).socket = true ∧
    input.read = .data received

/-- In a real run no read strays, so only the unknown tag is left to fail on. -/
theorem callHandler_physical_eq_error_iff (host : Host) (ambient : Ambient) (buffer : Nat → Byte) (server : Server)
    (client : Fin server.clientSockets.length) (received : Received) (long : 2 ≤ received.bytes.length)
    (fault : Fault Exn) :
    callHandler host (physicalView ambient (receive buffer received.bytes)) server client received.bytes.length =
        .error fault ↔
      SendsUnknownTag received.bytes ∧ fault = .thrown (.runtimeError "Unknown number type") := by
  have delivers := physicalView_delivers ambient buffer received
  rw [callHandler_eq_error_iff delivers long (fun _ _ => rfl)]
  constructor
  · rintro (⟨isAddition, large, failed⟩ | ⟨-, -, -, failed⟩)
    · rcases walk_cases (received.bytes.drop 2) with complete | truncated | unknown
      · obtain ⟨later, finished⟩ := addLoop_complete delivers host (.start 2) complete le_rfl
        exact absurd (failed.symm.trans finished) (by simp)
      · obtain ⟨later, finished⟩ := addLoop_truncated_total delivers host (.start 2) truncated le_rfl
        exact absurd (failed.symm.trans finished) (by simp)
      · have thrown := failed.symm.trans (addLoop_unknownTag delivers host (.start 2) unknown le_rfl)
        exact ⟨⟨isAddition, large, unknown⟩, Except.error.inj thrown⟩
    · exact absurd (failed.symm.trans (readBytes_total _ 10 received.bytes.length)) (by simp)
  · rintro ⟨⟨isAddition, large, unknown⟩, rfl⟩
    exact Or.inl ⟨isAddition, large, addLoop_unknownTag delivers host (.start 2) unknown le_rfl⟩

theorem visit_eq_error_iff (host : Host) (input : Input) (server : Server) (it : Fin server.clientSockets.length)
    (fault : Fault Exn) :
    visit host input server it = .error fault ↔
      fault = .thrown (.runtimeError "Unknown number type") ∧ server.serverState ≠ .closing ∧
        server.readfds (server.clientSockets.get it).socket = true ∧
        ∃ received, input.read = .data received ∧ SendsUnknownTag received.bytes := by
  by_cases closing : server.serverState = .closing
  · rw [visit_closing closing]
    simp [closing]
  · cases ready : server.readfds (server.clientSockets.get it).socket with
    | false =>
      rw [visit_idle closing ready]
      simp
    | true =>
      by_cases lost : ∀ received, input.read ≠ .data received
      · rw [visit_lost closing ready lost]
        simp [lost]
      · push Not at lost
        obtain ⟨received, data⟩ := lost
        rw [visit_data closing ready data]
        by_cases long : 2 ≤ received.bytes.length
        · simp only [if_pos long, bind_eq_error, callHandler_physical_eq_error_iff _ _ _ _ _ received long,
            reduceCtorEq, and_false, exists_false, or_false, data, ReadResult.data.injEq, exists_eq_left', closing,
            ne_eq, not_false_eq_true, true_and]
          exact and_comm
        · have harmless : ¬SendsUnknownTag received.bytes := fun sends => long (by have := sends.2.1; omega)
          simp [long, data, harmless]

theorem step_eq_error_iff (host : Host) (input : Input) (config : Config) (fault : Fault Exn) :
    step host input config = .error fault ↔
      fault = .thrown (.runtimeError "Unknown number type") ∧
        ∃ received, Receives input config received ∧ SendsUnknownTag received.bytes := by
  cases at_ : config.pc with
  | processRequests it =>
    by_cases present : it < config.server.clientSockets.length
    · simp only [step, at_, dif_pos present, bind_eq_error, visit_eq_error_iff, reduceCtorEq, and_false,
        exists_false, or_false, Receives, Pc.processRequests.injEq]
      constructor
      · rintro ⟨thrown, isOpen, ready, received, data, sends⟩
        exact ⟨thrown, received, ⟨it, present, rfl, isOpen, ready, data⟩, sends⟩
      · rintro ⟨thrown, received, ⟨_, _, rfl, isOpen, ready, data⟩, sends⟩
        exact ⟨thrown, isOpen, ready, received, data, sends⟩
    · simp only [step, at_, dif_neg present, reduceCtorEq, false_iff, not_and, not_exists]
      rintro - received ⟨_, inside, same, -⟩
      obtain rfl := Pc.processRequests.inj (at_.symm.trans same)
      exact absurd inside present
  | _ => simp [step, at_, Receives]

/-- A step of the main loop fails exactly on an addition request with an unknown
tag; a run that receives none goes on for as long as there are inputs. -/
theorem server_survives_iff (host : Host) :
    (∀ input config, (∃ next, step host input config = .ok next) ↔
      ∀ received, Receives input config received → ¬SendsUnknownTag received.bytes) ∧
    ∀ boot inputs, (∀ input ∈ inputs, ∀ received, input.read = .data received → ¬SendsUnknownTag received.bytes) →
      ∃ config, ServerRun host (fun _ _ => True) boot inputs config := by
  have returns (input : Input) (config : Config) : (∃ next, step host input config = .ok next) ↔
      ∀ received, Receives input config received → ¬SendsUnknownTag received.bytes := by
    constructor
    · rintro ⟨next, stepped⟩ received receives sends
      have failed := (step_eq_error_iff host input config _).mpr ⟨rfl, received, receives, sends⟩
      exact absurd (stepped.symm.trans failed) (by simp)
    · intro harmless
      cases stepped : step host input config with
      | ok next => exact ⟨next, rfl⟩
      | error fault =>
        obtain ⟨-, received, receives, sends⟩ := (step_eq_error_iff host input config fault).mp stepped
        exact absurd sends (harmless received receives)
  refine ⟨returns, fun boot inputs harmless => Execution.exists_of_total (fun _ _ _ => trivial) ?_ inputs harmless⟩
  rintro input config safe
  exact (returns input config).mpr fun received ⟨_, _, _, _, _, data⟩ => safe received data

/-- Six bytes: an addition request whose first tag is 255. -/
def poisonPacket : Received := { bytes := [0, 2, 255, 0, 0, 0], nonempty := by decide, fits := by decide }

def pingPacket : Received := { bytes := [0, 7], nonempty := by decide, fits := by decide }

def untilRead : List Input := [connect 4, connect 4, idle, idle, idle, deliver pingPacket, idle]

theorem server_survives_ping :
    ∃ config, ServerRun exampleHost (fun _ _ => True) (exampleBoot []) (untilRead ++ [deliver pingPacket]) config := by
  refine (server_survives_iff exampleHost).2 (exampleBoot []) _ fun input member received data sends => ?_
  have isPing : received = pingPacket := by
    simp only [untilRead, List.cons_append, List.nil_append, List.mem_cons, List.not_mem_nil, or_false] at member
    rcases member with rfl | rfl | rfl | rfl | rfl | rfl | rfl | rfl <;> simp_all [connect, idle, deliver]
  exact absurd (isPing ▸ sends.1) (by decide)

/-- A connected client ends the server with the six bytes of `poisonPacket`. -/
theorem poisonPacket_ends_server :
    ∃ config, ServerRun exampleHost (fun _ _ => True) (exampleBoot []) untilRead config ∧
      step exampleHost (deliver poisonPacket) config =
        .error (.thrown (.runtimeError "Unknown number type")) := by
  obtain ⟨config, ran⟩ : ∃ config, run (step exampleHost) untilRead (exampleBoot []).config = .ok config := ⟨_, rfl⟩
  refine ⟨config, Execution.of_run .nil ran, ?_⟩
  cases ran
  rfl

end Communo.Survival
