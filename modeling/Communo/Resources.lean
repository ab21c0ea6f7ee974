import Communo.SessionTable
import Communo.Writes

/-! The steps of the main loop as far as descriptors and TLS handles go: which
calls they make on which connection, in which order. -/

namespace Communo.Resources
open Lib.ByteCodec Lib.CheckedMemory Lib.Runs Protocol NumParser Chat Session Handlers MainLoop Dispatch Transitions
  Survival Writes SessionTable

/-- What the session in a hole gives up when the next one is moved into its place. -/
def vacate (hole : ClientSocket) : List Call :=
  (if hole.ssl.isSome then [Call.sslFree hole.ssl] else []) ++
    (if hole.socket ≠ invalidSocket then [Call.close hole.socket] else [])

theorem erase_snd (sockets : List ClientSocket) (it : Fin sockets.length) :
    (erase sockets it).2 =
      if it.val + 1 < sockets.length then vacate (sockets.get it) else (sockets.get it).destroy := by
  have split : sockets.drop it = sockets.get it :: sockets.drop (it + 1) := List.drop_eq_getElem_cons it.isLt
  simp only [erase, split]
  by_cases inner : it.val + 1 < sockets.length
  · have later : sockets.drop (it + 1) = sockets.get ⟨it + 1, inner⟩ :: sockets.drop (it + 1 + 1) :=
      List.drop_eq_getElem_cons inner
    rw [later, if_pos inner]
    simp only [shiftDown, ClientSocket.moveAssign, shiftDown_movedFrom, List.append_nil]
    rfl
  · rw [if_neg inner, List.drop_eq_nil_of_le (by omega)]
    rfl

def FreesOnFailure (client : ClientSocket) (result : Bool × ClientSocket × List Call) : Prop :=
  ∃ uses : List Call, (∀ call ∈ uses, call = .sslAccept client.ssl ∨ call = .sslGetError client.ssl) ∧
    (result.1 = true ∧ result.2.2 = uses ∨ result.1 = false ∧ result.2.2 = uses ++ [Call.sslFree client.ssl])

theorem freesOnFailure_giveUp (client : ClientSocket) : FreesOnFailure client (giveUp client) :=
  ⟨[Call.sslAccept client.ssl, .sslGetError client.ssl], by simp, Or.inr ⟨rfl, rfl⟩⟩

theorem FreesOnFailure.again {client : ClientSocket} {result : Bool × ClientSocket × List Call}
    (later : FreesOnFailure client result) :
    FreesOnFailure client (result.1, result.2.1, .sslAccept client.ssl :: .sslGetError client.ssl :: result.2.2) := by
  obtain ⟨uses, onHandle, ended⟩ := later
  refine ⟨.sslAccept client.ssl :: .sslGetError client.ssl :: uses, by simpa using onHandle, ?_⟩
  rcases ended with ⟨succeeded, same⟩ | ⟨failed, same⟩
  · exact Or.inl ⟨succeeded, by rw [same]⟩
  · exact Or.inr ⟨failed, by rw [same]; rfl⟩

theorem freesOnFailure_handshakeLoop (client : ClientSocket) (attempts : List Attempt) :
    FreesOnFailure client (handshakeLoop client attempts) := by
  induction attempts with
  | nil => exact freesOnFailure_giveUp client
  | cons attempt rest ih =>
    simp only [handshakeLoop]
    split
    · exact ⟨[Call.sslAccept client.ssl], by simp, Or.inl ⟨rfl, rfl⟩⟩
    · split
      · exact freesOnFailure_giveUp client
      · split
        · exact freesOnFailure_giveUp client
        · split
          · exact freesOnFailure_giveUp client
          · split
            · split
              · exact ih.again
              · exact freesOnFailure_giveUp client
            · split
              · exact freesOnFailure_giveUp client
              · exact ih.again

def Uses (held : Option Handle → Prop) : Call → Prop
  | .sslAccept ssl | .sslGetError ssl | .sslRead ssl _ | .sslWrite ssl _ => held ssl
  | .fdSet _ | .fdIsSet _ | .select _ | .shutdown _ | .callHandler _ _ => True
  | .accept fd => fd < 0
  | _ => False

/-- The three ways in which `InitSSL` fails on a new connection, with their calls. -/
inductive Refused (input : Input) (fresh : Handle) : List Call → Prop where
  | unallocated (failed : input.handshake.allocated = false) :
      Refused input fresh [Call.sslNew none, .shutdown input.acceptedFd, .close input.acceptedFd]
  | unattached (allocated : input.handshake.allocated = true) (failed : input.handshake.attached = false) :
      Refused input fresh [Call.sslNew (some fresh), .sslSetFd (some fresh) input.acceptedFd, .sslFree (some fresh),
        .shutdown input.acceptedFd, .close input.acceptedFd]
  | unfinished (allocated : input.handshake.allocated = true) (attached : input.handshake.attached = true)
      (uses : List Call) (onHandle : ∀ call ∈ uses, Uses (· = some fresh) call) :
      Refused input fresh ([Call.sslNew (some fresh), .sslSetFd (some fresh) input.acceptedFd] ++ uses ++
        [Call.sslFree (some fresh)])

/-- The loop of `ProcessRequests` stands at a session that it closes and erases. -/
def Erases (input : Input) (config : Config) (it : Fin config.server.clientSockets.length) : Prop :=
  config.pc = .processRequests it ∧
    (config.server.serverState = .closing ∨
      config.server.readfds (config.server.clientSockets.get it).socket = true ∧
        ∀ received, input.read ≠ .data received)

instance (read : ReadResult) : Decidable (∀ received, read ≠ .data received) :=
  match read with
  | .data received => .isFalse fun other => other received rfl
  | .wantRead | .wantWrite | .closed | .fatal => .isTrue fun _ => by simp

instance (input : Input) (config : Config) (it : Fin config.server.clientSockets.length) :
    Decidable (Erases input config it) :=
  inferInstanceAs (Decidable (_ ∧ _))

def held (config : Config) (ssl : Option Handle) : Prop := ssl ∈ config.server.clientSockets.map ClientSocket.ssl

structure Keeps (input : Input) (config : Config) : Prop where
  accepts : ¬Accepts input config
  erases : ∀ it, ¬Erases input config it
  returns : config.pc ≠ .returning

/-- What a step does with descriptors and handles. -/
inductive Worked (input : Input) (config next : Config) : List Call → Prop where
  | talked {calls : List Call} (keeps : Keeps input config)
      (kept : next.server.clientSockets.map connection = config.server.clientSockets.map connection)
      (state : next.server.serverState = config.server.serverState ∨ config.server.serverState = .closing)
      (uses : ∀ call ∈ calls, Uses (held config) call) : Worked input config next calls
  | refused {calls : List Call} (accepts : Accepts input config)
      (kept : next.server.clientSockets.map connection = config.server.clientSockets.map connection)
      (state : next.server.serverState = config.server.serverState)
      (failed : Refused input config.fresh calls) :
      Worked input config next ([Call.fdIsSet config.server.masterSocket, .accept input.acceptedFd,
        .clientID config.server.uniqueClientCounter] ++ calls ++ [Call.close input.acceptedFd])
  | admitted {uses : List Call} (accepts : Accepts input config) (allocated : input.handshake.allocated = true)
      (attached : input.handshake.attached = true)
      (grown : next.server.clientSockets.map connection = config.server.clientSockets.map connection ++
        [{ socket := input.acceptedFd,
           ssl := some config.fresh,
           sslEnabled := true,
           clientID := config.server.uniqueClientCounter }])
      (state : next.server.serverState = config.server.serverState)
      (onHandle : ∀ call ∈ uses, Uses (· = some config.fresh) call) :
      Worked input config next ([Call.fdIsSet config.server.masterSocket, .accept input.acceptedFd,
        .clientID config.server.uniqueClientCounter] ++
          ([Call.sslNew (some config.fresh), .sslSetFd (some config.fresh) input.acceptedFd] ++ uses))
  | erased {it : Fin config.server.clientSockets.length} {polled : List Call} (erases : Erases input config it)
      (shrunk : next.server.clientSockets = config.server.clientSockets.eraseIdx it)
      (state : next.server.serverState = config.server.serverState)
      (uses : ∀ call ∈ polled, Uses (held config) call) :
      Worked input config next (polled ++ (config.server.clientSockets.get it).close ++
        if it.val + 1 < config.server.clientSockets.length then vacate (config.server.clientSockets.get it)
        else (config.server.clientSockets.get it).destroy)
  | closed (reached : config.pc = .loopEnd) (kept : next.server.clientSockets = config.server.clientSockets)
      (state : next.server.serverState = .closed) :
      Worked input config next (config.server.clientSockets.flatMap ClientSocket.close)
  | returned (reached : config.pc = .returning) (emptied : next.server.clientSockets = [])
      (state : next.server.serverState = config.server.serverState) :
      Worked input config next (config.server.clientSockets.flatMap ClientSocket.destroy)

theorem initSSL_calls (fresh : Handle) (input : Input) (id : BitVec 64) :
    ((initSSL fresh input.handshake { socket := input.acceptedFd, clientID := id }).1 = true ∧
      input.handshake.allocated = true ∧ input.handshake.attached = true ∧
      ∃ uses : List Call, (∀ call ∈ uses, Uses (· = some fresh) call) ∧
        (initSSL fresh input.handshake { socket := input.acceptedFd, clientID := id }).2.2 =
          [Call.sslNew (some fresh), .sslSetFd (some fresh) input.acceptedFd] ++ uses) ∨
    (initSSL fresh input.handshake { socket := input.acceptedFd, clientID := id }).1 = false ∧
      Refused input fresh (initSSL fresh input.handshake { socket := input.acceptedFd, clientID := id }).2.2 := by
  cases allocated : input.handshake.allocated with
  | false =>
    simp only [initSSL, allocated, Bool.not_false, if_true]
    exact Or.inr ⟨trivial, .unallocated allocated⟩
  | true =>
    cases attached : input.handshake.attached with
    | false =>
      simp only [initSSL, allocated, attached, Bool.not_true, Bool.not_false, Bool.false_eq_true, if_false, if_true]
      exact Or.inr ⟨trivial, .unattached allocated attached⟩
    | true =>
      simp only [initSSL, allocated, attached, Bool.not_true, Bool.false_eq_true, if_false]
      obtain ⟨uses, onHandle, ended⟩ := freesOnFailure_handshakeLoop
        { socket := input.acceptedFd, ssl := some fresh, clientID := id } input.handshake.attempts
      have onFresh : ∀ call ∈ uses, Uses (· = some fresh) call := by
        intro call member
        rcases onHandle call member with same | same
        · exact same ▸ rfl
        · exact same ▸ rfl
      rcases ended with ⟨succeeded, made⟩ | ⟨failed, made⟩
      · exact Or.inl ⟨succeeded, trivial, trivial, uses, onFresh, by rw [made]; rfl⟩
      · refine Or.inr ⟨failed, ?_⟩
        rw [made]
        exact .unfinished allocated attached uses onFresh

section Inversion
variable {host : Host} {input : Input} {config next : Config}

theorem mem_of_reply {view : View} {server : Server} {client session : ClientSocket} {packet reply : List Byte}
    (sent : Reply host view server client packet session reply) (member : client ∈ server.clientSockets) :
    session ∈ server.clientSockets := by
  cases sent with
  | broadcast _ _ present => exact present
  | privateMessage _ _ _ _ _ _ recipient _ =>
    unfold findRecipient at recipient
    split at recipient
    · simp at recipient
    · exact List.mem_of_find?_eq_some recipient
  | say _ _ present => exact present
  | _ => exact member

theorem worked_of_handleNewConnections (reached : config.pc = .handleNewConnections) {pc : Pc} {fresh : Handle}
    {trace : List Call} :
    Worked input config
      { server := (handleNewConnections input config.fresh config.server).1, pc := pc, fresh := fresh, trace := trace }
      (handleNewConnections input config.fresh config.server).2.2 := by
  unfold handleNewConnections
  by_cases ready : config.server.readfds config.server.masterSocket = true
  · by_cases failed : input.acceptedFd < 0
    · simp only [if_pos ready, if_pos failed]
      have failing : ¬Accepts input config := fun accepts => absurd failed (not_lt.mpr accepts.2.2)
      exact .talked ⟨failing, by simp [Erases, reached], by simp [reached]⟩ rfl (Or.inl rfl) (by simp [Uses, failed])
    · have accepts : Accepts input config := ⟨reached, ready, not_lt.mp failed⟩
      simp only [if_pos ready, if_neg failed]
      have made := initSSL_calls config.fresh input config.server.uniqueClientCounter
      rcases initSSL_cases config.fresh input.handshake
          { socket := input.acceptedFd, clientID := config.server.uniqueClientCounter } with
        ⟨calls, outcome, -, -⟩ | ⟨dropped, calls, outcome, plain, -⟩
      · simp only [outcome, true_and, Bool.true_eq_false, false_and, or_false] at made
        obtain ⟨allocated, attached, uses, onHandle, rfl⟩ := made
        simp only [outcome, if_true, pushBack_eq, List.append_nil, List.append_assoc]
        refine .admitted accepts allocated attached (by simp [connection]) rfl ?_
        intro call member
        rcases List.mem_append.mp member with negotiated | greeted
        · exact onHandle call negotiated
        · split at greeted
          · rcases sendMOTD_calls _ _ call greeted with ⟨start, -, same⟩ | same
            · exact same ▸ rfl
            · exact same ▸ rfl
          · simp at greeted
      · simp only [outcome, Bool.false_eq_true, false_and, true_and, false_or] at made
        have silent : dropped.destroy = [] := by simp [ClientSocket.destroy, plain]
        simp only [outcome, Bool.false_eq_true, if_false, silent, List.append_nil]
        exact .refused accepts rfl rfl made
  · simp only [if_neg ready]
    exact .talked ⟨fun accepts => ready accepts.2.1, by simp [Erases, reached], by simp [reached]⟩
      rfl (Or.inl rfl) (by simp [Uses])

theorem worked_of_visit {it : Nat} (present : it < config.server.clientSockets.length)
    (reached : config.pc = .processRequests it) {server : Server} {position : Nat} {calls : List Call}
    (visited : visit host input config.server ⟨it, present⟩ = .ok (server, position, calls)) {pc : Pc}
    {fresh : Handle} {trace : List Call} :
    Worked input config { server := server, pc := pc, fresh := fresh, trace := trace } calls := by
  have member : config.server.clientSockets.get ⟨it, present⟩ ∈ config.server.clientSockets := List.get_mem _ _
  have held : held config (config.server.clientSockets.get ⟨it, present⟩).ssl := List.mem_map_of_mem member
  have keeps (stays : ¬(config.server.serverState = .closing ∨
      config.server.readfds (config.server.clientSockets.get ⟨it, present⟩).socket = true ∧
        ∀ received, input.read ≠ .data received)) : Keeps input config := by
    refine ⟨by simp [Accepts, reached], fun other erases => ?_, by simp [reached]⟩
    obtain rfl : other = ⟨it, present⟩ := Fin.ext (Pc.processRequests.inj (erases.1.symm.trans reached))
    exact stays erases.2
  by_cases closing : config.server.serverState = .closing
  · rw [visit_closing closing] at visited
    cases Except.ok.inj visited
    rw [erase_snd]
    exact @Worked.erased input config _ ⟨it, present⟩ [] ⟨reached, Or.inl closing⟩ (erase_fst _ _) rfl (by simp)
  · cases ready : config.server.readfds (config.server.clientSockets.get ⟨it, present⟩).socket with
    | false =>
      rw [visit_idle closing ready] at visited
      cases Except.ok.inj visited
      have stays := keeps (by simp only [closing, ready, Bool.false_eq_true, false_and, or_self, not_false_eq_true])
      exact .talked stays rfl (Or.inl rfl) (by simp [Uses])
    | true =>
      by_cases lost : ∀ received, input.read ≠ .data received
      · rw [visit_lost closing ready lost] at visited
        cases Except.ok.inj visited
        rw [erase_snd]
        exact .erased ⟨reached, Or.inr ⟨ready, lost⟩⟩ (erase_fst _ _) rfl (by simpa [Uses] using held)
      · push Not at lost
        obtain ⟨received, data⟩ := lost
        have keeps := keeps (by simp [closing, data])
        rw [visit_data closing ready data] at visited
        by_cases long : 2 ≤ received.bytes.length
        · rw [if_pos long] at visited
          obtain ⟨handled, called, returned⟩ := bind_eq_ok.mp visited
          cases Except.ok.inj returned
          obtain ⟨effect, answers⟩ :=
            dispatched_of_callHandler (handlerView_delivers input config received) long called
          obtain ⟨kept, -, state⟩ := connections_of_handled effect
          refine .talked keeps kept (Or.inl state) fun call made => ?_
          simp only [List.mem_append, List.mem_cons, List.not_mem_nil, or_false] at made
          rcases made with (rfl | rfl | rfl) | answered
          · trivial
          · exact held
          · trivial
          · obtain ⟨session, reply, sent, same⟩ := answers call answered
            have addressed := mem_of_reply sent member
            rcases same with rfl | rfl
            · exact List.mem_map_of_mem addressed
            · exact List.mem_map_of_mem addressed
        · rw [if_neg long] at visited
          cases Except.ok.inj visited
          refine .talked keeps rfl (Or.inl rfl) fun call made => ?_
          simp only [sendSSLPacketToClientSocket, List.mem_append, List.mem_cons, List.not_mem_nil, or_false] at made
          rcases made with (rfl | rfl) | rfl | failed
          · trivial
          · exact held
          · exact held
          · split at failed
            · rw [List.mem_singleton.mp failed]
              exact held
            · simp at failed

theorem worked_of_loopEnd (reached : config.pc = .loopEnd) {pc : Pc} {fresh : Handle} {trace : List Call} :
    Worked input config
      { server := (loopEnd input.closingRequested config.server).1, pc := pc, fresh := fresh, trace := trace }
      (loopEnd input.closingRequested config.server).2 := by
  have keeps : Keeps input config := ⟨by simp [Accepts, reached], by simp [Erases, reached], by simp [reached]⟩
  unfold loopEnd
  by_cases requested : input.closingRequested = true
  · simp only [if_pos requested]
    exact .closed reached rfl rfl
  · by_cases closing : config.server.serverState = .closing
    · simp only [if_neg requested, if_pos closing]
      exact .talked keeps rfl (Or.inr closing) (by simp)
    · simp only [if_neg requested, if_neg closing]
      exact .talked keeps rfl (Or.inl rfl) (by simp)

theorem worked_of_step (stepped : step host input config = .ok next) :
    ∃ calls, next.trace = config.trace ++ calls ∧ Worked input config next calls := by
  unfold step at stepped
  split at stepped
  · next reached =>
    obtain rfl := Except.ok.inj stepped
    refine ⟨_, rfl, .talked ⟨by simp [Accepts, reached], by simp [Erases, reached], by simp [reached]⟩
      rfl (Or.inl rfl) fun call made => ?_⟩
    simp only [List.cons_append, List.mem_cons, List.mem_append, List.not_mem_nil, or_false, List.mem_flatMap] at made
    rcases made with rfl | ⟨client, -, watched⟩ | rfl
    · trivial
    · split at watched
      · rw [List.mem_singleton.mp watched]
        trivial
      · simp at watched
    · trivial
  · next reached =>
    obtain rfl := Except.ok.inj stepped
    exact ⟨_, rfl, worked_of_handleNewConnections reached⟩
  · next it reached =>
    split at stepped
    · next present =>
      obtain ⟨visited, went, returned⟩ := bind_eq_ok.mp stepped
      cases Except.ok.inj returned
      exact ⟨_, rfl, worked_of_visit present reached went⟩
    · next done =>
      obtain rfl := Except.ok.inj stepped
      refine ⟨[], by simp, .talked ⟨by simp [Accepts, reached], fun other erases => ?_, by simp [reached]⟩
        rfl (Or.inl rfl) (by simp)⟩
      exact done (Pc.processRequests.inj (erases.1.symm.trans reached) ▸ other.isLt)
  · next reached =>
    obtain rfl := Except.ok.inj stepped
    exact ⟨_, rfl, worked_of_loopEnd reached⟩
  · next reached =>
    obtain rfl := Except.ok.inj stepped
    exact ⟨_, rfl, .returned reached rfl rfl⟩
  · next reached =>
    obtain rfl := Except.ok.inj stepped
    exact ⟨[], by simp, .talked ⟨by simp [Accepts, reached], by simp [Erases, reached], by simp [reached]⟩
      rfl (Or.inl rfl) (by simp)⟩

end Inversion

theorem Worked.calls_of_erases {input : Input} {config next : Config} {calls : List Call}
    (worked : Worked input config next calls) {it : Fin config.server.clientSockets.length}
    (erases : Erases input config it) :
    ∃ polled : List Call, (∀ call ∈ polled, Uses (held config) call) ∧
      calls = polled ++ (config.server.clientSockets.get it).close ++
        if it.val + 1 < config.server.clientSockets.length then vacate (config.server.clientSockets.get it)
        else (config.server.clientSockets.get it).destroy := by
  cases worked with
  | talked keeps => exact absurd erases (keeps.erases it)
  | refused accepts => exact absurd (accepts.1.symm.trans erases.1) (by simp)
  | admitted accepts => exact absurd (accepts.1.symm.trans erases.1) (by simp)
  | closed reached => exact absurd (reached.symm.trans erases.1) (by simp)
  | returned reached => exact absurd (reached.symm.trans erases.1) (by simp)
  | @erased other polled found _ _ uses =>
    obtain rfl : other = it := Fin.ext (Pc.processRequests.inj (found.1.symm.trans erases.1))
    exact ⟨polled, uses, rfl⟩

end Communo.Resources
