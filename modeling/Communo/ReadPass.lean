import Communo.Lib.Sweep
import Communo.Resources

/-! One pass of `ProcessRequests`: sessions are erased while the loop goes over
them, and the table ends up as if it had been filtered. -/

namespace Communo.ReadPass
open Lib.ByteCodec Lib.CheckedMemory Lib.Runs Lib.Sweep Protocol NumParser Chat Session Handlers MainLoop Dispatch
  Transitions SessionTable Resources

structure Identity where
  socket : Int
  ssl : Option Handle
  clientID : BitVec 64
  clientUsername : List Byte
  deriving DecidableEq, Repr

def identity (client : ClientSocket) : Identity :=
  { socket := client.socket, ssl := client.ssl, clientID := client.clientID, clientUsername := client.clientUsername }

def isData : ReadResult → Bool
  | .data _ => true
  | _ => false

def polls (calls : List Call) : List Int :=
  calls.filterMap fun
    | .fdIsSet fd => some fd
    | _ => none

def sslReads (calls : List Call) : List (Option Handle × ReadResult) :=
  calls.filterMap fun
    | .sslRead ssl result => some (ssl, result)
    | _ => none

section Calls

/-- A call that has nothing to do with the set of descriptors and does not read from a session. -/
def Unobserving : Call → Prop
  | .fdSet _ | .fdIsSet _ | .sslRead _ _ => False
  | _ => True

theorem polls_eq_nil {calls : List Call} (unobserving : ∀ call ∈ calls, Unobserving call) : polls calls = [] := by
  rw [polls, List.filterMap_eq_nil_iff]
  intro call member
  have unobserved := unobserving call member
  cases call <;> first | rfl | exact unobserved.elim

theorem sslReads_eq_nil {calls : List Call} (unobserving : ∀ call ∈ calls, Unobserving call) : sslReads calls = [] := by
  rw [sslReads, List.filterMap_eq_nil_iff]
  intro call member
  have unobserved := unobserving call member
  cases call <;> first | rfl | exact unobserved.elim

/-- What is called for a session that stays: nothing is closed or freed either. -/
def Harmless (call : Call) : Prop := Unobserving call ∧ ∀ fd ssl, call ≠ .close fd ∧ call ≠ .sslFree ssl

theorem harmless_of_isReply {call : Call} (reply : IsReply call) : Harmless call := by
  cases call with
  | sslWrite | sslGetError => exact ⟨trivial, fun _ _ => ⟨nofun, nofun⟩⟩
  | _ => exact reply.elim

theorem unobserving_close (client : ClientSocket) : ∀ call ∈ client.close, Unobserving call := by
  simp [ClientSocket.close, Unobserving]

theorem unobserving_destroy (client : ClientSocket) : ∀ call ∈ client.destroy, Unobserving call := by
  unfold ClientSocket.destroy
  split_ifs <;> simp [Unobserving]

theorem unobserving_erase (sockets : List ClientSocket) (it : Fin sockets.length) :
    ∀ call ∈ (sockets.get it).close ++ (erase sockets it).2, Unobserving call := by
  have erasing : ∀ call ∈ (erase sockets it).2, Unobserving call := by
    rw [erase_snd]
    split_ifs
    · unfold vacate
      split_ifs <;> simp [Unobserving]
    · exact unobserving_destroy _
  exact fun call member => (List.mem_append.mp member).elim (unobserving_close _ call) (erasing call)

theorem polls_append (first second : List Call) : polls (first ++ second) = polls first ++ polls second :=
  List.filterMap_append

theorem sslReads_append (first second : List Call) : sslReads (first ++ second) = sslReads first ++ sslReads second :=
  List.filterMap_append

end Calls

section Visit
variable {input : Input} {server next : Server} {it : Fin server.clientSockets.length} {position : Nat}
  {calls : List Call}

/-- The session is ready and its `SSL_read` returns nothing positive. -/
def Lost (input : Input) (server : Server) (client : ClientSocket) : Prop :=
  server.readfds client.socket = true ∧ isData input.read = false

instance (input : Input) (server : Server) (client : ClientSocket) : Decidable (Lost input server client) :=
  inferInstanceAs (Decidable (_ ∧ _))

def looks (input : Input) (server : Server) (client : ClientSocket) : List Call :=
  if server.readfds client.socket = true then [.fdIsSet client.socket, .sslRead client.ssl input.read]
  else [.fdIsSet client.socket]

structure Round (input : Input) (server : Server) (it : Fin server.clientSockets.length) (next : Server)
    (position : Nat) (calls : List Call) : Prop where
  readfds : next.readfds = server.readfds
  serverState : next.serverState = server.serverState
  shape : ∃ rest, calls = looks input server (server.clientSockets.get it) ++ rest ∧ ∀ call ∈ rest, Unobserving call
  sessions : next.clientSockets.map identity = if Lost input server (server.clientSockets.get it) then
    (server.clientSockets.map identity).eraseIdx it else server.clientSockets.map identity
  position : position = if Lost input server (server.clientSockets.get it) then it.val else it.val + 1
  releases : ∀ call ∈ calls, (∃ fd, call = .close fd) ∨ (∃ ssl, call = .sslFree ssl) →
    Lost input server (server.clientSockets.get it) ∧
      Releases (server.clientSockets.get it).socket (server.clientSockets.get it).ssl call
  allocated : .sslFree none ∉ calls

theorem identities_of_handled {view : View} {packet : List Byte}
    (effect : Handled view server it packet next calls) :
    next.clientSockets.map identity = server.clientSockets.map identity ∧ next.readfds = server.readfds ∧
      next.serverState = server.serverState :=
  ⟨keys_of_handled (fun _ _ _ => rfl) effect, by cases effect <;> rfl, by cases effect <;> rfl⟩

theorem Round.polls (round : Round input server it next position calls) :
    polls calls = [(server.clientSockets.get it).socket] := by
  obtain ⟨rest, rfl, unobserving⟩ := round.shape
  rw [polls_append, polls_eq_nil unobserving, looks]
  split_ifs <;> rfl

theorem Round.sslReads (round : Round input server it next position calls) :
    sslReads calls = if server.readfds (server.clientSockets.get it).socket = true then
      [((server.clientSockets.get it).ssl, input.read)] else [] := by
  obtain ⟨rest, rfl, unobserving⟩ := round.shape
  rw [sslReads_append, sslReads_eq_nil unobserving, looks]
  split_ifs <;> rfl

theorem looks_keeps (input : Input) (server : Server) (client : ClientSocket) :
    ∀ call ∈ looks input server client, ∀ fd ssl, call ≠ .close fd ∧ call ≠ .sslFree ssl := by
  intro call member
  unfold looks at member
  split_ifs at member <;> simp only [List.mem_cons, List.not_mem_nil, or_false] at member
  · rcases member with rfl | rfl <;> exact fun _ _ => ⟨nofun, nofun⟩
  · subst member
    exact fun _ _ => ⟨nofun, nofun⟩

theorem Round.kept (stays : ¬Lost input server (server.clientSockets.get it))
    (frame : next.clientSockets.map identity = server.clientSockets.map identity ∧ next.readfds = server.readfds ∧
      next.serverState = server.serverState) (harmless : ∀ call ∈ calls, Harmless call) :
    Round input server it next (it.val + 1) (looks input server (server.clientSockets.get it) ++ calls) where
  readfds := frame.2.1
  serverState := frame.2.2
  shape := ⟨calls, rfl, fun call member => (harmless call member).1⟩
  sessions := by rw [if_neg stays, frame.1]
  position := by rw [if_neg stays]
  releases call member released := by
    have keeps : ∀ fd ssl, call ≠ .close fd ∧ call ≠ .sslFree ssl :=
      (List.mem_append.mp member).elim (looks_keeps _ _ _ call) fun later => (harmless call later).2
    rcases released with ⟨fd, rfl⟩ | ⟨ssl, rfl⟩
    · exact absurd rfl (keeps fd none).1
    · exact absurd rfl (keeps 0 ssl).2
  allocated member :=
    (List.mem_append.mp member).elim (fun early => (looks_keeps _ _ _ _ early 0 none).2 rfl)
      fun later => ((harmless _ later).2 0 none).2 rfl

theorem sslFree_none_notMem_erase (sockets : List ClientSocket) (it : Fin sockets.length) :
    .sslFree none ∉ (sockets.get it).close ++ (erase sockets it).2 := by
  rw [erase_snd]
  cases held : (sockets.get it).ssl <;> unfold vacate ClientSocket.destroy ClientSocket.close <;> split_ifs <;>
    simp_all

theorem Round.lost (lost : Lost input server (server.clientSockets.get it)) :
    Round input server it { server with clientSockets := (erase server.clientSockets it).1 } it
      (looks input server (server.clientSockets.get it) ++
        ((server.clientSockets.get it).close ++ (erase server.clientSockets it).2)) where
  readfds := rfl
  serverState := rfl
  shape := ⟨_, rfl, unobserving_erase _ it⟩
  sessions := by rw [if_pos lost, erase_fst, List.eraseIdx_map]
  position := by rw [if_pos lost]
  releases call member released := by
    refine ⟨lost, ?_⟩
    rcases List.mem_append.mp member with early | late
    · have keeps := looks_keeps _ _ _ call early
      rcases released with ⟨fd, rfl⟩ | ⟨ssl, rfl⟩
      · exact absurd rfl (keeps fd none).1
      · exact absurd rfl (keeps 0 ssl).2
    · rcases List.mem_append.mp late with closing | erasing
      · exact releases_close _ _ call closing
      · exact releases_erase _ it call erasing
  allocated member :=
    (List.mem_append.mp member).elim (fun early => (looks_keeps _ _ _ _ early 0 none).2 rfl)
      (sslFree_none_notMem_erase _ it)

theorem round_of_visited (isOpen : server.serverState ≠ .closing)
    (visited : Visited input server it next position calls) : Round input server it next position calls := by
  have looksReady (ready : server.readfds (server.clientSockets.get it).socket = true) :
      looks input server (server.clientSockets.get it) =
        [.fdIsSet (server.clientSockets.get it).socket, .sslRead (server.clientSockets.get it).ssl input.read] :=
    if_pos ready
  have stays {received : Received} (data : input.read = .data received) :
      ¬Lost input server (server.clientSockets.get it) := by
    intro lost
    rw [Lost, data] at lost
    exact Bool.false_ne_true lost.2.symm
  cases visited with
  | closing closing => exact absurd closing isOpen
  | idle _ quiet =>
    have stays : ¬Lost input server (server.clientSockets.get it) := fun lost =>
      Bool.false_ne_true (quiet.symm.trans lost.1)
    have round := @Round.kept input server server it [] stays ⟨rfl, rfl, rfl⟩ (by simp)
    rwa [looks, quiet, if_neg Bool.false_ne_true, List.append_nil] at round
  | lost _ ready lost =>
    have unread : isData input.read = false := by
      cases read : input.read with
      | data received => exact absurd read (lost received)
      | _ => rfl
    have round := @Round.lost input server it ⟨ready, unread⟩
    rwa [looksReady ready, ← List.append_assoc] at round
  | short _ ready received data single replied replies =>
    have round := @Round.kept input server { server with buffer := receive server.buffer received.bytes } it replied
      (stays data) ⟨rfl, rfl, rfl⟩ fun call member => harmless_of_isReply (isReply_of_plainReply (replies call member))
    rwa [looksReady ready, data] at round
  | handled _ ready received data long next replied effect =>
    have harmless : ∀ call ∈ Call.callHandler (server.clientSockets.get it).ssl received.bytes :: replied,
        Harmless call := by
      intro call member
      rcases List.mem_cons.mp member with rfl | reply
      · exact ⟨trivial, fun _ _ => ⟨nofun, nofun⟩⟩
      · exact harmless_of_isReply (effect.isReply call reply)
    have frame := identities_of_handled effect
    have round := @Round.kept input server next it _ (stays data) frame harmless
    rwa [looksReady ready, data] at round

end Visit

section Pass
variable (config : Config) (inputs : List Input)

/-- The sessions at the start of a pass, each with the input of the round that is to be its own. -/
def visits : List (ClientSocket × Input) := config.server.clientSockets.zip inputs

def readyVisits : List (ClientSocket × Input) :=
  (visits config inputs).filter fun visit => config.server.readfds visit.1.socket

def survivors : List (ClientSocket × Input) :=
  (visits config inputs).filter fun visit => ¬Lost visit.2 config.server visit.1

def casualties : List (ClientSocket × Input) :=
  (visits config inputs).filter fun visit => Lost visit.2 config.server visit.1

/-- The state in the middle of a pass. -/
structure Passing (current : Config) (calls : List Call) : Prop where
  within : inputs.length ≤ config.server.clientSockets.length
  readfds : current.server.readfds = config.server.readfds
  serverState : current.server.serverState = config.server.serverState
  trace : current.trace = config.trace ++ calls
  swept : ∃ it, current.pc = .processRequests it ∧
    Swept (config.server.clientSockets.map identity) ((survivors config inputs).map (identity ∘ Prod.fst)) inputs.length
      (current.server.clientSockets.map identity) it
  polls : polls calls = (visits config inputs).map fun visit => visit.1.socket
  sslReads : sslReads calls = (readyVisits config inputs).map fun visit => (visit.1.ssl, visit.2.read)
  releases : ∀ call ∈ calls, (∃ fd, call = .close fd) ∨ (∃ ssl, call = .sslFree ssl) →
    ∃ visit ∈ casualties config inputs, Releases visit.1.socket visit.1.ssl call
  allocated : .sslFree none ∉ calls

variable {config inputs}

theorem filter_visits_snoc {client : ClientSocket} (here : config.server.clientSockets[inputs.length]? = some client)
    (input : Input) (selects : ClientSocket × Input → Bool) :
    (visits config (inputs ++ [input])).filter selects =
      (visits config inputs).filter selects ++ if selects (client, input) then [(client, input)] else [] := by
  rw [visits, zip_snoc here, List.filter_append, List.filter_singleton, Bool.cond_eq_ite]
  rfl

theorem exists_current {current : Config} {it : Nat}
    (swept : Swept (config.server.clientSockets.map identity) ((survivors config inputs).map (identity ∘ Prod.fst))
      inputs.length (current.server.clientSockets.map identity) it)
    (inside : it < current.server.clientSockets.length) :
    ∃ client, config.server.clientSockets[inputs.length]? = some client ∧
      identity client = identity (current.server.clientSockets.get ⟨it, inside⟩) := by
  have same := swept.current
  rw [List.getElem?_map, List.getElem?_map, List.getElem?_eq_getElem inside, Option.map_some, eq_comm,
    Option.map_eq_some_iff] at same
  exact same

/-- One round takes the pass to the next session. -/
theorem Passing.step {host : Host} {current next : Config} {calls : List Call} {input : Input}
    (started : config.server.serverState = .started) (passing : Passing config inputs current calls)
    (going : ∃ it, current.pc = .processRequests it ∧ it < current.server.clientSockets.length)
    (stepped : step host input current = .ok next) :
    ∃ more, Passing config (inputs ++ [input]) next (calls ++ more) := by
  obtain ⟨it, reached, inside⟩ := going
  obtain ⟨also, reached', swept⟩ := passing.swept
  obtain rfl := Pc.processRequests.inj (reached.symm.trans reached')
  simp only [MainLoop.step, reached, dif_pos inside] at stepped
  obtain ⟨⟨server, position, more⟩, visited, returned⟩ := bind_eq_ok.mp stepped
  obtain rfl := Except.ok.inj returned
  have isOpen : current.server.serverState ≠ .closing := by
    rw [passing.serverState, started]
    decide
  have round := round_of_visited isOpen (visited_of_visit visited)
  obtain ⟨client, here, same⟩ := exists_current swept inside
  have socket : client.socket = (current.server.clientSockets.get ⟨it, inside⟩).socket := congrArg Identity.socket same
  have ssl : client.ssl = (current.server.clientSockets.get ⟨it, inside⟩).ssl := congrArg Identity.ssl same
  have lostIff : Lost input current.server (current.server.clientSockets.get ⟨it, inside⟩) ↔
      Lost input config.server client := by
    rw [Lost, Lost, passing.readfds, socket]
  have within : (inputs ++ [input]).length ≤ config.server.clientSockets.length := by
    rw [List.length_append, List.length_singleton]
    exact (List.getElem?_eq_some_iff.mp here).1
  refine ⟨more, within, round.readfds.trans passing.readfds, round.serverState.trans passing.serverState, ?_, ?_, ?_, ?_, ?_,
    fun member => (List.mem_append.mp member).elim passing.allocated round.allocated⟩
  · simp only [passing.trace, List.append_assoc]
  · refine ⟨position, rfl, ?_⟩
    simp only [survivors, filter_visits_snoc here, decide_eq_true_eq, List.length_append, List.length_singleton]
    rw [round.position, round.sessions]
    by_cases lost : Lost input config.server client
    · rw [if_pos (lostIff.mpr lost), if_pos (lostIff.mpr lost), if_neg (not_not.mpr lost), List.append_nil]
      exact swept.remove
    · rw [if_neg (mt lostIff.mp lost), if_neg (mt lostIff.mp lost), if_pos lost, List.map_append]
      exact swept.keep (by simp [here])
  · simp only [polls_append, passing.polls, round.polls, visits, zip_snoc here, List.map_append, List.map_singleton, socket]
  · simp only [readyVisits, filter_visits_snoc here, sslReads_append, passing.sslReads, round.sslReads, List.map_append,
      passing.readfds, ← socket, ← ssl]
    split_ifs <;> rfl
  · intro call member released
    rcases List.mem_append.mp member with before | now
    · obtain ⟨visit, gone, releases⟩ := passing.releases call before released
      refine ⟨visit, ?_, releases⟩
      simp only [casualties, filter_visits_snoc here]
      exact List.mem_append_left _ gone
    · obtain ⟨lost, releases⟩ := round.releases call now released
      refine ⟨(client, input), ?_, by rwa [socket, ssl]⟩
      simp only [casualties, filter_visits_snoc here, decide_eq_true_eq, if_pos (lostIff.mp lost)]
      exact List.mem_append_right _ (List.mem_singleton_self _)

/-- One pass of `ProcessRequests`: rounds for as long as the iterator is not at the end, none with an exception. -/
structure Pass (host : Host) (config : Config) (inputs : List Input) (final : Config) : Prop where
  entered : config.pc = .processRequests 0
  rounds : Execution (MainLoop.step host)
    (fun _ current => ∃ it, current.pc = .processRequests it ∧ it < current.server.clientSockets.length) config inputs final
  left : ∃ it, final.pc = .processRequests it ∧ final.server.clientSockets.length ≤ it

theorem Passing.initial (entered : config.pc = .processRequests 0) : Passing config [] config [] := by
  have none : visits config [] = [] := List.zip_nil_right
  refine ⟨Nat.zero_le _, rfl, rfl, (List.append_nil _).symm, ⟨0, entered, ?_⟩, ?_, ?_, by simp, by simp⟩
  · rw [survivors, none]
    exact .initial _
  · rw [none]
    rfl
  · rw [readyVisits, none]
    rfl

theorem map_visits {κ : Type} (key : ClientSocket → κ) (all : config.server.clientSockets.length ≤ inputs.length) :
    (visits config inputs).map (fun visit => key visit.1) = config.server.clientSockets.map key := by
  have sessions : (visits config inputs).map Prod.fst = config.server.clientSockets := List.map_fst_zip all
  rw [← sessions, List.map_map]
  rfl

theorem Passing.inside_iff {current : Config} {calls : List Call} {it : Nat} (passing : Passing config inputs current calls)
    (reached : current.pc = .processRequests it) :
    it < current.server.clientSockets.length ↔ inputs.length < config.server.clientSockets.length := by
  obtain ⟨also, reached', swept⟩ := passing.swept
  obtain rfl := Pc.processRequests.inj (reached.symm.trans reached')
  simpa only [List.length_map] using swept.inside_iff

/-- With an outcome for every session and no exception the loop goes to its end. -/
theorem exists_pass {host : Host} (entered : config.pc = .processRequests 0)
    (started : config.server.serverState = .started) (outcomes : inputs.length = config.server.clientSockets.length)
    (returns : ∀ fault, run (MainLoop.step host) inputs config ≠ .error fault) :
    ∃ final calls, run (MainLoop.step host) inputs config = .ok final ∧ Pass host config inputs final ∧
      Passing config inputs final calls := by
  obtain ⟨final, ran⟩ : ∃ final, run (MainLoop.step host) inputs config = .ok final := by
    cases ran : run (MainLoop.step host) inputs config with
    | ok final => exact ⟨final, rfl⟩
    | error fault => exact absurd ran (returns fault)
  have goes : ∀ before input later current, inputs = before ++ input :: later →
      (∃ calls, Passing config before current calls) →
      (∃ it, current.pc = .processRequests it ∧ it < current.server.clientSockets.length) ∧
        ∀ next, step host input current = .ok next → ∃ calls, Passing config (before ++ [input]) next calls := by
    rintro before input later current whole ⟨calls, passing⟩
    obtain ⟨it, reached, -⟩ := passing.swept
    have unvisited : before.length < config.server.clientSockets.length := by
      rw [← outcomes, whole, List.length_append, List.length_cons]
      omega
    have going : ∃ it, current.pc = .processRequests it ∧ it < current.server.clientSockets.length :=
      ⟨it, reached, (passing.inside_iff reached).mpr unvisited⟩
    refine ⟨going, fun next stepped => ?_⟩
    obtain ⟨more, passed⟩ := passing.step started going stepped
    exact ⟨calls ++ more, passed⟩
  obtain ⟨rounds, calls, passing⟩ := Execution.of_run_invariant ⟨[], .initial entered⟩ goes ran
  obtain ⟨it, reached, -⟩ := passing.swept
  have past := mt (passing.inside_iff reached).mp outcomes.not_lt
  exact ⟨final, calls, ran, ⟨entered, rounds, it, reached, not_lt.mp past⟩, passing⟩

/-- No two sessions hold the same TLS handle. -/
def OwnHandles (sockets : List ClientSocket) : Prop :=
  sockets.Pairwise fun one other => one.ssl = other.ssl → one.ssl = none

instance (sockets : List ClientSocket) : Decidable (OwnHandles sockets) :=
  inferInstanceAs (Decidable (List.Pairwise _ _))

theorem ownHandles_of_run {host : Host} {allowed : Input → Config → Prop} {boot : Boot} {inputs : List Input}
    {config : Config} (ran : ServerRun host allowed boot inputs config) : OwnHandles config.server.clientSockets :=
  (List.pairwise_map.mp (secured_of_run ran).distinct_ssl).imp fun apart same => absurd same apart

theorem apart_of_pairwise {R : ClientSocket → ClientSocket → Prop}
    (all : config.server.clientSockets.length ≤ inputs.length) (related : config.server.clientSockets.Pairwise R)
    (symmetric : ∀ one other, R one other → R other one) {stays gone : ClientSocket × Input} (kept : stays ∈ survivors config inputs)
    (lost : gone ∈ casualties config inputs) : R gone.1 stays.1 := by
  obtain ⟨visited, survives⟩ := List.mem_filter.mp kept
  obtain ⟨also, dropped⟩ := List.mem_filter.mp lost
  have sessions : (visits config inputs).map Prod.fst = config.server.clientSockets := List.map_fst_zip all
  rw [← sessions, List.pairwise_map] at related
  have both : Std.Symm fun one other : ClientSocket × Input => R one.1 other.1 := ⟨fun _ _ => symmetric _ _⟩
  refine related.forall also visited fun same => ?_
  rw [same] at dropped
  exact of_decide_eq_true survives (of_decide_eq_true dropped)

end Pass

/-- A pass in which no handler throws goes over the sessions once and in order, reads once from the ones that are ready,
and leaves the table filtered by the outcome of the reads, with the descriptors and handles of those that stay untouched. -/
theorem erasing_pass_filters (host : Host) :
    (∀ (config : Config) (inputs : List Input), config.pc = .processRequests 0 → config.server.serverState = .started →
      (config.server.clientSockets.map ClientSocket.socket).Nodup → OwnHandles config.server.clientSockets →
      inputs.length = config.server.clientSockets.length →
      (∀ fault, run (MainLoop.step host) inputs config ≠ .error fault) →
      ∃ final calls, Pass host config inputs final ∧ final.trace = config.trace ++ calls ∧
        final.server.clientSockets.map identity = (survivors config inputs).map (identity ∘ Prod.fst) ∧
        polls calls = config.server.clientSockets.map ClientSocket.socket ∧
        sslReads calls = (readyVisits config inputs).map (fun visit => (visit.1.ssl, visit.2.read)) ∧
        ∀ visit ∈ survivors config inputs, .close visit.1.socket ∉ calls ∧ .sslFree visit.1.ssl ∉ calls) ∧
    ∀ (allowed : Input → Config → Prop) (boot : Boot) (inputs : List Input) (config : Config),
      ServerRun host allowed boot inputs config → OwnHandles config.server.clientSockets := by
  refine ⟨?_, fun _ _ _ _ => ownHandles_of_run⟩
  intro config inputs entered started distinct owned outcomes returns
  obtain ⟨final, calls, -, pass, passing⟩ := exists_pass entered started outcomes returns
  obtain ⟨it, reached, swept⟩ := passing.swept
  refine ⟨final, calls, pass, passing.trace, ?_, ?_, passing.sslReads, fun visit kept => ⟨?_, ?_⟩⟩
  · rw [swept.items_eq, outcomes, List.drop_eq_nil_of_le (by simp), List.append_nil]
  · rw [passing.polls, map_visits ClientSocket.socket outcomes.ge]
  · intro closed
    obtain ⟨gone, lost, releases⟩ := passing.releases _ closed (.inl ⟨_, rfl⟩)
    exact apart_of_pairwise outcomes.ge (List.pairwise_map.mp distinct) (fun _ _ => Ne.symm) kept lost releases.symm
  · intro freed
    obtain ⟨gone, lost, releases⟩ := passing.releases _ freed (.inr ⟨_, rfl⟩)
    have null : gone.1.ssl = none := apart_of_pairwise outcomes.ge owned
      (fun _ _ own same => same.trans (own same.symm)) kept lost releases.symm
    rw [show visit.1.ssl = none from releases.trans null] at freed
    exact passing.allocated freed

def threeSessions : Config :=
  { (exampleBoot []).config with
    server := { (exampleBoot []).config.server with
      clientSockets := [{ socket := 4, ssl := some 0 }, { socket := 5, ssl := some 1, clientID := 1 },
        { socket := 6, ssl := some 2, clientID := 2 }],
      readfds := fun fd => fd ≠ 4 },
    pc := .processRequests 0 }

def threeInputs : List Input := [idle, hangUp, deliver ⟨[0], by decide, by decide⟩]

theorem three_sessions_filtered :
    ∃ final calls, Pass exampleHost threeSessions threeInputs final ∧ final.trace = threeSessions.trace ++ calls ∧
      final.server.clientSockets.map identity = [⟨4, some 0, 0, text "<unk>"⟩, ⟨6, some 2, 2, text "<unk>"⟩] ∧
      polls calls = [4, 5, 6] ∧ (.sslFree (some 2) : Call) ∉ calls := by
  obtain ⟨final, calls, pass, trace, filtered, polled, -, untouched⟩ :=
    (erasing_pass_filters exampleHost).1 threeSessions threeInputs rfl rfl (by decide) (by decide) rfl nofun
  refine ⟨final, calls, pass, trace, filtered.trans (by decide), polled, ?_⟩
  have stays : ({ socket := 6, ssl := some 2, clientID := 2 }, deliver ⟨[0], by decide, by decide⟩) ∈
      survivors threeSessions threeInputs := List.mem_filter.mpr ⟨.tail _ (.tail _ (.head _)), rfl⟩
  exact (untouched _ stays).2

def sharedHandle : Config :=
  { threeSessions with
    server := { threeSessions.server with
      clientSockets := [{ socket := 4, ssl := some 0 }, { socket := 5, ssl := some 0, clientID := 1 }]
      readfds := fun fd => fd = 4 } }

/-- The first of the two hangs up, and the handle of the one that stays is freed. -/
theorem shared_handle_freed :
    ∃ inputs final, (sharedHandle.server.clientSockets.map ClientSocket.socket).Nodup ∧
      sharedHandle.server.serverState = .started ∧ inputs.length = sharedHandle.server.clientSockets.length ∧
      Pass exampleHost sharedHandle inputs final ∧
      ∃ visit ∈ survivors sharedHandle inputs, .sslFree visit.1.ssl ∈ final.trace := by
  obtain ⟨final, calls, ran, pass, -⟩ : ∃ final calls, run (step exampleHost) [hangUp, idle] sharedHandle = .ok final ∧
      Pass exampleHost sharedHandle [hangUp, idle] final ∧ Passing sharedHandle [hangUp, idle] final calls :=
    exists_pass rfl rfl rfl nofun
  refine ⟨[hangUp, idle], final, by decide, rfl, rfl, pass, ({ socket := 5, ssl := some 0, clientID := 1 }, idle),
    List.mem_filter.mpr ⟨.tail _ (.head _), rfl⟩, ?_⟩
  cases ran
  decide

end Communo.ReadPass
