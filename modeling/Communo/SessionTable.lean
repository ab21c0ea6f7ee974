import Communo.Lib.KeyedList
import Communo.Transitions

/-! The table of sessions along whole runs. A connection is what a session keeps
from its handshake to its end; the abstract table of connections only grows at
its end and shrinks by single removals, and the calls of a run say which
descriptors are open and which IDs were given out. -/

namespace Communo.SessionTable
open Lib.ByteCodec Lib.CheckedMemory Lib.KeyedList Lib.Runs Protocol NumParser Chat Session Handlers MainLoop Dispatch Transitions

section Observers

def reopen (fd : Int) (isOpen : Bool) : Call → Bool
  | .accept accepted => if 0 ≤ accepted ∧ accepted = fd then true else isOpen
  | .close closed => if closed = fd then false else isOpen
  | _ => isOpen

def isOpen (trace : List Call) (fd : Int) : Bool := trace.foldl (reopen fd) false

def issuedIDs (trace : List Call) : List (BitVec 64) :=
  trace.filterMap fun
    | .clientID id => some id
    | _ => none

theorem isOpen_append_of_forall {trace calls : List Call} {fd : Int}
    (inert : ∀ call ∈ calls, ∀ before, reopen fd before call = before) :
    isOpen (trace ++ calls) fd = isOpen trace fd := by
  unfold isOpen
  rw [List.foldl_append]
  generalize trace.foldl (reopen fd) false = before
  induction calls with
  | nil => rfl
  | cons call calls ih =>
    rw [List.foldl_cons, inert call (by simp)]
    exact ih fun later member => inert later (by simp [member])

@[simp]
theorem issuedIDs_append (first second : List Call) :
    issuedIDs (first ++ second) = issuedIDs first ++ issuedIDs second :=
  List.filterMap_append

def Untouched : Call → Prop
  | .accept fd => fd < 0
  | .close _ | .clientID _ | .sslFree _ => False
  | _ => True

theorem Untouched.of_quiet {call : Call} (quiet : Quiet call) : Untouched call := by
  cases call <;> first | exact quiet | exact quiet.elim

theorem Untouched.of_isReply {call : Call} (reply : IsReply call) : Untouched call := by
  cases call <;> first | exact reply | exact reply.elim

theorem Untouched.reopen_eq {call : Call} (untouched : Untouched call) (fd : Int) (before : Bool) :
    reopen fd before call = before := by
  cases call with
  | accept accepted =>
    have negative : accepted < 0 := untouched
    exact if_neg (by omega)
  | close closed => exact untouched.elim
  | _ => rfl

theorem reopen_of_releases {other : Int} {ssl : Option Handle} {call : Call} (releases : Releases other ssl call)
    {fd : Int} (different : fd ≠ other) (before : Bool) : reopen fd before call = before := by
  rcases releases.cases with closed | freed | quiet
  · rw [closed]
    exact if_neg different.symm
  · rw [freed]
    rfl
  · exact (Untouched.of_quiet quiet).reopen_eq fd before

theorem issuedIDs_of_released {fd : Int} {ssl : Option Handle} {calls : List Call}
    (released : ∀ call ∈ calls, Untouched call ∨ Releases fd ssl call) : issuedIDs calls = [] := by
  apply List.filterMap_eq_nil_iff.mpr
  intro call member
  have harmless := released call member
  cases call <;> first | rfl | exact harmless.elim False.elim False.elim

end Observers

structure Connection where
  socket : Int
  ssl : Option Handle
  sslEnabled : Bool
  clientID : BitVec 64

def connection (client : ClientSocket) : Connection :=
  { socket := client.socket, ssl := client.ssl, sslEnabled := client.sslEnabled, clientID := client.clientID }

/-- The part of a configuration that connections live in. -/
structure Table where
  connections : List Connection
  uniqueClientCounter : BitVec 64
  fresh : Handle
  trace : List Call

def table (config : Config) : Table where
  connections := config.server.clientSockets.map connection
  uniqueClientCounter := config.server.uniqueClientCounter
  fresh := config.fresh
  trace := config.trace

/-- Every connection is enabled and has a handle of its own. -/
structure Secured (connections : List Connection) (fresh : Handle) : Prop where
  enabled : ∀ member ∈ connections, member.sslEnabled = true
  handled : ∀ member ∈ connections, ∃ handle < fresh, member.ssl = some handle
  handles : (connections.map Connection.ssl).Nodup

namespace Secured
variable {connections : List Connection} {fresh : Handle} (secured : Secured connections fresh)
include secured

theorem later {later : Handle} (grown : fresh ≤ later) : Secured connections later := by
  refine { secured with handled := fun member present => ?_ }
  obtain ⟨handle, early, held⟩ := secured.handled member present
  exact ⟨handle, lt_of_lt_of_le early grown, held⟩

theorem erased (it : Nat) : Secured (connections.eraseIdx it) fresh := by
  constructor
  · exact fun member present => secured.enabled member (List.mem_of_mem_eraseIdx present)
  · exact fun member present => secured.handled member (List.mem_of_mem_eraseIdx present)
  · rw [← List.eraseIdx_map]
    exact secured.handles.eraseIdx it

theorem admitted (fd : Int) (clientID : BitVec 64) :
    Secured (connections ++ [{ socket := fd, ssl := some fresh, sslEnabled := true, clientID := clientID }])
      (fresh + 1) := by
  constructor
  · intro member present
    rcases List.mem_append.mp present with old | new
    · exact secured.enabled member old
    · rw [List.mem_singleton.mp new]
  · intro member present
    rcases List.mem_append.mp present with old | new
    · obtain ⟨handle, early, held⟩ := secured.handled member old
      exact ⟨handle, Nat.lt_succ_of_lt early, held⟩
    · rw [List.mem_singleton.mp new]
      exact ⟨fresh, Nat.lt_succ_self _, rfl⟩
  · rw [List.map_append, List.map_singleton]
    refine List.nodup_append.mpr ⟨secured.handles, by simp, fun ssl old other isNew => ?_⟩
    obtain ⟨member, present, rfl⟩ := List.mem_map.mp old
    obtain ⟨handle, early, held⟩ := secured.handled member present
    rw [List.mem_singleton.mp isNew, held]
    exact fun same => absurd (Option.some.inj same) (Nat.ne_of_lt early)

end Secured

section Sockets
variable {sockets : List ClientSocket} {fresh : Handle} (secured : Secured (sockets.map connection) fresh)
include secured

theorem Secured.distinct_ssl : (sockets.map ClientSocket.ssl).Nodup := by
  have nodup := secured.handles
  rw [List.map_map] at nodup
  exact nodup

theorem Secured.sslEnabled_of_mem {client : ClientSocket} (member : client ∈ sockets) : client.sslEnabled = true :=
  secured.enabled (connection client) (List.mem_map_of_mem member)

theorem Secured.ssl_of_mem {client : ClientSocket} (member : client ∈ sockets) :
    ∃ handle < fresh, client.ssl = some handle :=
  secured.handled (connection client) (List.mem_map_of_mem member)

end Sockets

/-- The IDs are the numbers 0, 1, 2, ... cut to 64 bits, and the sessions hold an increasing choice of them. -/
structure Numbered (table : Table) : Prop where
  counter : table.uniqueClientCounter = BitVec.ofNat 64 (issuedIDs table.trace).length
  issued : issuedIDs table.trace = (List.range (issuedIDs table.trace).length).map (BitVec.ofNat 64)
  numbered : ∃ numbers : List Nat, table.connections.map Connection.clientID = numbers.map (BitVec.ofNat 64) ∧
    numbers.Pairwise (· < ·) ∧ ∀ number ∈ numbers, number < (issuedIDs table.trace).length

/-- With distinct descriptors that are all open, which takes the kernel's promise about `accept`. -/
structure Wellformed (table : Table) : Prop extends Numbered table where
  distinct : (table.connections.map Connection.socket).Nodup
  opened : ∀ member ∈ table.connections, isOpen table.trace member.socket = true

namespace Numbered
variable {before : Table} (numbered : Numbered before) {calls : List Call}
include numbered

theorem silent (none : issuedIDs calls = []) : Numbered { before with trace := before.trace ++ calls } := by
  have same : issuedIDs (before.trace ++ calls) = issuedIDs before.trace := by
    rw [issuedIDs_append, none, List.append_nil]
  constructor
  · simpa only [same] using numbered.counter
  · simpa only [same] using numbered.issued
  · simpa only [same] using numbered.numbered

theorem erased (it : Nat) : Numbered { before with connections := before.connections.eraseIdx it } := by
  obtain ⟨numbers, named, increasing, below⟩ := numbered.numbered
  refine { numbered with numbered := ⟨numbers.eraseIdx it, ?_, increasing.eraseIdx it, ?_⟩ }
  · rw [← List.eraseIdx_map, named, List.eraseIdx_map]
  · exact fun number member => below number (List.mem_of_mem_eraseIdx member)

theorem emptied : Numbered { before with connections := [] } :=
  { numbered with numbered := ⟨[], rfl, by simp, by simp⟩ }

theorem issue (fresh : Handle) (one : issuedIDs calls = [before.uniqueClientCounter]) :
    Numbered { before with
      uniqueClientCounter := before.uniqueClientCounter + 1, fresh := fresh, trace := before.trace ++ calls } := by
  have ids : issuedIDs (before.trace ++ calls) = issuedIDs before.trace ++ [before.uniqueClientCounter] := by
    rw [issuedIDs_append, one]
  obtain ⟨numbers, named, increasing, below⟩ := numbered.numbered
  constructor
  · rw [ids, List.length_append, List.length_singleton, BitVec.ofNat_add, ← numbered.counter]
    rfl
  · rw [ids, List.length_append, List.length_singleton, List.range_succ, List.map_append, ← numbered.issued,
      List.map_singleton, ← numbered.counter]
  · refine ⟨numbers, named, increasing, fun number member => ?_⟩
    rw [ids, List.length_append]
    exact lt_of_lt_of_le (below number member) (Nat.le_add_right _ _)

theorem admitted (fresh : Handle) (one : issuedIDs calls = [before.uniqueClientCounter]) {member : Connection}
    (named : member.clientID = before.uniqueClientCounter) :
    Numbered {
      connections := before.connections ++ [member],
      uniqueClientCounter := before.uniqueClientCounter + 1,
      fresh := fresh,
      trace := before.trace ++ calls } := by
  have issued := numbered.issue fresh one
  obtain ⟨numbers, listed, increasing, below⟩ := numbered.numbered
  refine { issued with numbered := ⟨numbers ++ [(issuedIDs before.trace).length], ?_, ?_, ?_⟩ }
  · rw [List.map_append, listed, List.map_append, List.map_singleton, List.map_singleton, named, numbered.counter]
  · refine List.pairwise_append.mpr ⟨increasing, by simp, fun number early last isLast => ?_⟩
    rw [List.mem_singleton.mp isLast]
    exact below number early
  · intro number present
    rw [issuedIDs_append, one, List.length_append, List.length_singleton]
    rcases List.mem_append.mp present with early | last
    · exact Nat.lt_succ_of_lt (below number early)
    · rw [List.mem_singleton.mp last]
      exact Nat.lt_succ_self _

end Numbered

theorem issuedIDs_opening (master fd : Int) (id : BitVec 64) {ssl : Option Handle} {calls : List Call}
    (released : ∀ call ∈ calls, Untouched call ∨ Releases fd ssl call) :
    issuedIDs ([Call.fdIsSet master, .accept fd, .clientID id] ++ calls) = [id] := by
  rw [issuedIDs_append, issuedIDs_of_released released]
  rfl

namespace Wellformed
variable {before : Table} (wellformed : Wellformed before)
include wellformed

theorem untouched {calls : List Call} (untouched : ∀ call ∈ calls, Untouched call) :
    Wellformed { before with trace := before.trace ++ calls } := by
  have none : issuedIDs calls = [] := issuedIDs_of_released (fun call made => Or.inl (untouched call made) :
    ∀ call ∈ calls, Untouched call ∨ Releases 0 none call)
  refine { wellformed.silent none with distinct := wellformed.distinct, opened := fun member present => ?_ }
  rw [isOpen_append_of_forall fun call made => (untouched call made).reopen_eq member.socket]
  exact wellformed.opened member present

theorem erased (it : Fin before.connections.length) {calls : List Call}
    (released : ∀ call ∈ calls, Untouched call ∨
      Releases (before.connections.get it).socket (before.connections.get it).ssl call) :
    Wellformed { before with
      connections := before.connections.eraseIdx it, trace := before.trace ++ calls } := by
  have kept := (Numbered.erased wellformed.toNumbered it).silent (issuedIDs_of_released released)
  refine { kept with distinct := ?_, opened := fun member present => ?_ }
  · rw [← List.eraseIdx_map]
    exact wellformed.distinct.eraseIdx it
  · obtain ⟨still, different⟩ := (mem_eraseIdx_iff wellformed.distinct it member).mp present
    rw [isOpen_append_of_forall fun call made value => (released call made).elim
      (fun harmless => harmless.reopen_eq _ value) (fun releases => reopen_of_releases releases different value)]
    exact wellformed.opened member still

theorem socket_ne {fd : Int} (vacant : isOpen before.trace fd = false) {member : Connection}
    (present : member ∈ before.connections) : member.socket ≠ fd := by
  intro same
  have opened := wellformed.opened member present
  rw [same, vacant] at opened
  exact absurd opened (by simp)

section Accepting
variable {fd : Int} (master : Int) (vacant : isOpen before.trace fd = false) {calls : List Call}
include vacant

theorem opened_of_accept {id : BitVec 64} {ssl : Option Handle}
    (released : ∀ call ∈ calls, Untouched call ∨ Releases fd ssl call)
    {member : Connection} (present : member ∈ before.connections) :
    isOpen (before.trace ++ ([Call.fdIsSet master, .accept fd, .clientID id] ++ calls)) member.socket = true := by
  have different := wellformed.socket_ne vacant present
  have inert : ∀ call ∈ [Call.fdIsSet master, .accept fd, .clientID id] ++ calls, ∀ value,
      reopen member.socket value call = value := by
    intro call made value
    rcases List.mem_append.mp made with opening | later
    · simp only [List.mem_cons, List.not_mem_nil, or_false] at opening
      rcases opening with rfl | rfl | rfl
      · rfl
      · exact if_neg fun same => different same.2.symm
      · rfl
    · exact (released call later).elim (fun harmless => harmless.reopen_eq _ value)
        (fun releases => reopen_of_releases releases different value)
  rw [isOpen_append_of_forall inert]
  exact wellformed.opened member present

theorem refused (fresh : Handle) (released : ∀ call ∈ calls, Untouched call ∨ Releases fd (some before.fresh) call) :
    Wellformed { before with
      uniqueClientCounter := before.uniqueClientCounter + 1,
      fresh := fresh,
      trace := before.trace ++ ([Call.fdIsSet master, .accept fd, .clientID before.uniqueClientCounter] ++ calls) } := by
  have issued := wellformed.issue fresh (issuedIDs_opening master fd before.uniqueClientCounter released)
  exact { issued with
    distinct := wellformed.distinct
    opened := fun member present => wellformed.opened_of_accept master vacant released present }

theorem admitted (accepted : 0 ≤ fd) (untouched : ∀ call ∈ calls, Untouched call) :
    Wellformed {
      connections := before.connections ++ [
        { socket := fd, ssl := some before.fresh, sslEnabled := true, clientID := before.uniqueClientCounter }],
      uniqueClientCounter := before.uniqueClientCounter + 1,
      fresh := before.fresh + 1,
      trace := before.trace ++
        ([Call.fdIsSet master, .accept fd, .clientID before.uniqueClientCounter] ++ calls) } := by
  have harmless : ∀ call ∈ calls, Untouched call ∨ Releases fd (some before.fresh) call :=
    fun call made => Or.inl (untouched call made)
  have issued := Numbered.admitted wellformed.toNumbered (before.fresh + 1)
    (issuedIDs_opening master fd before.uniqueClientCounter harmless)
    (rfl : ({ socket := fd, ssl := some before.fresh, sslEnabled := true, clientID := before.uniqueClientCounter } :
      Connection).clientID = _)
  refine { issued with distinct := ?_, opened := fun member present => ?_ }
  · rw [List.map_append, List.map_singleton]
    refine List.nodup_append.mpr ⟨wellformed.distinct, by simp, fun socket old other isNew => ?_⟩
    obtain ⟨member, present, rfl⟩ := List.mem_map.mp old
    rw [List.mem_singleton.mp isNew]
    exact wellformed.socket_ne vacant present
  · rcases List.mem_append.mp present with old | new
    · exact wellformed.opened_of_accept master vacant harmless old
    · rw [List.mem_singleton.mp new, ← List.append_assoc,
        isOpen_append_of_forall fun call made => (untouched call made).reopen_eq fd]
      simp [isOpen, List.foldl_append, reopen, accepted]

end Accepting

end Wellformed

section Dispatching
variable {view : View} {server next : Server} {calls : List Call}

theorem keys_of_handled {κ : Type} {key : ClientSocket → κ} {client : Fin server.clientSockets.length}
    {packet : List Byte} (unmoved : ∀ (client : ClientSocket) (roomID : Byte) (joined : Bool),
      key { client with joinedChatRoomID := roomID, chatRoomJoined := joined } = key client)
    (effect : Handled view server client packet next calls) :
    next.clientSockets.map key = server.clientSockets.map key := by
  cases effect with
  | joined roomID =>
    have same : key { server.clientSockets.get client with joinedChatRoomID := roomID, chatRoomJoined := true } =
        (server.clientSockets.map key).get ⟨client, by simp⟩ := by simp [unmoved]
    rw [List.map_set, same]
    exact List.set_getElem_self _
  | _ => rfl

theorem connections_of_handled {client : Fin server.clientSockets.length} {packet : List Byte}
    (effect : Handled view server client packet next calls) :
    next.clientSockets.map connection = server.clientSockets.map connection ∧
      next.uniqueClientCounter = server.uniqueClientCounter ∧ next.serverState = server.serverState := by
  refine ⟨keys_of_handled (fun _ _ _ => rfl) effect, ?_⟩
  cases effect <;> exact ⟨rfl, rfl⟩

end Dispatching

theorem secured_of_stepped {input : Input} {config next : Config} {calls : List Call}
    (secured : Secured (config.server.clientSockets.map connection) config.fresh)
    (stepped : Stepped input config next calls) :
    Secured (next.server.clientSockets.map connection) next.fresh := by
  cases stepped with
  | refused _ _ _ _ _ later => exact secured.later later
  | admitted =>
    simpa only [List.map_append, List.map_singleton, connection] using
      secured.admitted input.acceptedFd config.server.uniqueClientCounter
  | visited it present reached server position calls effect =>
    cases effect with
    | closing => simpa only [erase_fst, List.eraseIdx_map] using secured.erased it
    | lost => simpa only [erase_fst, List.eraseIdx_map] using secured.erased it
    | handled _ _ _ _ _ _ _ effect => simpa only [(connections_of_handled effect).1] using secured
    | _ => exact secured
  | returned => exact ⟨by simp, by simp, by simp⟩
  | _ => exact secured

/-- In every run, whatever the kernel does, the sessions in the table have live handles of their own. -/
theorem secured_of_run {host : Host} {allowed : Input → Config → Prop} {boot : Boot} {inputs : List Input}
    {config : Config} (ran : ServerRun host allowed boot inputs config) :
    Secured (config.server.clientSockets.map connection) config.fresh := by
  refine ran.invariant (I := fun config => Secured (config.server.clientSockets.map connection) config.fresh)
    ⟨by simp [Boot.config], by simp [Boot.config], by simp [Boot.config]⟩ ?_
  intro input config next secured _ stepped
  obtain ⟨calls, effect⟩ := stepped_of_step stepped
  exact secured_of_stepped secured effect

/-- What the kernel promises: `accept` returns a descriptor that is not open. -/
def KernelFresh (input : Input) (config : Config) : Prop :=
  config.pc = .handleNewConnections → config.server.readfds config.server.masterSocket = true →
    0 ≤ input.acceptedFd → isOpen config.trace input.acceptedFd = false

instance (input : Input) (config : Config) : Decidable (KernelFresh input config) :=
  inferInstanceAs (Decidable (_ → _ → _ → _))

def Phase (config : Config) : Prop :=
  config.server.serverState = .started ∧ config.pc ≠ .returning ∧ config.pc ≠ .exited ∨
    config.server.serverState = .closed ∧ (config.pc = .returning ∨ config.pc = .exited)

theorem started_of_phase {config : Config} (phase : Phase config) {pc : Pc} (reached : config.pc = pc)
    (returning : pc ≠ .returning) (exited : pc ≠ .exited) : config.server.serverState = .started := by
  rcases phase with ⟨started, -⟩ | ⟨-, late | late⟩
  · exact started
  · exact absurd (reached.symm.trans late) returning
  · exact absurd (reached.symm.trans late) exited

theorem phase_of_stepped {input : Input} {config next : Config} {calls : List Call} (phase : Phase config)
    (stepped : Stepped input config next calls) : Phase next := by
  have running (pc : Pc) (reached : config.pc = pc) (early : pc ≠ .returning ∧ pc ≠ .exited) :
      config.server.serverState = .started := started_of_phase phase reached early.1 early.2
  cases stepped with
  | polled _ _ reached => exact Or.inl ⟨running _ reached (by simp), by simp, by simp⟩
  | unanswered _ reached => exact Or.inl ⟨running _ reached (by simp), by simp, by simp⟩
  | refused _ _ reached => exact Or.inl ⟨running _ reached (by simp), by simp, by simp⟩
  | admitted _ _ reached => exact Or.inl ⟨running _ reached (by simp), by simp, by simp⟩
  | visited it present reached server position calls effect =>
    have started := running _ reached (by simp)
    have kept : server.serverState = config.server.serverState := by
      cases effect with
      | handled _ _ _ _ _ _ _ effect => exact (connections_of_handled effect).2.2
      | _ => rfl
    exact Or.inl ⟨kept.trans started, by simp, by simp⟩
  | swept _ reached => exact Or.inl ⟨running _ reached (by simp), by simp, by simp⟩
  | looped serverState pc reached settled next =>
    rcases settled with same | closed
    · have started : serverState = .started := same.trans (running _ reached (by simp))
      exact Or.inl ⟨started, by simp [next, started], by simp [next, started]⟩
    · exact Or.inr ⟨closed, Or.inl (by simp [next, closed])⟩
  | closed => exact Or.inr ⟨rfl, Or.inl rfl⟩
  | returned reached =>
    rcases phase with ⟨-, early, -⟩ | ⟨closed, -⟩
    · exact absurd reached early
    · exact Or.inr ⟨closed, Or.inr rfl⟩
  | exited => exact phase

def Accepts (input : Input) (config : Config) : Prop :=
  config.pc = .handleNewConnections ∧ config.server.readfds config.server.masterSocket = true ∧ 0 ≤ input.acceptedFd

/-- What a step can do to the abstract table while the server goes on serving. -/
inductive TableStep (input : Input) (config : Config) : Table → Prop where
  | untouched (calls : List Call) (untouched : ∀ call ∈ calls, Untouched call) :
      TableStep input config { table config with trace := config.trace ++ calls }
  | erased (it : Fin (table config).connections.length) (calls : List Call)
      (released : ∀ call ∈ calls, Untouched call ∨
        Releases ((table config).connections.get it).socket ((table config).connections.get it).ssl call) :
      TableStep input config { table config with
        connections := (table config).connections.eraseIdx it, trace := config.trace ++ calls }
  | refused (accepts : Accepts input config) (fresh : Handle) (calls : List Call)
      (released : ∀ call ∈ calls, Untouched call ∨ Releases input.acceptedFd (some config.fresh) call) :
      TableStep input config { table config with
        uniqueClientCounter := config.server.uniqueClientCounter + 1,
        fresh := fresh,
        trace := config.trace ++ ([Call.fdIsSet config.server.masterSocket, .accept input.acceptedFd,
          .clientID config.server.uniqueClientCounter] ++ calls) }
  | admitted (accepts : Accepts input config) (calls : List Call) (untouched : ∀ call ∈ calls, Untouched call) :
      TableStep input config {
        connections := (table config).connections ++ [
          { socket := input.acceptedFd,
            ssl := some config.fresh,
            sslEnabled := true,
            clientID := config.server.uniqueClientCounter }],
        uniqueClientCounter := config.server.uniqueClientCounter + 1,
        fresh := config.fresh + 1,
        trace := config.trace ++ ([Call.fdIsSet config.server.masterSocket, .accept input.acceptedFd,
          .clientID config.server.uniqueClientCounter] ++ calls) }

def Ends (before after : Table) : Prop :=
  ∃ calls, issuedIDs calls = [] ∧
    (after = { before with trace := before.trace ++ calls } ∨
      after = { before with connections := [], trace := before.trace ++ calls })

theorem released_of_erased (config : Config) (it : Fin config.server.clientSockets.length) {polled : List Call}
    (harmless : ∀ call ∈ polled, Untouched call) :
    ∀ call ∈ polled ++ (config.server.clientSockets.get it).close ++ (erase config.server.clientSockets it).2,
      Untouched call ∨ Releases (config.server.clientSockets.get it).socket (config.server.clientSockets.get it).ssl
        call := by
  intro call made
  simp only [List.mem_append] at made
  rcases made with (early | closed) | moved
  · exact Or.inl (harmless call early)
  · exact Or.inr (releases_close _ _ call closed)
  · exact Or.inr (releases_erase _ it call moved)

theorem tableStep_of_visited {input : Input} {config : Config} {it : Fin config.server.clientSockets.length}
    {server : Server} {position : Nat} {calls : List Call}
    (effect : Visited input config.server it server position calls) (pc : Pc) :
    TableStep input config
      (table { config with server := server, pc := pc, trace := config.trace ++ calls }) := by
  have inTable : it.val < (table config).connections.length := by simp [table]
  have hole : (table config).connections.get ⟨it, inTable⟩ = connection (config.server.clientSockets.get it) := by
    simp [table]
  have shrunk {calls : List Call} (released : ∀ call ∈ calls, Untouched call ∨
      Releases (config.server.clientSockets.get it).socket (config.server.clientSockets.get it).ssl call) :
      TableStep input config (table { config with
        server := { config.server with clientSockets := (erase config.server.clientSockets it).1 },
        pc := pc, trace := config.trace ++ calls }) := by
    have removed : TableStep input config _ := .erased ⟨it, inTable⟩ calls (by rw [hole]; exact released)
    simpa only [table, erase_fst, List.eraseIdx_map] using removed
  cases effect with
  | closing => exact shrunk (released_of_erased config it (fun _ member => absurd member List.not_mem_nil))
  | idle => exact .untouched _ (by simp [Untouched])
  | lost => exact shrunk (released_of_erased config it (by simp [Untouched]))
  | short _ _ received _ _ calls replies =>
    refine .untouched _ fun call made => ?_
    simp only [List.mem_append, List.mem_cons, List.not_mem_nil, or_false] at made
    rcases made with (same | same) | replied
    · exact same ▸ trivial
    · exact same ▸ trivial
    · exact .of_isReply (isReply_of_plainReply (replies call replied))
  | handled _ _ received _ _ _ calls effect =>
    obtain ⟨kept, counter, state⟩ := connections_of_handled effect
    have harmless : ∀ call ∈ [Call.fdIsSet (config.server.clientSockets.get it).socket,
        .sslRead (config.server.clientSockets.get it).ssl (.data received),
        .callHandler (config.server.clientSockets.get it).ssl received.bytes] ++ calls, Untouched call := by
      intro call made
      simp only [List.mem_append, List.mem_cons, List.not_mem_nil, or_false] at made
      rcases made with (same | same | same) | replied
      · exact same ▸ trivial
      · exact same ▸ trivial
      · exact same ▸ trivial
      · exact .of_isReply (effect.isReply call replied)
    have served : TableStep input config _ := .untouched _ harmless
    simpa only [table, kept, counter] using served

/-- Every step of the main loop is a step of the abstract table, or belongs to the end of the server. -/
theorem tableStep_of_stepped {input : Input} {config next : Config} {calls : List Call} (phase : Phase config)
    (stepped : Stepped input config next calls) :
    (config.server.serverState = next.server.serverState ∧
      TableStep input config (table next)) ∨
    (next.server.serverState = .closed ∧ Ends (table config) (table next)) := by
  have still (same : table next = table config) :
      TableStep input config (table next) := by
    have nothing : TableStep input config _ := .untouched [] (by simp)
    rw [List.append_nil] at nothing
    rw [same]
    exact nothing
  cases stepped with
  | polled _ _ _ quiet => exact Or.inl ⟨rfl, .untouched _ fun call made => .of_quiet (quiet call made)⟩
  | unanswered _ _ quiet => exact Or.inl ⟨rfl, .untouched _ fun call made => .of_quiet (quiet call made)⟩
  | refused fresh calls reached ready accepted _ released =>
    refine Or.inl ⟨rfl, ?_⟩
    have ending : ∀ call ∈ calls ++ [Call.close input.acceptedFd], Untouched call ∨
        Releases input.acceptedFd (some (table config).fresh) call := by
      intro call made
      rcases List.mem_append.mp made with early | last
      · exact Or.inr (released call early)
      · rw [List.mem_singleton.mp last]
        exact Or.inr rfl
    have refused : TableStep input config _ := .refused ⟨reached, ready, accepted⟩ fresh _ ending
    simpa only [table, List.append_assoc] using refused
  | admitted calls greeting reached ready accepted quiet greets =>
    refine Or.inl ⟨rfl, ?_⟩
    have untouched : ∀ call ∈ calls ++ greeting, Untouched call := by
      intro call made
      rcases List.mem_append.mp made with negotiated | greeted
      · exact .of_quiet (quiet call negotiated)
      · exact .of_isReply (isReply_of_plainReply (greets call greeted))
    have grown : TableStep input config _ := .admitted ⟨reached, ready, accepted⟩ _ untouched
    simpa only [table, List.append_assoc, List.map_append, List.map_singleton, connection] using grown
  | visited it present reached server position calls effect =>
    refine Or.inl ⟨?_, tableStep_of_visited effect _⟩
    cases effect with
    | handled _ _ _ _ _ _ _ effect => exact (connections_of_handled effect).2.2.symm
    | _ => rfl
  | swept => exact Or.inl ⟨rfl, still rfl⟩
  | looped serverState pc reached settled =>
    rcases settled with same | closed
    · exact Or.inl ⟨same.symm, still rfl⟩
    · exact Or.inr ⟨closed, [], rfl, Or.inl (by simp [table])⟩
  | closed =>
    refine Or.inr ⟨rfl, _, ?_, Or.inl rfl⟩
    apply List.filterMap_eq_nil_iff.mpr
    intro call made
    obtain ⟨client, -, closed⟩ := List.mem_flatMap.mp made
    simp only [ClientSocket.close, List.mem_cons, List.not_mem_nil, or_false] at closed
    rcases closed with rfl | rfl <;> rfl
  | returned reached =>
    rcases phase with ⟨-, early, -⟩ | ⟨closed, -⟩
    · exact absurd reached early
    · refine Or.inr ⟨closed, _, ?_, Or.inr rfl⟩
      apply List.filterMap_eq_nil_iff.mpr
      intro call made
      obtain ⟨client, -, destroyed⟩ := List.mem_flatMap.mp made
      unfold ClientSocket.destroy at destroyed
      split at destroyed
      · simp only [List.mem_cons, List.not_mem_nil, or_false] at destroyed
        rcases destroyed with rfl | rfl <;> rfl
      · simp at destroyed
  | exited => exact Or.inl ⟨rfl, still rfl⟩

theorem Numbered.step {input : Input} {config : Config} {after : Table} (numbered : Numbered (table config))
    (stepped : TableStep input config after) : Numbered after := by
  cases stepped with
  | untouched calls untouched =>
    exact numbered.silent (issuedIDs_of_released (fun call made => Or.inl (untouched call made) :
      ∀ call ∈ calls, Untouched call ∨ Releases 0 none call))
  | erased it calls released => exact (numbered.erased it).silent (issuedIDs_of_released released)
  | refused _ fresh calls released => exact numbered.issue fresh (issuedIDs_opening _ _ _ released)
  | admitted _ calls untouched =>
    exact numbered.admitted _ (issuedIDs_opening _ _ _ (fun call made => Or.inl (untouched call made) :
      ∀ call ∈ calls, Untouched call ∨ Releases input.acceptedFd none call)) rfl

theorem Wellformed.step {input : Input} {config : Config} {after : Table} (wellformed : Wellformed (table config))
    (fresh : KernelFresh input config) (stepped : TableStep input config after) : Wellformed after := by
  cases stepped with
  | untouched calls untouched => exact wellformed.untouched untouched
  | erased it calls released => exact wellformed.erased it released
  | refused accepts later calls released =>
    exact wellformed.refused _ (fresh accepts.1 accepts.2.1 accepts.2.2) later released
  | admitted accepts calls untouched =>
    exact wellformed.admitted _ (fresh accepts.1 accepts.2.1 accepts.2.2) accepts.2.2 untouched

theorem Numbered.ends {before after : Table} (numbered : Numbered before) (ended : Ends before after) :
    Numbered after := by
  obtain ⟨calls, none, rfl | rfl⟩ := ended
  · exact numbered.silent none
  · exact numbered.emptied.silent none

theorem phase_of_run {host : Host} {allowed : Input → Config → Prop} {boot : Boot} {inputs : List Input}
    {config : Config} (ran : ServerRun host allowed boot inputs config) : Phase config := by
  refine ran.invariant (I := Phase) (Or.inl ⟨rfl, by simp [Boot.config], by simp [Boot.config]⟩) ?_
  intro input config next phase _ stepped
  obtain ⟨calls, effect⟩ := stepped_of_step stepped
  exact phase_of_stepped phase effect

/-- In every run, whatever the kernel does, the IDs are given out in order. -/
theorem numbered_of_run {host : Host} {allowed : Input → Config → Prop} {boot : Boot} {inputs : List Input}
    {config : Config} (ran : ServerRun host allowed boot inputs config) : Numbered (table config) := by
  have maintained : Phase config ∧ Numbered (table config) := by
    refine ran.invariant (I := fun config => Phase config ∧ Numbered (table config)) ⟨?_, ?_⟩ ?_
    · exact Or.inl ⟨rfl, by simp [Boot.config], by simp [Boot.config]⟩
    · exact ⟨rfl, rfl, [], rfl, by simp, by simp⟩
    · rintro input config next ⟨phase, numbered⟩ - stepped
      obtain ⟨calls, effect⟩ := stepped_of_step stepped
      refine ⟨phase_of_stepped phase effect, ?_⟩
      rcases tableStep_of_stepped phase effect with ⟨-, moved⟩ | ⟨-, ended⟩
      · exact numbered.step moved
      · exact numbered.ends ended
  exact maintained.2

theorem wellformed_of_run {host : Host} {boot : Boot} {inputs : List Input} {config : Config}
    (ran : ServerRun host KernelFresh boot inputs config) (started : config.server.serverState = .started) :
    Wellformed (table config) := by
  have maintained : Phase config ∧ (config.server.serverState = .started → Wellformed (table config)) := by
    refine ran.invariant (I := fun config => Phase config ∧
      (config.server.serverState = .started → Wellformed (table config))) ⟨?_, fun _ => ?_⟩ ?_
    · exact Or.inl ⟨rfl, by simp [Boot.config], by simp [Boot.config]⟩
    · exact ⟨⟨rfl, rfl, [], rfl, by simp, by simp⟩, by simp [table, Boot.config], by simp [table, Boot.config]⟩
    · rintro input config next ⟨phase, wellformed⟩ fresh stepped
      obtain ⟨calls, effect⟩ := stepped_of_step stepped
      refine ⟨phase_of_stepped phase effect, fun started => ?_⟩
      rcases tableStep_of_stepped phase effect with ⟨same, moved⟩ | ⟨closed, -⟩
      · exact (wellformed (same.trans started)).step fresh moved
      · exact absurd (closed.symm.trans started) (by simp)
  exact maintained.2 started

theorem increasing_of_numbered {ids : List (BitVec 64)} {numbers : List Nat} {count : Nat}
    (named : ids = numbers.map (BitVec.ofNat 64)) (increasing : numbers.Pairwise (· < ·))
    (below : ∀ number ∈ numbers, number < count) (few : count < 2 ^ 64) :
    ids.Pairwise (· < ·) ∧ ∀ id ∈ ids, id < BitVec.ofNat 64 count := by
  have value (number : Nat) (small : number ≤ count) : (BitVec.ofNat 64 number).toNat = number := by
    rw [BitVec.toNat_ofNat]
    exact Nat.mod_eq_of_lt (lt_of_le_of_lt small few)
  subst named
  constructor
  · rw [List.pairwise_map]
    refine increasing.imp_of_mem fun {first second} inFirst inSecond less => ?_
    rw [BitVec.lt_def, value first (below first inFirst).le, value second (below second inSecond).le]
    exact less
  · intro id member
    obtain ⟨number, present, rfl⟩ := List.mem_map.mp member
    rw [BitVec.lt_def, value number (below number present).le, value count le_rfl]
    exact below number present

theorem packetsWritten_broadcast (view : View) (server : Server) (stream : List Byte)
    (enabled : ∀ client ∈ server.clientSockets, client.sslEnabled = true) :
    packetsWritten (callHandlerBroadcast view server stream) =
      server.clientSockets.map fun client => (client.ssl, opcodeBytes .smsgBroadcast ++ stream) := by
  unfold callHandlerBroadcast
  generalize server.clientSockets = clients at enabled
  induction clients with
  | nil => rfl
  | cons client clients ih =>
    have here := enabled client (by simp)
    rw [List.flatMap_cons, packetsWritten_append, ih fun other member => enabled other (by simp [member])]
    simp [here]

/-- The invariant of the session table as the sessions themselves show it. -/
structure TableInvariant (config : Config) : Prop where
  increasing : (config.server.clientSockets.map ClientSocket.clientID).Pairwise (· < ·)
  below : ∀ client ∈ config.server.clientSockets, client.clientID < config.server.uniqueClientCounter
  issuedOnce : (issuedIDs config.trace).Nodup
  enabled : ∀ client ∈ config.server.clientSockets, client.sslEnabled = true
  handle : ∀ client ∈ config.server.clientSockets, client.ssl.isSome
  ownHandle : (config.server.clientSockets.map ClientSocket.ssl).Nodup
  distinct : (config.server.clientSockets.map ClientSocket.socket).Nodup
  opened : ∀ client ∈ config.server.clientSockets, isOpen config.trace client.socket = true

/-- While the server is started the table keeps its invariant, and a broadcast reaches every session once. -/
theorem session_table_invariant (host : Host) (boot : Boot) (inputs : List Input) (config : Config)
    (ran : ServerRun host KernelFresh boot inputs config) (started : config.server.serverState = .started)
    (few : (issuedIDs config.trace).length < 2 ^ 64) :
    TableInvariant config ∧ ∀ view stream, packetsWritten (callHandlerBroadcast view config.server stream) =
      config.server.clientSockets.map fun client => (client.ssl, opcodeBytes .smsgBroadcast ++ stream) := by
  have wellformed := wellformed_of_run ran started
  have secured := secured_of_run ran
  obtain ⟨numbers, named, increasing, below⟩ := wellformed.numbered
  have ordered := increasing_of_numbered named increasing below few
  rw [← wellformed.counter] at ordered
  simp only [table, List.map_map] at ordered
  have enabled : ∀ client ∈ config.server.clientSockets, client.sslEnabled = true :=
    fun _ member => secured.sslEnabled_of_mem member
  refine ⟨⟨ordered.1, ?_, ?_, enabled, ?_, secured.distinct_ssl, ?_, ?_⟩,
    fun view stream => packetsWritten_broadcast view _ stream enabled⟩
  · exact fun client member => ordered.2 client.clientID (List.mem_map_of_mem member)
  · rw [show config.trace = (table config).trace from rfl, wellformed.issued]
    refine List.nodup_range.map_on fun first inFirst second inSecond same => ?_
    have values := congrArg BitVec.toNat same
    rw [BitVec.toNat_ofNat, BitVec.toNat_ofNat] at values
    rw [Nat.mod_eq_of_lt ((List.mem_range.mp inFirst).trans few),
      Nat.mod_eq_of_lt ((List.mem_range.mp inSecond).trans few)] at values
    exact values
  · intro client member
    obtain ⟨handle, -, held⟩ := secured.ssl_of_mem member
    exact Option.isSome_iff_exists.mpr ⟨handle, held⟩
  · have distinct := wellformed.distinct
    rw [table, List.map_map] at distinct
    exact distinct
  · exact fun client member => wellformed.opened (connection client) (List.mem_map_of_mem member)

def reconnecting : List Input :=
  passWith (arrive 4) [idle] ++ passWith (arrive 5) [idle, idle] ++ passWith (ready [4]) [hangUp, idle] ++
    passWith (arrive 4) [idle, idle]

theorem session_table_reconnecting :
    ∃ config, TableInvariant config ∧ config.server.clientSockets.map connection =
        [{ socket := 5, ssl := some 1, sslEnabled := true, clientID := 1 },
          { socket := 4, ssl := some 2, sslEnabled := true, clientID := 2 }] ∧
      packetsWritten (callHandlerBroadcast (exampleView fun _ => none) config.server (text "hi")) =
        [(some 1, opcodeBytes .smsgBroadcast ++ text "hi"), (some 2, opcodeBytes .smsgBroadcast ++ text "hi")] := by
  obtain ⟨config, ran⟩ : ∃ config, run (step exampleHost) reconnecting (exampleBoot []).config = .ok config := ⟨_, rfl⟩
  have execution : ServerRun exampleHost KernelFresh (exampleBoot []) reconnecting config :=
    Execution.of_steered (by decide) ran
  obtain ⟨kept, broadcast⟩ := session_table_invariant exampleHost (exampleBoot []) reconnecting config execution
    (by cases ran; rfl) (by cases ran; decide)
  refine ⟨config, kept, ?_, ?_⟩
  · cases ran
    rfl
  · rw [broadcast]
    cases ran
    rfl

end Communo.SessionTable
