import Communo.Lib.Logs
import Communo.Terminals

/-! The client as a process: how it gets its connection, the two threads that use it,
and how `main` gives it back while the other thread may still be looking for a reply. -/

namespace Communo.ClientProcess
open Lib.ByteCodec Lib.CheckedMemory Lib.Runs Lib.Logs Protocol NumParser Session Handlers Client Cli

inductive Call where
  | socket (fd : Int)
  | connect (fd : Int)
  | poll (fd : Int)
  | shutdown (fd : Int)
  | close (fd : Int)
  | sslCtxNew (ctx : Option Handle)
  -- the protocol version, the verification, the trust store or the options
  | sslCtxSet (ctx : Option Handle)
  | sslCtxFree (ctx : Option Handle)
  | sslNew (ctx ssl : Option Handle)
  -- the descriptor or the host name
  | sslSet (ssl : Option Handle)
  | sslConnect (ssl : Option Handle)
  -- the result of the verification or the version
  | sslGet (ssl : Option Handle)
  | sslGetError (ssl : Option Handle)
  | sslRead (ssl : Option Handle)
  | sslWrite (ssl : Option Handle)
  | sslShutdown (ssl : Option Handle)
  | sslFree (ssl : Option Handle)
  deriving DecidableEq, Repr

/-- The members of `Client`. Its constructor sets the socket only. -/
structure Members where
  sock : Int
  ctx : Option Handle
  ssl : Option Handle
  deriving DecidableEq, Repr

structure Answers where
  socket : Int
  addressed : Bool
  connected : Bool
  context : Option Handle
  protocol : Bool
  trusted : Bool
  tls : Option Handle
  attached : Bool
  named : Bool
  handshaken : Bool
  verified : Bool

def initClientConnection (answers : Answers) (members : Members) : Bool × Members × List Call :=
  let members := { members with sock := answers.socket }
  -- the socket is an unsigned number, which is never below zero, so that nothing is thrown
  if answers.addressed then (answers.connected, members, [.socket members.sock, .connect members.sock])
  else (false, members, [.socket members.sock])

def createTlsConnection (answers : Answers) (ctx : Option Handle) : Option Handle × List Call :=
  let ssl := answers.tls
  if ssl = none then (none, [.sslNew ctx ssl])
  else if answers.attached = false then (none, [.sslNew ctx ssl, .sslSet ssl, .sslFree ssl])
  else if answers.named = false then (none, [.sslNew ctx ssl, .sslSet ssl, .sslSet ssl, .sslFree ssl])
  else if answers.handshaken = false then
    (none, [.sslNew ctx ssl, .sslSet ssl, .sslSet ssl, .sslConnect ssl, .sslGetError ssl, .sslFree ssl])
  else if answers.verified = false then
    (none, [.sslNew ctx ssl, .sslSet ssl, .sslSet ssl, .sslConnect ssl, .sslGet ssl, .sslFree ssl])
  else (ssl, [.sslNew ctx ssl, .sslSet ssl, .sslSet ssl, .sslConnect ssl, .sslGet ssl, .sslGet ssl])

/-- Where it fails the context is freed but not forgotten. -/
def initTLS (answers : Answers) (members : Members) : Bool × Members × List Call :=
  let ctx := answers.context
  let members := { members with ctx := ctx }
  if ctx = none then (false, members, [.sslCtxNew ctx])
  else if answers.protocol = false then (false, members, [.sslCtxNew ctx, .sslCtxSet ctx, .sslCtxFree ctx])
  else if answers.trusted = false then
    (false, members, [.sslCtxNew ctx, .sslCtxSet ctx, .sslCtxSet ctx, .sslCtxSet ctx, .sslCtxFree ctx])
  else
    let (ssl, calls) := createTlsConnection answers ctx
    let members := { members with ssl := ssl }
    let opening := [.sslCtxNew ctx, .sslCtxSet ctx, .sslCtxSet ctx, .sslCtxSet ctx, .sslCtxSet ctx] ++ calls
    if ssl = none then (false, members, opening ++ [.close members.sock, .sslCtxFree ctx])
    else (true, members, opening)

def Members.destroy (members : Members) : List Call :=
  [Call.shutdown members.sock, .close members.sock] ++ (if members.ctx.isSome then [.sslCtxFree members.ctx] else []) ++
    (if members.ssl.isSome then [.sslShutdown members.ssl, .sslFree members.ssl] else [])

/-- Where `main` is: in the loop of `CLI::run`, behind it, or in the destructor of the client. -/
inductive MainPc where
  | condition
  | waiting
  | writing (left : List Request)
  | leaving
  | destroying (left : List Call)
  | exited
  deriving DecidableEq, Repr

/-- Where the other thread is: at the condition of its loop or in `processReplyFromServerIfAny`. -/
inductive ReaderPc where
  | condition
  | polling
  | reading
  | failing
  | showing (received : List Byte)
  | ended
  deriving DecidableEq, Repr

structure Process where
  members : Members
  running : Bool
  main : MainPc
  reader : ReaderPc
  trace : List Call

/-- `main` up to its loop. A client that has no connection is destroyed at once, and has no other thread. -/
def start (answers : Answers) (uninitialised : Members) : Process :=
  let (connected, members, calls) := initClientConnection answers uninitialised
  if connected then
    let (secured, members, more) := initTLS answers members
    if secured then ⟨members, true, .condition, .condition, calls ++ more⟩
    else ⟨members, true, .destroying members.destroy, .ended, calls ++ more⟩
  else ⟨members, true, .destroying members.destroy, .ended, calls⟩

inductive PollResult where
  | failed
  | quiet
  | invalidSocket
  | socketError
  | otherEvents
  | readable
  deriving DecidableEq, Repr

inductive Event where
  | main (line : Option (List Byte)) (written : Bool)
  | reader (poll : PollResult) (received : Option (List Byte))
  | interrupt

def Process.call (process : Process) (calls : List Call) : Process := { process with trace := process.trace ++ calls }

section Steps
variable (host : Host) (sha256 : Sha256) (memory : List Byte → Mem) (commands : Commands)

/-- The error of a write is asked for before anything else can happen in this thread. -/
def mainStep (line : Option (List Byte)) (written : Bool) (process : Process) : Process :=
  match process.main with
  | .condition => { process with main := if process.running then .waiting else .leaving }
  | .waiting =>
      match line with
      | none => { process with main := .leaving }
      | some line =>
          match runLine commands line with
          | .skipped => { process with main := .condition }
          | .ended => { process with main := .leaving }
          | .ran outputs => { process with main := .writing (Terminals.requestsOf outputs) }
  | .writing [] => { process with main := .condition }
  | .writing (request :: left) =>
      let calls := if (request.packet host.order sha256).isNone then []
        else if written then [.sslWrite process.members.ssl]
        else [.sslWrite process.members.ssl, .sslGetError process.members.ssl]
      { process.call calls with main := .writing left }
  | .leaving => { process with running := false, main := .destroying process.members.destroy }
  | .destroying [] => { process with main := .exited }
  | .destroying (call :: left) => { process.call [call] with main := .destroying left }
  | .exited => process

/-- An error of the socket ends the process, as an exception does. -/
def readerStep (poll : PollResult) (received : Option (List Byte)) (process : Process) : Checked Exn Process :=
  match process.reader with
  | .condition => .ok { process with reader := if process.running then .polling else .ended }
  | .polling =>
      let process := process.call [.poll process.members.sock]
      match poll with
      | .readable => .ok { process with reader := .reading }
      | .socketError => .ok { process with main := .exited, reader := .ended }
      | _ => .ok { process with reader := .condition }
  | .reading =>
      let process := process.call [.sslRead process.members.ssl]
      match received with
      | some bytes => .ok { process with reader := .showing bytes }
      | none => .ok { process with reader := .failing }
  | .failing => .ok { process.call [.sslGetError process.members.ssl] with reader := .condition }
  | .showing bytes =>
      (processReplyFromServerIfAny host.order memory bytes).bind fun _ => .ok { process with reader := .condition }
  | .ended => .ok process

def step : Event → Process → Checked Exn Process
  | .main line written, process => .ok (mainStep host sha256 commands line written process)
  | .reader poll received, process =>
      if process.main = .exited then .ok process else readerStep host memory poll received process
  | .interrupt, process => .ok { process with running := false }

end Steps

/-- A descriptor that has been closed is not valid. -/
def Permitted : Event → Process → Prop
  | .reader poll _, process => .close process.members.sock ∈ process.trace → poll = .invalidSocket
  | _, _ => True

def contextAction (handle : Handle) : Call → Action
  | .sslCtxNew ctx => if ctx = some handle then .acquire else .other
  | .sslCtxSet ctx | .sslNew ctx _ => if ctx = some handle then .use else .other
  | .sslCtxFree ctx => if ctx = some handle then .release else .other
  | _ => .other

def connectionAction (handle : Handle) : Call → Action
  | .sslNew _ ssl => if ssl = some handle then .acquire else .other
  | .sslSet ssl | .sslConnect ssl | .sslGet ssl | .sslGetError ssl | .sslRead ssl | .sslWrite ssl | .sslShutdown ssl =>
      if ssl = some handle then .use else .other
  | .sslFree ssl => if ssl = some handle then .release else .other
  | _ => .other

/-- Nothing of the TLS library is touched before it is made or after it is freed. -/
def Respects (trace : List Call) : Prop :=
  ∀ handle, Obeys (contextAction handle) .released trace ∧ Obeys (connectionAction handle) .released trace

def Answers.connects (answers : Answers) : Bool := answers.addressed && answers.connected

def Answers.secures (answers : Answers) : Bool :=
  answers.context.isSome && answers.protocol && answers.trusted && answers.tls.isSome && answers.attached &&
    answers.named && answers.handshaken && answers.verified

/-- The thread goes on to use the connection before it looks at the condition of its loop again. -/
def ReaderPc.inside : ReaderPc → Bool
  | .polling | .reading | .failing => true
  | _ => false

/-- When `main` may destroy the client: a connection that was made is not being used; one that was not has left
nothing in the members. -/
def Clean (answers : Answers) (uninitialised : Members) (reader : ReaderPc) : Prop :=
  if answers.connects then
    if answers.secures then reader.inside = false else answers.context = none ∧ uninitialised.ssl = none
  else uninitialised.ctx = none ∧ uninitialised.ssl = none

section Setup
variable {answers : Answers} {uninitialised : Members}

def Answers.opening (answers : Answers) : List Call :=
  [.socket answers.socket, .connect answers.socket, .sslCtxNew answers.context, .sslCtxSet answers.context,
    .sslCtxSet answers.context, .sslCtxSet answers.context, .sslCtxSet answers.context,
    .sslNew answers.context answers.tls, .sslSet answers.tls, .sslSet answers.tls, .sslConnect answers.tls,
    .sslGet answers.tls, .sslGet answers.tls]

theorem start_secured (connects : answers.connects = true) (secures : answers.secures = true) :
    start answers uninitialised =
      ⟨⟨answers.socket, answers.context, answers.tls⟩, true, .condition, .condition, answers.opening⟩ := by
  simp only [Answers.connects, Answers.secures, Bool.and_eq_true, Option.isSome_iff_ne_none] at connects secures
  obtain ⟨⟨⟨⟨⟨⟨⟨context, protocol⟩, trusted⟩, tls⟩, attached⟩, named⟩, handshaken⟩, verified⟩ := secures
  simp [start, initClientConnection, initTLS, createTlsConnection, Answers.opening, connects, context, protocol, trusted,
    tls, attached, named, handshaken, verified]

theorem respects_destroy_iff {members : Members} {trace : List Call}
    (untouched : ∀ handle, Leads (contextAction handle) .released trace .released ∧
      Leads (connectionAction handle) .released trace .released) :
    Respects (trace ++ members.destroy) ↔ members.ctx = none ∧ members.ssl = none := by
  constructor
  · intro respects
    have noCtx : members.ctx = none := by
      by_contra some
      obtain ⟨ctx, is⟩ := Option.ne_none_iff_exists'.mp some
      have obeys := ((obeys_append _ _ _ _).mp (respects ctx).1).2
      rw [(untouched ctx).1.2] at obeys
      simp [Members.destroy, is, contextAction, Stage.permits, Stage.advance] at obeys
    refine ⟨noCtx, ?_⟩
    by_contra some
    obtain ⟨ssl, is⟩ := Option.ne_none_iff_exists'.mp some
    have obeys := ((obeys_append _ _ _ _).mp (respects ssl).2).2
    rw [(untouched ssl).2.2] at obeys
    simp [Members.destroy, noCtx, is, connectionAction, Stage.permits, Stage.advance] at obeys
  · rintro ⟨noCtx, noSsl⟩ handle
    have quiet : members.destroy = [.shutdown members.sock, .close members.sock] := by
      simp [Members.destroy, noCtx, noSsl]
    rw [quiet, obeys_append, obeys_append]
    exact ⟨⟨(untouched handle).1.1, (undisturbed (by simp [contextAction]) _).1⟩,
      ⟨(untouched handle).2.1, (undisturbed (by simp [connectionAction]) _).1⟩⟩

theorem freed_of_initTLS {ctx : Handle} (made : answers.context = some ctx) (failed : answers.secures = false)
    (members : Members) :
    (initTLS answers members).1 = false ∧ (initTLS answers members).2.1.ctx = some ctx ∧
      stageFrom (contextAction ctx) .released (initTLS answers members).2.2 = .released := by
  by_cases protocol : answers.protocol = true
  swap
  · simp [initTLS, made, protocol, contextAction, Stage.advance]
  by_cases trusted : answers.trusted = true
  swap
  · simp [initTLS, made, protocol, trusted, contextAction, Stage.advance]
  have broken : (createTlsConnection answers (some ctx)).1 = none ∧
      stageFrom (contextAction ctx) .live (createTlsConnection answers (some ctx)).2 = .live := by
    simp only [Answers.secures, made, protocol, trusted] at failed
    unfold createTlsConnection
    simp only
    split_ifs <;> simp_all [contextAction, Stage.advance]
  simp [initTLS, made, protocol, trusted, broken, contextAction, Stage.advance]

theorem start_unsecured (failed : ¬(answers.connects = true ∧ answers.secures = true)) :
    (start answers uninitialised).main = .destroying (start answers uninitialised).members.destroy ∧
      (start answers uninitialised).reader = .ended ∧
      (Respects ((start answers uninitialised).trace ++ (start answers uninitialised).members.destroy) ↔
        Clean answers uninitialised .ended) := by
  by_cases connects : answers.connects = true
  · have insecure : ¬answers.secures = true := fun secures => failed ⟨connects, secures⟩
    have connected : initClientConnection answers uninitialised =
        (true, { uninitialised with sock := answers.socket }, [.socket answers.socket, .connect answers.socket]) := by
      simp only [Answers.connects, Bool.and_eq_true] at connects
      simp [initClientConnection, connects]
    cases made : answers.context with
    | none =>
      have nothing : initTLS answers { uninitialised with sock := answers.socket } =
          (false, ⟨answers.socket, none, uninitialised.ssl⟩, [.sslCtxNew none]) := by
        simp [initTLS, made]
      simp only [start, connected, nothing, if_true, Bool.false_eq_true, if_false]
      refine ⟨trivial, trivial, ?_⟩
      rw [respects_destroy_iff fun handle =>
          ⟨undisturbed (by simp [contextAction]) _, undisturbed (by simp [connectionAction]) _⟩,
        Clean, if_pos connects, if_neg insecure, made]
    | some ctx =>
      obtain ⟨unsecured, kept, freed⟩ :=
        freed_of_initTLS made (Bool.eq_false_iff.mpr insecure) { uninitialised with sock := answers.socket }
      simp only [start, connected, unsecured, if_true]
      refine ⟨rfl, rfl, ?_⟩
      rw [Clean, if_pos connects, if_neg insecure, made]
      refine iff_of_false (fun respects => ?_) (by simp)
      have obeys := ((obeys_append _ _ _ _).mp (respects ctx).1).2
      simp [contextAction, freed, Members.destroy, kept, Stage.advance, Stage.permits] at obeys
  · have unconnected : (initClientConnection answers uninitialised).1 = false ∧
        (initClientConnection answers uninitialised).2.1 = { uninitialised with sock := answers.socket } ∧
        ∀ call ∈ (initClientConnection answers uninitialised).2.2,
          call = .socket answers.socket ∨ call = .connect answers.socket := by
      simp only [Answers.connects, Bool.and_eq_true, not_and, Bool.not_eq_true] at connects
      unfold initClientConnection
      split
      · next addressed => simp [connects addressed]
      · simp
    obtain ⟨failed, members, calls⟩ := unconnected
    simp only [start, failed, Bool.false_eq_true, if_false]
    refine ⟨trivial, trivial, ?_⟩
    rw [respects_destroy_iff fun handle =>
        ⟨undisturbed (fun call made => ?_) _, undisturbed (fun call made => ?_) _⟩,
      Clean, if_neg connects, members]
    · rcases calls call made with rfl | rfl <;> rfl
    · rcases calls call made with rfl | rfl <;> rfl

end Setup

section Destroying
variable {host : Host} {sha256 : Sha256} {memory : List Byte → Mem} {commands : Commands} {entry process : Process}

/-- What may happen in one step: `main` moves, the other thread moves, nothing does, or SIGINT arrives. -/
theorem step_cases {next : Process} {event : Event} (stepped : step host sha256 memory commands event process = .ok next) :
    (∃ line written, next = mainStep host sha256 commands line written process) ∨
      (∃ poll received, readerStep host memory poll received process = .ok next) ∨
      next = process ∨ next = { process with running := false } := by
  cases event with
  | main line written => exact Or.inl ⟨line, written, (Except.ok.inj stepped).symm⟩
  | reader poll received =>
    simp only [step] at stepped
    split at stepped
    · exact Or.inr (Or.inr (Or.inl (Except.ok.inj stepped).symm))
    · exact Or.inr (Or.inl ⟨poll, received, stepped⟩)
  | interrupt => exact Or.inr (Or.inr (Or.inr (Except.ok.inj stepped).symm))

structure Going (entry process : Process) : Prop where
  members : process.members = entry.members
  calls : ∃ done left, entry.members.destroy = done ++ left ∧ process.trace = entry.trace ++ done ∧
    (process.main = .destroying left ∨ process.main = .exited)
  outside : process.reader.inside = false
  stopped : process.running = false ∨ process.reader = .ended

theorem Going.mainStep (going : Going entry process) (line : Option (List Byte)) (written : Bool) :
    Going entry (mainStep host sha256 commands line written process) := by
  obtain ⟨done, left, split, trace, main⟩ := going.calls
  rcases main with destroying | exited
  · cases left with
    | nil =>
      simp only [ClientProcess.mainStep, destroying]
      exact ⟨going.members, ⟨done, [], split, trace, Or.inr rfl⟩, going.outside, going.stopped⟩
    | cons call left =>
      simp only [ClientProcess.mainStep, destroying]
      refine ⟨going.members, ⟨done ++ [call], left, ?_, ?_, Or.inl rfl⟩, going.outside, going.stopped⟩
      · rw [split, List.append_assoc]
        rfl
      · show process.trace ++ [call] = _
        rw [trace, List.append_assoc]
  · simp only [ClientProcess.mainStep, exited]
    exact going

theorem Going.readerStep {next : Process} (going : Going entry process) {poll : PollResult} {received : Option (List Byte)}
    (stepped : readerStep host memory poll received process = .ok next) : Going entry next := by
  have outside := going.outside
  cases at_ : process.reader with
  | condition =>
    have stopped : process.running = false := by simpa [at_] using going.stopped
    simp only [ClientProcess.readerStep, at_, stopped, Bool.false_eq_true, if_false] at stepped
    obtain rfl := Except.ok.inj stepped
    exact ⟨going.members, going.calls, rfl, Or.inr rfl⟩
  | polling | reading | failing => simp [at_, ReaderPc.inside] at outside
  | showing bytes =>
    have stopped : process.running = false := by simpa [at_] using going.stopped
    simp only [ClientProcess.readerStep, at_] at stepped
    obtain ⟨shown, -, returned⟩ := bind_eq_ok.mp stepped
    obtain rfl := Except.ok.inj returned
    exact ⟨going.members, going.calls, rfl, Or.inl stopped⟩
  | ended =>
    simp only [ClientProcess.readerStep, at_] at stepped
    obtain rfl := Except.ok.inj stepped
    exact going

theorem Going.step {next : Process} (going : Going entry process) {event : Event}
    (stepped : step host sha256 memory commands event process = .ok next) : Going entry next := by
  rcases step_cases stepped with ⟨line, written, rfl⟩ | ⟨poll, received, read⟩ | rfl | rfl
  · exact going.mainStep line written
  · exact going.readerStep read
  · exact going
  · exact ⟨going.members, going.calls, going.outside, Or.inl rfl⟩

theorem going_of_execution (going : Going entry process) {later : List Event} {final : Process}
    (ran : Execution (step host sha256 memory commands) Permitted process later final) : Going entry final :=
  ran.invariant going fun _ _ _ going _ stepped => going.step stepped

theorem destroys (left : List Call) (process : Process) (destroying : process.main = .destroying left) :
    ∃ later, Execution (step host sha256 memory commands) Permitted process later
      { process.call left with main := .destroying [] } := by
  induction left generalizing process with
  | nil =>
    refine ⟨[], ?_⟩
    have same : { process.call [] with main := .destroying [] } = process := by
      rw [← destroying, Process.call, List.append_nil]
    rw [same]
    exact .nil
  | cons call left ih =>
    obtain ⟨later, ran⟩ := ih { process.call [call] with main := .destroying left } rfl
    have stepped : step host sha256 memory commands (.main none true) process =
        .ok { process.call [call] with main := .destroying left } := by
      simp only [ClientProcess.step, ClientProcess.mainStep, destroying]
    have single : Execution (step host sha256 memory commands) Permitted process [.main none true] _ :=
      Execution.snoc .nil trivial stepped
    have same :
        { ({ process.call [call] with main := .destroying left } : Process).call left with main := .destroying [] } =
          { process.call (call :: left) with main := .destroying [] } := by
      simp [Process.call]
    exact ⟨_, same ▸ single.append ran⟩

/-- When the other thread stays away it depends on the calls of the destructor alone. -/
theorem respects_iff_of_outside (entering : process.main = .destroying process.members.destroy)
    (outside : process.reader.inside = false) (stopped : process.running = false ∨ process.reader = .ended) :
    (∀ later final, Execution (step host sha256 memory commands) Permitted process later final → Respects final.trace) ↔
      Respects (process.trace ++ process.members.destroy) := by
  have going : Going process process :=
    ⟨rfl, ⟨[], _, rfl, (List.append_nil _).symm, Or.inl entering⟩, outside, stopped⟩
  constructor
  · intro always
    obtain ⟨later, ran⟩ := @destroys host sha256 memory commands _ process entering
    exact always _ _ ran
  · intro respects later final ran handle
    obtain ⟨done, left, split, trace, -⟩ := (going_of_execution going ran).calls
    rw [split, ← List.append_assoc, ← trace] at respects
    exact ⟨((obeys_append _ _ _ _).mp (respects handle).1).1, ((obeys_append _ _ _ _).mp (respects handle).2).1⟩

end Destroying

section Serving
variable {host : Host} {sha256 : Sha256} {memory : List Byte → Mem} {commands : Commands} {answers : Answers}
  {process : Process}

def Answers.members (answers : Answers) : Members := ⟨answers.socket, answers.context, answers.tls⟩

structure Served (answers : Answers) (process : Process) : Prop where
  context : ∀ handle, Leads (contextAction handle) .released process.trace
    (if answers.context = some handle then .live else .released)
  connection : ∀ handle, Leads (connectionAction handle) .released process.trace
    (if answers.tls = some handle then .live else .released)
  unclosed : .close answers.socket ∉ process.trace

structure Serving (answers : Answers) (process : Process) : Prop where
  members : process.members = answers.members
  served : match process.main with
    | .destroying left =>
        left.length < answers.members.destroy.length ∨
          left = answers.members.destroy ∧ process.running = false ∧ Served answers process
    | .exited => True
    | _ => Served answers process

def Talks (answers : Answers) (call : Call) : Prop :=
  call = .poll answers.socket ∨ call = .sslRead answers.tls ∨ call = .sslWrite answers.tls ∨
    call = .sslGetError answers.tls

theorem Served.call (served : Served answers process) {calls : List Call} (talks : ∀ call ∈ calls, Talks answers call) :
    Served answers (process.call calls) := by
  refine ⟨fun handle => (served.context handle).append (undisturbed (fun call made => ?_) _),
    fun handle => (served.connection handle).append ?_, fun closed => ?_⟩
  · rcases talks call made with rfl | rfl | rfl | rfl <;> rfl
  · by_cases own : answers.tls = some handle
    · rw [if_pos own]
      refine used fun call made => ?_
      rcases talks call made with rfl | rfl | rfl | rfl <;> simp [connectionAction, own]
    · rw [if_neg own]
      refine undisturbed (fun call made => ?_) _
      rcases talks call made with rfl | rfl | rfl | rfl <;> simp [connectionAction, own]
  · rcases List.mem_append.mp closed with early | late
    · exact served.unclosed early
    · rcases talks _ late with same | same | same | same <;> cases same

theorem Served.same (served : Served answers process) {later : Process} (trace : later.trace = process.trace) :
    Served answers later := by
  obtain ⟨context, connection, unclosed⟩ := served
  rw [← trace] at context connection unclosed
  exact ⟨context, connection, unclosed⟩

theorem serving_start (uninitialised : Members) (connects : answers.connects = true) (secures : answers.secures = true) :
    Serving answers (start answers uninitialised) := by
  rw [start_secured connects secures]
  refine ⟨rfl, fun handle => ?_, fun handle => ?_, by simp [Answers.opening]⟩
  · by_cases own : answers.context = some handle <;>
      simp [Leads, Answers.opening, contextAction, own, Stage.advance, Stage.permits]
  · by_cases own : answers.tls = some handle <;>
      simp [Leads, Answers.opening, connectionAction, own, Stage.advance, Stage.permits]

theorem Serving.mainStep (serving : Serving answers process) (line : Option (List Byte)) (written : Bool) :
    Serving answers (mainStep host sha256 commands line written process) := by
  obtain ⟨members, served⟩ := serving
  unfold ClientProcess.mainStep
  split
  · next at_ =>
    rw [at_] at served
    refine ⟨members, ?_⟩
    show match (if process.running then MainPc.waiting else .leaving) with
      | .destroying left => _
      | .exited => True
      | _ => _
    cases process.running
    · exact served.same rfl
    · exact served.same rfl
  · next at_ =>
    rw [at_] at served
    split
    · exact ⟨members, served.same rfl⟩
    · split
      · exact ⟨members, served.same rfl⟩
      · exact ⟨members, served.same rfl⟩
      · exact ⟨members, served.same rfl⟩
  · next at_ =>
    rw [at_] at served
    exact ⟨members, served.same rfl⟩
  · next request left at_ =>
    rw [at_] at served
    refine ⟨members, Served.same (served.call fun call made => ?_) rfl⟩
    rw [members] at made
    split at made
    · cases made
    · split at made <;> simp [Answers.members] at made <;> simp [Talks, made]
  · next at_ =>
    rw [at_] at served
    exact ⟨members, Or.inr ⟨congrArg Members.destroy members, rfl, served.same rfl⟩⟩
  · exact ⟨members, trivial⟩
  · next call left at_ =>
    rw [at_] at served
    refine ⟨members, Or.inl ?_⟩
    rcases served with shorter | ⟨whole, -⟩
    · exact (Nat.lt_succ_self _).trans shorter
    · rw [← whole]
      exact Nat.lt_succ_self _
  · exact ⟨members, served⟩

theorem Serving.talked (serving : Serving answers process) {calls : List Call} (talks : ∀ call ∈ calls, Talks answers call)
    {next : Process} (members : next.members = process.members) (running : next.running = process.running)
    (main : next.main = process.main) (trace : next.trace = process.trace ++ calls) : Serving answers next := by
  obtain ⟨own, served⟩ := serving
  refine ⟨members.trans own, ?_⟩
  have talked (served : Served answers process) : Served answers next := Served.same (served.call talks) trace
  rw [main, running]
  split at served
  · exact served.imp id fun entering => ⟨entering.1, entering.2.1, talked entering.2.2⟩
  · trivial
  · exact talked served

theorem Serving.readerStep {next : Process} (serving : Serving answers process) {poll : PollResult}
    {received : Option (List Byte)} (stepped : readerStep host memory poll received process = .ok next) :
    Serving answers next := by
  have members := serving.members
  have polls : ∀ call ∈ [Call.poll process.members.sock], Talks answers call := by
    simp [Talks, members, Answers.members]
  have reads : ∀ call ∈ [Call.sslRead process.members.ssl], Talks answers call := by
    simp [Talks, members, Answers.members]
  have fails : ∀ call ∈ [Call.sslGetError process.members.ssl], Talks answers call := by
    simp [Talks, members, Answers.members]
  have quiet : ∀ call ∈ ([] : List Call), Talks answers call := by simp
  unfold ClientProcess.readerStep at stepped
  split at stepped
  · obtain rfl := Except.ok.inj stepped
    exact serving.talked quiet rfl rfl rfl (List.append_nil _).symm
  · simp only at stepped
    split at stepped
    · obtain rfl := Except.ok.inj stepped
      exact serving.talked polls rfl rfl rfl rfl
    · obtain rfl := Except.ok.inj stepped
      exact ⟨members, trivial⟩
    · obtain rfl := Except.ok.inj stepped
      exact serving.talked polls rfl rfl rfl rfl
  · simp only at stepped
    split at stepped <;> obtain rfl := Except.ok.inj stepped <;> exact serving.talked reads rfl rfl rfl rfl
  · obtain rfl := Except.ok.inj stepped
    exact serving.talked fails rfl rfl rfl rfl
  · obtain ⟨shown, -, returned⟩ := bind_eq_ok.mp stepped
    obtain rfl := Except.ok.inj returned
    exact serving.talked quiet rfl rfl rfl (List.append_nil _).symm
  · obtain rfl := Except.ok.inj stepped
    exact serving

theorem Serving.step {next : Process} (serving : Serving answers process) {event : Event}
    (stepped : step host sha256 memory commands event process = .ok next) : Serving answers next := by
  rcases step_cases stepped with ⟨line, written, rfl⟩ | ⟨poll, received, read⟩ | rfl | rfl
  · exact serving.mainStep line written
  · exact serving.readerStep read
  · exact serving
  · obtain ⟨members, served⟩ := serving
    refine ⟨members, ?_⟩
    simp only
    split at served
    · exact served.imp id fun entering => ⟨entering.1, trivial, entering.2.2.same rfl⟩
    · trivial
    · exact served.same rfl

end Serving

section Entering
variable {host : Host} {sha256 : Sha256} {memory : List Byte → Mem} {commands : Commands} {answers : Answers}
  {uninitialised : Members} {process : Process}

theorem exists_of_secures (secures : answers.secures = true) :
    ∃ ctx ssl, answers.context = some ctx ∧ answers.tls = some ssl := by
  simp only [Answers.secures, Bool.and_eq_true, Option.isSome_iff_exists] at secures
  obtain ⟨⟨⟨⟨⟨⟨⟨⟨ctx, context⟩, -⟩, -⟩, ssl, tls⟩, -⟩, -⟩, -⟩, -⟩ := secures
  exact ⟨ctx, ssl, context, tls⟩

theorem destroyed_of_served (served : Served answers process) (secures : answers.secures = true) :
    Respects (process.trace ++ answers.members.destroy) ∧
      ∃ ssl, answers.tls = some ssl ∧
        stageFrom (connectionAction ssl) .released (process.trace ++ answers.members.destroy) = .released := by
  obtain ⟨ctx, ssl, context, tls⟩ := exists_of_secures secures
  have calls : answers.members.destroy = [.shutdown answers.socket, .close answers.socket, .sslCtxFree (some ctx),
      .sslShutdown (some ssl), .sslFree (some ssl)] := by
    simp [Members.destroy, Answers.members, context, tls]
  refine ⟨fun handle => ?_, ssl, tls, ?_⟩
  · rw [obeys_append, obeys_append, (served.context handle).2, (served.connection handle).2, calls, context, tls]
    refine ⟨⟨(served.context handle).1, ?_⟩, (served.connection handle).1, ?_⟩
    · by_cases own : ctx = handle <;> simp [contextAction, own, Stage.permits, Stage.advance]
    · by_cases own : ssl = handle <;> simp [connectionAction, own, Stage.permits, Stage.advance]
  · rw [stageFrom_append, (served.connection ssl).2, calls, if_pos tls]
    simp [connectionAction, Stage.advance]

/-- A thread that was at a read when the destructor began can come back to a connection that is gone. -/
theorem touches_of_reading (served : Served answers process) (secures : answers.secures = true)
    (members : process.members = answers.members) (entering : process.main = .destroying answers.members.destroy)
    (inside : process.reader = .reading ∨ process.reader = .failing) :
    ∃ later final, Execution (step host sha256 memory commands) Permitted process later final ∧ ¬Respects final.trace := by
  obtain ⟨-, ssl, tls, gone⟩ := destroyed_of_served served secures
  obtain ⟨later, ran⟩ := @destroys host sha256 memory commands _ process entering
  have last : process.members.ssl = some ssl := by
    rw [members, ← tls]
    rfl
  have back : ∃ call final, step host sha256 memory commands (.reader .invalidSocket none)
      { process.call answers.members.destroy with main := .destroying [] } = .ok final ∧
        final.trace = process.trace ++ answers.members.destroy ++ [call] ∧ connectionAction ssl call = .use := by
    rcases inside with reading | failing
    · refine ⟨.sslRead (some ssl), _, by
        simp [ClientProcess.step, ClientProcess.readerStep, Process.call, reading]
        rfl, ?_, ?_⟩
      · simp [last]
      · simp [connectionAction]
    · refine ⟨.sslGetError (some ssl), _, by
        simp [ClientProcess.step, ClientProcess.readerStep, Process.call, failing]
        rfl, ?_, ?_⟩
      · simp [last]
      · simp [connectionAction]
  obtain ⟨call, final, stepped, trace, uses⟩ := back
  have permitted : Permitted (.reader .invalidSocket none)
      { process.call answers.members.destroy with main := .destroying [] } := fun _ => rfl
  refine ⟨_, final, ran.snoc permitted stepped, fun respects => ?_⟩
  have obeys := (respects ssl).2
  rw [trace, obeys_append, gone] at obeys
  simp [uses, Stage.permits] at obeys

theorem touches_of_inside (served : Served answers process) (secures : answers.secures = true)
    (members : process.members = answers.members) (entering : process.main = .destroying answers.members.destroy)
    (inside : process.reader.inside = true) :
    ∃ later final, Execution (step host sha256 memory commands) Permitted process later final ∧ ¬Respects final.trace := by
  cases at_ : process.reader with
  | polling =>
    have stepped : step host sha256 memory commands (.reader .readable none) process =
        .ok { process.call [.poll process.members.sock] with reader := .reading } := by
      simp [ClientProcess.step, ClientProcess.readerStep, at_, entering]
    have permitted : Permitted (.reader .readable none) process := by
      intro closed
      rw [members] at closed
      exact absurd closed served.unclosed
    have single : Execution (step host sha256 memory commands) Permitted process [.reader .readable none] _ :=
      Execution.snoc .nil permitted stepped
    have polls : ∀ call ∈ [Call.poll process.members.sock], Talks answers call := by
      simp [Talks, members, Answers.members]
    have talked : Served answers { process.call [.poll process.members.sock] with reader := .reading } :=
      Served.same (served.call polls) rfl
    obtain ⟨later, final, ran, touched⟩ := touches_of_reading talked secures members entering (Or.inl rfl)
    exact ⟨_, final, single.append ran, touched⟩
  | reading => exact touches_of_reading served secures members entering (Or.inl at_)
  | failing => exact touches_of_reading served secures members entering (Or.inr at_)
  | _ => simp [at_, ReaderPc.inside] at inside

end Entering

/-- When `main` comes to destroy the client, it comes through without touching anything of the TLS library
that is not there, however the threads go on, exactly when no thread is in the middle of a look for a reply,
or when there is no connection and nothing was left of it. -/
theorem destroyed_cleanly_iff (host : Host) (sha256 : Sha256) (memory : List Byte → Mem) (commands : Commands)
    (answers : Answers) (uninitialised : Members) (events : List Event) (process : Process)
    (ran : Execution (step host sha256 memory commands) Permitted (start answers uninitialised) events process)
    (entering : process.main = .destroying process.members.destroy) :
    (∀ later final, Execution (step host sha256 memory commands) Permitted process later final → Respects final.trace) ↔
      Clean answers uninitialised process.reader := by
  by_cases made : answers.connects = true ∧ answers.secures = true
  · have serving : Serving answers process :=
      ran.invariant (serving_start uninitialised made.1 made.2) fun _ _ _ serving _ stepped => serving.step stepped
    obtain ⟨members, served⟩ := serving
    rw [members] at entering
    rw [entering] at served
    obtain ⟨-, stopped, served⟩ := served.resolve_left (lt_irrefl _)
    rw [Clean, if_pos made.1, if_pos made.2]
    constructor
    · intro always
      by_contra inside
      obtain ⟨later, final, goesOn, touched⟩ := @touches_of_inside host sha256 memory commands _ _ served made.2 members
        entering (Bool.not_eq_false _ ▸ inside)
      exact touched (always later final goesOn)
    · intro outside
      rw [← members] at entering
      refine (respects_iff_of_outside entering outside (Or.inl stopped)).mpr ?_
      rw [members]
      exact (destroyed_of_served served made.2).1
  · obtain ⟨main, ended, clean⟩ := @start_unsecured answers uninitialised made
    have begun : Going (start answers uninitialised) (start answers uninitialised) :=
      ⟨rfl, ⟨[], _, rfl, (List.append_nil _).symm, Or.inl main⟩, by rw [ended]; rfl, Or.inr ended⟩
    have going := going_of_execution begun ran
    obtain ⟨done, left, split, trace, position⟩ := going.calls
    have whole : left = (start answers uninitialised).members.destroy := by
      rw [← going.members]
      rcases position with destroying | exited
      · exact MainPc.destroying.inj (destroying.symm.trans entering)
      · cases exited.symm.trans entering
    rw [whole, List.self_eq_append_left] at split
    rw [split, List.append_nil] at trace
    rw [respects_iff_of_outside entering going.outside going.stopped, trace, going.members, clean]
    unfold Clean
    split_ifs with connects secures
    · exact absurd ⟨connects, secures⟩ made
    · exact Iff.rfl
    · exact Iff.rfl

def welcome : Answers where
  socket := 3
  addressed := true
  connected := true
  context := some 0
  protocol := true
  trusted := true
  tls := some 0
  attached := true
  named := true
  handshaken := true
  verified := true

/-- The input ends at once, and the client is destroyed: safely before the other thread has looked, and
not after it has decided to. -/
theorem destroyed_cleanly_at_end_of_input :
    (∃ process : Process, process.reader = .condition ∧ ∀ later final,
      Execution (step exampleHost Framing.exampleSha256 holding []) Permitted process later final → Respects final.trace) ∧
    ∃ process : Process, process.reader = .polling ∧ ¬∀ later final,
      Execution (step exampleHost Framing.exampleSha256 holding []) Permitted process later final → Respects final.trace := by
  have goes (process : Process) : Permitted (.main none true) process := trivial
  have ends : Execution (step exampleHost Framing.exampleSha256 holding []) Permitted (start welcome ⟨0, some 7, some 9⟩)
      [.main none true, .main none true, .main none true] _ :=
    Execution.snoc (Execution.snoc (Execution.snoc .nil (goes _) rfl) (goes _) rfl) (goes _) rfl
  have idle : Permitted (.reader .quiet none) (start welcome ⟨0, some 7, some 9⟩) :=
    fun closed => absurd closed (by decide)
  have looks : Execution (step exampleHost Framing.exampleSha256 holding []) Permitted (start welcome ⟨0, some 7, some 9⟩)
      [.reader .quiet none] _ := Execution.snoc .nil idle rfl
  have leaves : Execution (step exampleHost Framing.exampleSha256 holding []) Permitted (start welcome ⟨0, some 7, some 9⟩)
      [.reader .quiet none, .main none true, .main none true, .main none true] _ :=
    Execution.snoc (Execution.snoc (Execution.snoc looks (goes _) rfl) (goes _) rfl) (goes _) rfl
  have safe := destroyed_cleanly_iff exampleHost Framing.exampleSha256 holding [] welcome _ _ _ ends rfl
  have caught := destroyed_cleanly_iff exampleHost Framing.exampleSha256 holding [] welcome _ _ _ leaves rfl
  have inside : ¬ReaderPc.inside .polling = false := by decide
  exact ⟨⟨_, rfl, safe.mpr rfl⟩, ⟨_, rfl, fun always => inside (caught.mp always)⟩⟩

end Communo.ClientProcess
