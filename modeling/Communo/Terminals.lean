import Communo.Addressing
import Communo.NetworkLaws

/-! From keyboards to screens. Each client reads lines and runs them as commands;
its other thread looks for replies. All of them share the network and the server. -/

namespace Communo.Terminals
open Lib.ByteCodec Lib.CheckedMemory Lib.Records Lib.Runs Lib.Transducers Lib.Links Protocol NumParser Literals Chat
  Session Handlers MainLoop Client Cli Framing ReplyDecoding PrivateMessages ChatService Conversations Network NetworkLaws

inductive Poll where
  | failed
  | quiet
  | invalidSocket
  | socketError
  | otherEvents
  | tryAgain
  | disconnected
  | readFailed
  | readable
  deriving DecidableEq, Repr

/-- The network with its users: the lines each client has read, what its commands have
printed, its `g_Running`, and whether it waits for a line. -/
structure Desk where
  world : World
  typed : Handle → List (List Byte)
  printed : Handle → List (List Byte)
  running : Handle → Bool
  prompted : Handle → Bool

def Desk.opening (boot : Boot) : Desk where
  world := .opening boot
  typed _ := []
  printed _ := []
  running _ := true
  prompted _ := true

inductive Action where
  | serve (input : Input)
  | type (client : Handle) (line : List Byte)
  | endOfInput (client : Handle)
  | interrupt (client : Handle)
  | look (client : Handle) (poll : Poll)

def Desk.print (desk : Desk) (client : Handle) (line : List Byte) : Desk :=
  { desk with printed := Function.update desk.printed client (desk.printed client ++ [line]) }

def Desk.read (desk : Desk) (client : Handle) (line : List Byte) : Desk :=
  { desk with typed := Function.update desk.typed client (desk.typed client ++ [line]) }

theorem typed_read_self (desk : Desk) (client : Handle) (line : List Byte) :
    (desk.read client line).typed client = desk.typed client ++ [line] := Function.update_self _ _ _

theorem typed_read_other (desk : Desk) {client other : Handle} (apart : other ≠ client) (line : List Byte) :
    (desk.read client line).typed other = desk.typed other := Function.update_of_ne apart _ _

/-- `handleSignal`; a line that is waited for is still read. -/
def Desk.interrupt (desk : Desk) (client : Handle) : Desk :=
  { desk with running := Function.update desk.running client false }

def Desk.leave (desk : Desk) (client : Handle) : Desk :=
  { desk with
    running := Function.update desk.running client false
    prompted := Function.update desk.prompted client false }

/-- The condition of the loop in `CLI::run`. -/
def Desk.prompt (desk : Desk) (client : Handle) : Desk :=
  { desk with prompted := Function.update desk.prompted client (desk.running client) }

section Acting
variable (host : Host) (sha256 : Sha256) (memory : List Byte → Mem)

def perform (client : Handle) : List Output → Desk → Checked Exn Desk
  | [], desk => .ok desk
  | .print line :: rest, desk => perform client rest (desk.print client line)
  | .send request :: rest, desk =>
      (Network.act host sha256 memory (.ask client request) desk.world).bind fun world =>
        perform client rest { desk with world := world }

/-- One line of `CLI::run`. -/
def enterLine (commands : Commands) (client : Handle) (line : List Byte) (desk : Desk) : Checked Exn Desk :=
  match runLine commands line with
  | .skipped => .ok ((desk.read client line).prompt client)
  | .ended => .ok ((desk.read client line).leave client)
  | .ran outputs =>
      (perform host sha256 memory client outputs (desk.read client line)).bind fun desk => .ok (desk.prompt client)

def lookForReply (client : Handle) (poll : Poll) (desk : Desk) : Checked Exn Desk :=
  match poll with
  | .readable => (Network.act host sha256 memory (.look client) desk.world).bind fun world => .ok { desk with world := world }
  | .disconnected => .ok (desk.print client (text "Server disconnected\n"))
  -- the process exits
  | .socketError => .ok (desk.leave client)
  | _ => .ok desk

def act (commands : Commands) : Action → Desk → Checked Exn Desk
  | .serve input, desk =>
      (Network.act host sha256 memory (.serve input) desk.world).bind fun world => .ok { desk with world := world }
  | .type client line, desk =>
      if desk.prompted client then enterLine host sha256 memory commands client line desk else .ok desk
  | .endOfInput client, desk => if desk.prompted client then .ok (desk.leave client) else .ok desk
  | .interrupt client, desk => .ok (desk.interrupt client)
  | .look client poll, desk =>
      if desk.running client then lookForReply host sha256 memory client poll desk else .ok desk

end Acting

/-- The longest line whose request always fits the server's buffer. -/
def lineLimit : Nat := 4085

/-- The network does what is permitted to it, and nobody types a line that is too long. -/
def Permitted (host : Host) : Action → Desk → Prop
  | .serve input, desk => Network.Permitted host (.serve input) desk.world
  | .type _ line, _ => line.length ≤ lineLimit
  | _, _ => True

abbrev DeskRun (host : Host) (sha256 : Sha256) (memory : List Byte → Mem) (commands : Commands) (boot : Boot) :
    List Action → Desk → Prop :=
  Execution (act host sha256 memory commands) (Permitted host) (.opening boot)

def requestsOf (outputs : List Output) : List Request :=
  outputs.filterMap fun
    | .send request => some request
    | .print _ => none

def requestsOfLine (commands : Commands) (line : List Byte) : List Request :=
  match runLine commands line with
  | .ran outputs => requestsOf outputs
  | _ => []

section Lines

theorem length_spaced_cons (arg : List Byte) (args : List (List Byte)) :
    (spaced (arg :: args)).length = arg.length + 1 + (spaced args).length := by
  rw [spaced, List.flatMap_cons, List.length_append, List.length_append]
  rfl

theorem length_spaced_append (first second : List (List Byte)) :
    (spaced (first ++ second)).length = (spaced first).length + (spaced second).length := by
  rw [spaced, List.flatMap_append, List.length_append]
  rfl

theorem length_spaced_drop (args : List (List Byte)) (count : Nat) :
    (spaced (args.drop count)).length ≤ (spaced args).length := by
  conv_rhs => rw [← List.take_append_drop count args, length_spaced_append]
  exact Nat.le_add_left _ _

theorem length_spaced_filter (args : List (List Byte)) (keep : List Byte → Bool) :
    (spaced (args.filter keep)).length ≤ (spaced args).length := by
  induction args with
  | nil => exact le_rfl
  | cons arg args ih =>
    rw [List.filter_cons, length_spaced_cons]
    split
    · rw [length_spaced_cons]
      omega
    · omega

theorem length_spaced_splitOnP (line : List Byte) : (spaced (line.splitOnP isSpace)).length = line.length + 1 := by
  induction line with
  | nil => rfl
  | cons character line ih =>
    rw [List.splitOnP_cons_eq_if_modifyHead, List.length_cons]
    split
    · rw [length_spaced_cons, ih]
      exact Nat.add_comm 1 _
    · cases pieces : line.splitOnP isSpace with
      | nil => exact absurd pieces (List.splitOnP_ne_nil isSpace line)
      | cons piece rest =>
        rw [pieces, length_spaced_cons] at ih
        rw [List.modifyHead_cons, length_spaced_cons, List.length_cons]
        omega

theorem length_spaced_tokenize (line : List Byte) : (spaced (tokenize line)).length ≤ line.length + 1 :=
  (length_spaced_filter _ _).trans (length_spaced_splitOnP line).le

theorem matchCommand_drop (commands : Commands) (args : List (List Byte)) :
    ∃ count, (matchCommand commands args).2 = args.drop count := by
  refine List.foldlRecOn (motive := fun found : List Byte × List (List Byte) => ∃ count, found.2 = args.drop count) _ _
    ⟨args.length, List.drop_length.symm⟩ ?_
  rintro found ⟨count, same⟩ i -
  split
  · exact ⟨i + 1, rfl⟩
  · exact ⟨count, same⟩

/-- The handler sends no more text than it is given. -/
def Modest (handler : Handler) : Prop :=
  ∀ args outputs, handler args = .ok outputs → (spaced args).length ≤ lineLimit + 1 →
    ∀ request, .send request ∈ outputs → Fits request

theorem modest_text {made : List Byte → Request} (fits : ∀ msg : List Byte, msg.length ≤ 4094 → Fits (made msg)) :
    Modest fun args => .ok [.send (made (spaced args))] := by
  intro args outputs ran short request sends
  obtain rfl := Except.ok.inj ran
  obtain rfl := Output.send.inj (List.mem_singleton.mp sends)
  exact fits _ (short.trans (by decide))

theorem modest_request {made : Request} (fits : Fits made) : Modest (Cli.request made) := by
  intro args outputs ran short request sends
  obtain rfl := Except.ok.inj ran
  obtain rfl := Output.send.inj (List.mem_singleton.mp sends)
  exact fits

theorem modest_usage (lines : List String) : Modest (usage lines) := by
  intro args outputs ran short request sends
  obtain rfl := Except.ok.inj ran
  cases List.mem_singleton.mp sends

theorem modest_add (conversions : Conversions) : Modest (add conversions) := by
  intro args outputs ran short request sends
  unfold add at ran
  split at ran
  · cases ran
  · split at ran
    · obtain rfl := Except.ok.inj ran
      obtain rfl := Output.send.inj (List.mem_singleton.mp sends)
      trivial
    · obtain rfl := Except.ok.inj ran
      cases List.mem_singleton.mp sends

theorem printed_of_parsedOrDefault (conversions : Conversions) (arg : List Byte) (request : Request) :
    .send request ∉ (parsedOrDefault conversions arg).2 := by
  unfold parsedOrDefault
  split <;> simp

theorem fits_of_sent {printed : List Output} {request made : Request} (unprinted : .send request ∉ printed)
    (sends : .send request ∈ printed ++ [.send made]) (fits : Fits made) : Fits request := by
  rcases List.mem_append.mp sends with before | sent
  · exact absurd before unprinted
  · obtain rfl := Output.send.inj (List.mem_singleton.mp sent)
    exact fits

theorem sends_nothing {printed : List Output} {request : Request} (unprinted : .send request ∉ printed) (line : List Byte) :
    .send request ∉ printed ++ [.print line] := by
  simp [unprinted]

theorem modest_clientSendMsg (conversions : Conversions) : Modest (clientSendMsg conversions) := by
  intro args outputs ran short request sends
  unfold clientSendMsg at ran
  split at ran
  · next arg word words =>
    rw [length_spaced_cons] at short
    simp only at ran
    have unprinted := printed_of_parsedOrDefault conversions arg request
    split at ran
    · obtain rfl := Except.ok.inj ran
      have room : (spaced (word :: words)).length ≤ 4086 := (Nat.le_add_left _ _).trans short
      exact fits_of_sent unprinted sends room
    · obtain rfl := Except.ok.inj ran
      exact absurd sends (sends_nothing unprinted _)
  · cases ran

theorem modest_chatJoin (conversions : Conversions) : Modest (chatJoin conversions) := by
  intro args outputs ran short request sends
  unfold chatJoin at ran
  split at ran
  · next arg =>
    obtain rfl := Except.ok.inj ran
    have unprinted := printed_of_parsedOrDefault conversions arg request
    simp only at sends
    split at sends
    · exact fits_of_sent unprinted sends trivial
    · exact absurd sends (sends_nothing unprinted _)
  · next arg pwd =>
    obtain rfl := Except.ok.inj ran
    have unprinted := printed_of_parsedOrDefault conversions arg request
    simp only at sends
    split at sends
    · exact fits_of_sent unprinted sends trivial
    · exact absurd sends (sends_nothing unprinted _)
  · cases ran

theorem modest_of_find (conversions : Conversions) {name : List Byte} {handler : Handler}
    (found : find (commands conversions) name = some handler) : Modest handler := by
  have all : ∀ entry ∈ commands conversions, Modest entry.2 := by
    simp only [commands, addCommand, List.forall_mem_cons]
    refine ⟨modest_usage _, modest_text fun _ short => short, modest_chatJoin _, modest_request trivial,
      modest_request trivial, modest_usage _, modest_clientSendMsg _, modest_usage _, modest_request trivial, modest_usage _,
      modest_request trivial, modest_request trivial, modest_usage _, modest_request trivial, modest_request trivial,
      modest_text fun _ short => short, modest_add _, modest_text fun _ short => short, ?_⟩
    simp
  obtain ⟨entry, member, rfl⟩ := Option.map_eq_some_iff.mp found
  exact all entry (List.mem_of_find?_eq_some member)

theorem runLine_of_words (commands : Commands) {line first : List Byte} {rest : List (List Byte)}
    (words : tokenize line = first :: rest) (runs : ¬(first = text "exit" ∨ first = text "quit")) :
    runLine commands line = .ran (runCommand commands first (matchCommand commands (first :: rest)).1
      (matchCommand commands (first :: rest)).2) := by
  simp only [runLine, words, if_neg runs]

theorem called_of_sends {commands : Commands} {first command : List Byte} {args : List (List Byte)} {request : Request}
    (sends : .send request ∈ runCommand commands first command args) :
    ∃ handler outputs, find commands command = some handler ∧ handler args = .ok outputs ∧ .send request ∈ outputs := by
  unfold runCommand at sends
  split at sends
  · cases List.mem_singleton.mp sends
  · split at sends
    · next handler found =>
      split at sends
      · next outputs ran => exact ⟨handler, outputs, found, ran, sends⟩
      · cases List.mem_singleton.mp sends
    · cases sends

theorem fits_of_line (conversions : Conversions) {line : List Byte} (short : line.length ≤ lineLimit) :
    ∀ request ∈ requestsOfLine (commands conversions) line, Fits request := by
  intro request asked
  have size := (length_spaced_tokenize line).trans (Nat.succ_le_succ short)
  cases words : tokenize line with
  | nil => simp [requestsOfLine, runLine, words] at asked
  | cons first rest =>
    by_cases ends : first = text "exit" ∨ first = text "quit"
    · simp [requestsOfLine, runLine, words, ends] at asked
    · rw [requestsOfLine, runLine_of_words _ words ends] at asked
      obtain ⟨output, made, is⟩ := List.mem_filterMap.mp asked
      cases output with
      | print => cases is
      | send sent =>
        obtain rfl := Option.some.inj is
        obtain ⟨handler, outputs, found, ran, sends⟩ := called_of_sends made
        obtain ⟨count, dropped⟩ := matchCommand_drop (commands conversions) (first :: rest)
        refine modest_of_find conversions found _ outputs ran ?_ _ sends
        rw [dropped, ← words]
        exact (length_spaced_drop _ count).trans size

end Lines

section Runs
variable {host : Host} {sha256 : Sha256} {memory : List Byte → Mem} {conversions : Conversions} {boot : Boot}

theorem asks_of_ask (host : Host) (sha256 : Sha256) (memory : List Byte → Mem) (client : Handle) (request : Request)
    (world : World) :
    ∃ next, Network.act host sha256 memory (.ask client request) world = .ok next ∧
      next.requests = Function.update world.requests client (world.requests client ++ [request]) := ⟨_, rfl, rfl⟩

/-- A handler's outputs are calls of send functions on the network, and nothing goes wrong with them. -/
theorem perform_reaches (client : Handle) {outputs : List Output} (fits : ∀ request ∈ requestsOf outputs, Fits request)
    (desk : Desk) :
    ∃ later actions, perform host sha256 memory client outputs desk = .ok later ∧
      Execution (Network.act host sha256 memory) (Network.Permitted host) desk.world actions later.world ∧
      later.typed = desk.typed ∧
      later.world.requests =
        Function.update desk.world.requests client (desk.world.requests client ++ requestsOf outputs) := by
  induction outputs generalizing desk with
  | nil => exact ⟨desk, [], rfl, .nil, rfl, by simp [requestsOf]⟩
  | cons output outputs ih =>
    cases output with
    | print line => exact ih fits (desk.print client line)
    | send request =>
      obtain ⟨next, asks, requests⟩ := asks_of_ask host sha256 memory client request desk.world
      have permitted : Network.Permitted host (.ask client request) desk.world := fits request List.mem_cons_self
      obtain ⟨later, actions, performed, reached, typed, asked⟩ := ih
        (fun other member => fits other (List.mem_cons_of_mem _ member)) { desk with world := next }
      have single := Execution.snoc .nil permitted asks
      refine ⟨later, _, ?_, single.append reached, typed, ?_⟩
      · rw [perform, asks]
        exact performed
      · rw [asked, requests, Function.update_self, Function.update_idem, List.append_assoc]
        rfl

theorem requests_of_act {action : Network.Action} {world later : World}
    (silent : ∀ client request, action ≠ .ask client request)
    (acted : Network.act host sha256 memory action world = .ok later) : later.requests = world.requests := by
  cases action with
  | serve input =>
    obtain ⟨next, -, returned⟩ := bind_eq_ok.mp acted
    cases Except.ok.inj returned
    rfl
  | ask client request => exact absurd rfl (silent client request)
  | look client =>
    simp only [Network.act] at acted
    split at acted
    · cases Except.ok.inj acted
      rfl
    · obtain ⟨shown, -, returned⟩ := bind_eq_ok.mp acted
      cases Except.ok.inj returned
      rfl

/-- The network below has run, and what the clients have asked for are the requests of the lines they have read. -/
structure Wired (host : Host) (sha256 : Sha256) (memory : List Byte → Mem) (commands : Commands) (boot : Boot) (desk : Desk) :
    Prop where
  ran : ∃ actions, NetworkRun host sha256 memory boot actions desk.world
  asked : ∀ client, desk.world.requests client = (desk.typed client).flatMap (requestsOfLine commands)

theorem wired_opening (commands : Commands) : Wired host sha256 memory commands boot (.opening boot) :=
  ⟨⟨[], .nil⟩, fun _ => rfl⟩

theorem Wired.moved {commands : Commands} {desk : Desk} (wired : Wired host sha256 memory commands boot desk)
    {action : Network.Action} (silent : ∀ client request, action ≠ .ask client request)
    (permitted : Network.Permitted host action desk.world) {world : World}
    (acted : Network.act host sha256 memory action desk.world = .ok world) :
    Wired host sha256 memory commands boot { desk with world := world } := by
  obtain ⟨actions, ran⟩ := wired.ran
  refine ⟨⟨_, ran.snoc permitted acted⟩, fun client => ?_⟩
  show world.requests client = _
  rw [requests_of_act silent acted]
  exact wired.asked client

theorem Wired.same {commands : Commands} {desk later : Desk} (wired : Wired host sha256 memory commands boot desk)
    (world : later.world = desk.world) (typed : later.typed = desk.typed) :
    Wired host sha256 memory commands boot later := by
  obtain ⟨ran, asked⟩ := wired
  rw [← world] at ran asked
  rw [← typed] at asked
  exact ⟨ran, asked⟩

theorem Wired.read {commands : Commands} {desk later : Desk} (wired : Wired host sha256 memory commands boot desk)
    {client : Handle} {line : List Byte} {actions : List Network.Action}
    (reached : Execution (Network.act host sha256 memory) (Network.Permitted host) desk.world actions later.world)
    (typed : later.typed = (desk.read client line).typed)
    (asked : later.world.requests =
      Function.update desk.world.requests client (desk.world.requests client ++ requestsOfLine commands line)) :
    Wired host sha256 memory commands boot later := by
  obtain ⟨before, ran⟩ := wired.ran
  refine ⟨⟨_, ran.append reached⟩, fun other => ?_⟩
  rw [asked, typed]
  by_cases own : other = client
  · subst own
    rw [Function.update_self, typed_read_self, List.flatMap_append, List.flatMap_singleton, wired.asked]
  · rw [Function.update_of_ne own, typed_read_other _ own, wired.asked]

theorem Wired.enterLine {commands : Commands} {desk later : Desk} (wired : Wired host sha256 memory commands boot desk)
    {client : Handle} {line : List Byte} (fits : ∀ request ∈ requestsOfLine commands line, Fits request)
    (entered : enterLine host sha256 memory commands client line desk = .ok later) :
    Wired host sha256 memory commands boot later := by
  have silent (nothing : requestsOfLine commands line = []) :
      desk.world.requests =
        Function.update desk.world.requests client (desk.world.requests client ++ requestsOfLine commands line) := by
    rw [nothing, List.append_nil, Function.update_eq_self]
  unfold Terminals.enterLine at entered
  split at entered
  · next skipped =>
    obtain rfl := Except.ok.inj entered
    exact wired.read (.nil) rfl (silent (by rw [requestsOfLine, skipped]))
  · next ended =>
    obtain rfl := Except.ok.inj entered
    exact wired.read (.nil) rfl (silent (by rw [requestsOfLine, ended]))
  · next outputs runs =>
    have made : requestsOfLine commands line = requestsOf outputs := by rw [requestsOfLine, runs]
    rw [made] at fits
    obtain ⟨reached, actions, performed, execution, typed, asked⟩ :=
      @perform_reaches host sha256 memory client outputs fits (desk.read client line)
    obtain ⟨between, ran, returned⟩ := bind_eq_ok.mp entered
    obtain rfl := Except.ok.inj (performed.symm.trans ran)
    obtain rfl := Except.ok.inj returned
    rw [← made] at asked
    exact wired.read execution typed asked

theorem Wired.act {desk later : Desk} (wired : Wired host sha256 memory (commands conversions) boot desk)
    {action : Action} (permitted : Permitted host action desk)
    (acted : act host sha256 memory (commands conversions) action desk = .ok later) :
    Wired host sha256 memory (commands conversions) boot later := by
  cases action with
  | serve input =>
    obtain ⟨world, served, returned⟩ := bind_eq_ok.mp acted
    obtain rfl := Except.ok.inj returned
    have below : Network.Permitted host (.serve input) desk.world := permitted
    exact wired.moved (by simp) below served
  | type client line =>
    simp only [Terminals.act] at acted
    split at acted
    · exact wired.enterLine (fits_of_line conversions permitted) acted
    · obtain rfl := Except.ok.inj acted
      exact wired
  | endOfInput client =>
    simp only [Terminals.act] at acted
    split at acted <;> obtain rfl := Except.ok.inj acted <;> exact wired.same rfl rfl
  | interrupt client =>
    obtain rfl := Except.ok.inj acted
    exact wired.same rfl rfl
  | look client poll =>
    simp only [Terminals.act] at acted
    split at acted
    · unfold lookForReply at acted
      split at acted
      · obtain ⟨world, looked, returned⟩ := bind_eq_ok.mp acted
        obtain rfl := Except.ok.inj returned
        have below : Network.Permitted host (.look client) desk.world := trivial
        exact wired.moved (by simp) below looked
      · obtain rfl := Except.ok.inj acted
        exact wired.same rfl rfl
      · obtain rfl := Except.ok.inj acted
        exact wired.same rfl rfl
      · obtain rfl := Except.ok.inj acted
        exact wired
    · obtain rfl := Except.ok.inj acted
      exact wired

theorem wired_of_deskRun {actions : List Action} {desk : Desk}
    (ran : DeskRun host sha256 memory (commands conversions) boot actions desk) :
    Wired host sha256 memory (commands conversions) boot desk :=
  ran.invariant (wired_opening _) fun _ _ _ wired permitted acted => wired.act permitted acted

end Runs

/-- From the keyboard to the screen: the lines a client has read make requests, and the replies on its
screen settle those that are replied to, one by one and in the order of the lines; once nothing is on
its way there is a reply to every one of them. -/
theorem commands_settled (host : Host) (sha256 : Sha256) (memory : List Byte → Mem) (conversions : Conversions) (boot : Boot)
    (actions : List Action) (desk : Desk) (holds : Holds memory)
    (ran : DeskRun host sha256 memory (commands conversions) boot actions desk) (client : Handle) :
    ∃ settled waiting,
      (issued host.order sha256 ((desk.typed client).flatMap (requestsOfLine (commands conversions)))).filter expects =
        settled ++ waiting ∧
      List.Forall₂ Settles settled ((desk.world.screen client).filter isReply) ∧
      ((desk.world.upstream client).inFlight = [] → (desk.world.downstream client).inFlight = [] → waiting = []) := by
  have wired := wired_of_deskRun ran
  obtain ⟨actions, below⟩ := wired.ran
  rw [← wired.asked client]
  exact settled_of_networkRun holds below client

section Example
variable {host : Host} {sha256 : Sha256} {memory : List Byte → Mem}

/-- While the clients run, what happens in the network without a request happens here too. -/
theorem execution_of_network {commands : Commands} {desk : Desk} (running : ∀ client, desk.running client = true)
    {actions : List Network.Action} {world : World} (silent : ∀ action ∈ actions, ∀ client request, action ≠ .ask client request)
    (ran : Execution (Network.act host sha256 memory) (Network.Permitted host) desk.world actions world) :
    ∃ lifted, Execution (act host sha256 memory commands) (Permitted host) desk lifted { desk with world := world } := by
  induction ran with
  | nil => exact ⟨[], .nil⟩
  | @snoc actions world later action before permitted acted ih =>
    obtain ⟨lifted, ran⟩ := ih fun earlier member => silent earlier (List.mem_append_left _ member)
    cases action with
    | serve input =>
      have served : act host sha256 memory commands (.serve input) { desk with world := world } =
          .ok { desk with world := later } := by
        simp only [act, acted, bind_ok]
      have here : Permitted host (.serve input) { desk with world := world } := permitted
      exact ⟨_, ran.snoc here served⟩
    | ask client request => exact absurd rfl (silent (.ask client request) (by simp) client request)
    | look client =>
      have looked : act host sha256 memory commands (.look client .readable) { desk with world := world } =
          .ok { desk with world := later } := by
        simp only [act, if_pos (running client), lookForReply, acted, bind_ok]
      have here : Permitted host (.look client .readable) { desk with world := world } := trivial
      exact ⟨_, ran.snoc here looked⟩

end Example

theorem ping_typed :
    ∃ desk, DeskRun exampleHost exampleSha256 holding (commands Addressing.noConversions) (exampleBoot [])
      [.type 0 (text " ping ")] desk ∧ desk.typed 0 = [text " ping "] ∧ desk.world = pinged ∧
      ∀ client, desk.running client = true := by
  have permitted : Permitted exampleHost (.type 0 (text " ping ")) (.opening (exampleBoot [])) :=
    (by decide : (text " ping ").length ≤ lineLimit)
  exact ⟨_, Execution.snoc .nil permitted rfl, rfl, rfl, fun _ => rfl⟩

/-- The line is read, the server answers the ping, and the pong on the screen settles it. -/
theorem commands_settled_ping :
    ∃ desk : Desk, desk.typed 0 = [text " ping "] ∧ (desk.world.screen 0).filter isReply = [.ping] ∧
      List.Forall₂ Settles [.ping] ((desk.world.screen 0).filter isReply) := by
  obtain ⟨desk, typing, typed, world, running⟩ := ping_typed
  obtain ⟨later, below, -, screen, arrived, looked⟩ := untilSettled_reaches
  have silent : ∀ action ∈ untilSettled, ∀ client request, action ≠ .ask client request := by
    simp only [untilSettled, List.mem_append, List.mem_map, List.mem_singleton]
    rintro action (((⟨input, -, rfl⟩ | rfl) | rfl) | rfl) client request <;> simp
  rw [← world] at below
  obtain ⟨lifted, ran⟩ := @execution_of_network _ _ _ (commands Addressing.noConversions) desk running _ later silent below
  obtain ⟨settled, waiting, split, settles, done⟩ := commands_settled exampleHost exampleSha256 holding
    Addressing.noConversions (exampleBoot []) _ { desk with world := later } holds_holding (typing.append ran) 0
  simp only [typed] at split
  rw [done arrived looked, List.append_nil] at split
  have all : [.ping] = settled := split
  rw [← all] at settles
  refine ⟨{ desk with world := later }, typed, ?_, settles⟩
  show (later.screen 0).filter isReply = [.ping]
  rw [screen]
  rfl

end Communo.Terminals
