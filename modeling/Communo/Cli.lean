import Communo.Client
import Communo.Literals

/-! The command line of the client: how a line is cut into words, which command
it is, and what the handlers of `main` do with the words that are left. -/

namespace Communo.Cli
open Lib.ByteCodec Protocol NumParser Literals Client

/-- What a handler does: it prints, or calls one of the client's send functions. -/
inductive Output where
  | print (line : List Byte)
  | send (request : Request)
  deriving DecidableEq, Repr

/-- A handler gets the words after its name. An exception leaves it before it has done anything. -/
abbrev Handler := List (List Byte) → Except String (List Output)

abbrev Commands := List (List Byte × Handler)

def addCommand (name : String) (handler : Handler) (commands : Commands) : Commands := (text name, handler) :: commands

def find (commands : Commands) (candidate : List Byte) : Option Handler :=
  (commands.find? fun command => command.1 = candidate).map Prod.snd

/-- `isspace` in the classic locale. -/
def isSpace (character : Byte) : Bool := character = 32 ∨ 9 ≤ character.toNat ∧ character.toNat ≤ 13

def tokenize (line : List Byte) : List (List Byte) := (line.splitOnP isSpace).filter (· ≠ [])

def candidate (args : List (List Byte)) (count : Nat) : List Byte := (text " ").intercalate (args.take count)

/-- The loop over ever longer candidates; the last one that is registered stays. -/
def matchCommand (commands : Commands) (args : List (List Byte)) : List Byte × List (List Byte) :=
  (List.range args.length).foldl
    (fun found i =>
      if (find commands (candidate args (i + 1))).isSome then (candidate args (i + 1), args.drop (i + 1)) else found)
    ([], [])

inductive Round where
  | skipped
  | ended
  | ran (outputs : List Output)
  deriving DecidableEq, Repr

def runCommand (commands : Commands) (first : List Byte) (command : List Byte) (commandArgs : List (List Byte)) :
    List Output :=
  if command = [] then [.print (text "Unknown command: " ++ first ++ text "\n")]
  else
    match find commands command with
    | some handler =>
        match handler commandArgs with
        | .ok outputs => outputs
        | .error what => [.print (text "Error: " ++ text what ++ text "\n")]
    | none => []

def runLine (commands : Commands) (line : List Byte) : Round :=
  match tokenize line with
  | [] => .skipped
  | first :: rest =>
      if first = text "exit" ∨ first = text "quit" then .ended
      else
        let (command, commandArgs) := matchCommand commands (first :: rest)
        .ran (runCommand commands first command commandArgs)

def spaced (args : List (List Byte)) : List Byte := args.flatMap fun arg => arg ++ text " "

def echo : Handler := fun args => .ok [.send (.echo (spaced args))]

/-- `parse_number` on every argument, up to the first exception. -/
def parseNumbers (conversions : Conversions) : List (List Byte) → Except LiteralError (List Number)
  | [] => .ok []
  | arg :: args =>
      match parseNumber conversions arg with
      | .ok number => (parseNumbers conversions args).map (number :: ·)
      | .error error => .error error

def add (conversions : Conversions) : Handler := fun args =>
  if args.length < 2 then .error "usage: add <a> <b> ..."
  else
    match parseNumbers conversions args with
    | .ok nums => .ok [.send (.addition nums)]
    | .error error => .ok [.print (text "invalid numbers: " ++ text error.what ++ text "\n")]

def broadcast : Handler := fun args => .ok [.send (.broadcast (spaced args))]

def usage (lines : List String) : Handler := fun _ => .ok [.print (lines.flatMap fun line => text line ++ text "\n")]

def request (request : Request) : Handler := fun _ => .ok [.send request]

/-- A number that could not be parsed leaves the variant as it was declared. -/
def parsedOrDefault (conversions : Conversions) (arg : List Byte) : Number × List Output :=
  match parseNumber conversions arg with
  | .ok num => (num, [])
  | .error error => (.int8 0, [.print (text "invalid room number: " ++ text error.what ++ text "\n")])

def clientSendMsg (conversions : Conversions) : Handler := fun args =>
  match args with
  | arg :: word :: words =>
      let (num, printed) := parsedOrDefault conversions arg
      if unsigned : isUnsignedInteger num = true then
        .ok (printed ++ [.send (.clientMessage (castUint64 num unsigned) (spaced (word :: words)))])
      else .ok (printed ++ [.print (text "invalid client ID: " ++ arg ++ text "\n")])
  | _ => .error "usage: client send-msg <clientID> <msg>"

def chatJoin (conversions : Conversions) : Handler := fun args =>
  let join := fun (arg pwd : List Byte) =>
    let (num, printed) := parsedOrDefault conversions arg
    match num with
    -- `is_unsigned_integer` and `is_uint8_t` both hold for this alternative only
    | .uint8 roomID => printed ++ [.send (.joinRoom roomID pwd)]
    | _ => printed ++ [.print (text "invalid room number: " ++ arg ++ text "\n")]
  match args with
  | [arg] => .ok (join arg [])
  | [arg, pwd] => .ok (join arg pwd)
  | _ => .error "usage: chat join <room ID> <opt: password>"

def chatSay : Handler := fun args => .ok [.send (.chatSay (spaced args))]

def commands (conversions : Conversions) : Commands :=
  [] |> addCommand "echo" echo
    |> addCommand "add" (add conversions)
    |> addCommand "broadcast" broadcast
    |> addCommand "ping" (request .ping)
    |> addCommand "uptime" (request .uptime)
    |> addCommand "counter" (usage ["Available commands for counter:", "  increment", "  get"])
    |> addCommand "counter increment" (request .incrementCounter)
    |> addCommand "counter get" (request .getCounter)
    |> addCommand "client" (usage ["Available commands for client:", "  get-clients", "  set-username <username>",
        "  send-msg <clientID> <msg>"])
    |> addCommand "client get-clients" (request .getClients)
    |> addCommand "client set-username" (usage ["client set-username"])
    |> addCommand "client send-msg" (clientSendMsg conversions)
    |> addCommand "chat" (usage ["Available commands for chat:", "  get-rooms", "  info",
        "  join <room ID> <opt: password>", "  say"])
    |> addCommand "chat get-rooms" (request .getChatRooms)
    |> addCommand "chat info" (request .getRoomInfo)
    |> addCommand "chat join" (chatJoin conversions)
    |> addCommand "chat say" chatSay
    |> addCommand "help" (usage ["Available commands:", "  echo <text...>", "  broadcast <text...>",
        "  add <a> <b> ...", "  ping", "  uptime", "  counter ..", "  chat ..", "  help", "  exit"])

/-- The packets that a round hands to the socket, as far as they leave the client. -/
def transmitted (order : ByteOrder) (sha256 : Sha256) : Round → List (List Byte)
  | .ran outputs => outputs.filterMap fun
      | .send request => (request.packet order sha256).bind sendSSLPacketToServer
      | .print _ => none
  | _ => []

theorem tokenize_cons_space {character : Byte} (white : isSpace character = true) (line : List Byte) :
    tokenize (character :: line) = tokenize line := by
  simp [tokenize, List.splitOnP_cons_eq_if_modifyHead, white]

theorem tokenize_word {word rest : List Byte} (nonempty : word ≠ []) (solid : ∀ character ∈ word, isSpace character = false)
    (separated : ∀ character, rest.head? = some character → isSpace character = true) :
    tokenize (word ++ rest) = word :: tokenize rest := by
  cases rest with
  | nil =>
    rw [List.append_nil, tokenize, List.splitOnP_eq_singleton solid]
    simp [nonempty, tokenize]
  | cons character rest =>
    have white := separated character rfl
    rw [tokenize_cons_space white, tokenize, List.splitOnP_append_cons_of_forall_mem solid character white,
      List.filter_cons_of_pos (by simpa using nonempty), tokenize]

theorem tokenize_intercalate {words : List (List Byte)}
    (clean : ∀ word ∈ words, word ≠ [] ∧ ∀ character ∈ word, isSpace character = false) :
    tokenize ((text " ").intercalate words) = words := by
  have gap : text " " = [0x20] := by decide
  rw [gap]
  induction words with
  | nil => rfl
  | cons word words ih =>
    obtain ⟨nonempty, solid⟩ := clean word (by simp)
    have later := ih fun other member => clean other (List.mem_cons_of_mem _ member)
    cases words with
    | nil =>
      have alone := @tokenize_word word [] nonempty solid (by simp)
      rw [List.append_nil] at alone
      rw [List.intercalate_singleton, alone]
      rfl
    | cons next words =>
      have space : isSpace 0x20 = true := by decide
      rw [List.intercalate_cons_cons, List.append_assoc, List.singleton_append,
        tokenize_word nonempty solid (by simpa using space), tokenize_cons_space space, later]

section Matching
variable {commands : Commands} {args : List (List Byte)}

theorem matchCommand_eq {count : Nat} (positive : 0 < count) (inside : count ≤ args.length)
    (registered : (find commands (candidate args count)).isSome)
    (longest : ∀ later, count < later → later ≤ args.length → find commands (candidate args later) = none) :
    matchCommand commands args = (candidate args count, args.drop count) := by
  unfold matchCommand
  suffices stopped : ∀ total, count ≤ total → total ≤ args.length →
      (List.range total).foldl (fun found i => if (find commands (candidate args (i + 1))).isSome then
        (candidate args (i + 1), args.drop (i + 1)) else found) ([], []) = (candidate args count, args.drop count) from
    stopped args.length inside le_rfl
  intro total reached bounded
  induction total with
  | zero => omega
  | succ total ih =>
    rw [List.range_succ, List.foldl_append, List.foldl_cons, List.foldl_nil]
    by_cases last : count = total + 1
    · rw [← last, if_pos registered]
    · rw [longest (total + 1) (by omega) bounded, Option.isSome_none, if_neg (by simp)]
      exact ih (by omega) (by omega)

theorem count_space_candidate (args : List (List Byte)) : args.length ≤ ((text " ").intercalate args).count 0x20 + 1 := by
  induction args with
  | nil => simp
  | cons arg args ih =>
    cases args with
    | nil => simp
    | cons next args =>
      rw [List.intercalate_cons_cons, List.count_append, List.count_append]
      have gap : (text " ").count 0x20 = 1 := by decide
      rw [List.length_cons, gap]
      omega

theorem find_eq_none_of_three (conversions : Conversions) {count : Nat} (three : 3 ≤ count) (inside : count ≤ args.length) :
    find (Cli.commands conversions) (candidate args count) = none := by
  have names : ∀ command ∈ Cli.commands conversions, command.1.count 0x20 ≤ 1 := by
    have listed : ∀ name ∈ (Cli.commands conversions).map Prod.fst, name.count 0x20 ≤ 1 := by
      have closed : (Cli.commands conversions).map Prod.fst = ["help", "chat say", "chat join", "chat info",
          "chat get-rooms", "chat", "client send-msg", "client set-username", "client get-clients", "client",
          "counter get", "counter increment", "counter", "uptime", "ping", "broadcast", "add", "echo"].map text := rfl
      rw [closed]
      decide
    exact fun command member => listed command.1 (List.mem_map_of_mem member)
  rw [find, Option.map_eq_none_iff, List.find?_eq_none]
  intro command member same
  have few := names command member
  have many := count_space_candidate (args.take count)
  rw [of_decide_eq_true same, candidate] at few
  rw [List.length_take_of_le inside] at many
  omega

end Matching

end Communo.Cli
