import Communo.SessionTable
import Communo.StateFrame

/-! Private messages: whom the server writes to, and what arrives there. The
handler copies as many bytes as the packet has, starting behind the ID. -/

namespace Communo.PrivateMessages
open Lib.ByteCodec Lib.CheckedMemory Lib.Records Lib.Runs Protocol NumParser Chat Session Handlers MainLoop Client Dispatch
  Transitions Survival Writes Framing Faults ReplyDecoding StateFrame SessionTable

def repliesOf (opcode : Opcode) (calls : List Call) : List (Option Handle × List Byte) :=
  (packetsWritten calls).filter fun written => opcodeOf written.2 = some opcode

def statusReply (error : ChatErr) : List Byte := opcodeBytes .smsgPrivateMsgErr ++ [error.code]

def messageReply (order : ByteOrder) (clientID : BitVec 64) (message : List Byte) : List Byte :=
  opcodeBytes .smsgPrivateMessage ++ (toBytes order 8 clientID.toNat ++ message)

section Handler
variable {host : Host} {ambient : Ambient} {buffer : Nat → Byte} {server : Server} {packet : List Byte}

theorem findRecipient_eq_some_iff {sender found : ClientSocket} {clientID : BitVec 64} :
    findRecipient server sender clientID = some found ↔
      clientID ≠ sender.clientID ∧
        server.clientSockets.find? (fun candidate => candidate.clientID = clientID) = some found := by
  unfold findRecipient
  by_cases own : clientID = sender.clientID
  · simp [own]
  · simp [own]

theorem recipientError_eq_ok_iff_isSome (sender : ClientSocket) (clientID : BitVec 64) :
    recipientError server sender clientID = .ok ↔ (findRecipient server sender clientID).isSome := by
  unfold recipientError
  by_cases own : clientID = sender.clientID
  · simp [findRecipient, own]
  · cases findRecipient server sender clientID with
    | none => simp [own]
    | some found => simp [own]

theorem packetsWritten_relay (view : View) (sender : ClientSocket) (clientID : BitVec 64) (message : List Byte) :
    packetsWritten (relayPrivateMessage host view sender (findRecipient server sender clientID)
      (recipientError server sender clientID) message) =
      (sender.ssl, statusReply (recipientError server sender clientID)) ::
        ((findRecipient server sender clientID).toList.map fun found =>
          (found.ssl, messageReply host.order sender.clientID message)) := by
  unfold relayPrivateMessage
  rw [packetsWritten_append, packetsWritten_send]
  by_cases own : clientID = sender.clientID
  · simp [findRecipient, recipientError, own, packetsWritten, statusReply]
  · cases found : findRecipient server sender clientID with
    | none => simp [recipientError, own, found, packetsWritten, statusReply]
    | some recipient => simp [recipientError, own, found, statusReply, messageReply]

/-- A private message request is always answered; what is forwarded is as long as the whole request. -/
theorem callHandler_private (host : Host) (server : Server) (client : Fin server.clientSockets.length)
    (delivers : Delivers (physicalView ambient buffer) packet)
    (isPrivate : opcodeOf packet = some .cmsgSendMsgToClient) (large : 10 ≤ packet.length) :
    ∃ message, message.length = packet.length ∧
      callHandler host (physicalView ambient buffer) server client packet.length =
        .ok (server, relayPrivateMessage host (physicalView ambient buffer) (server.clientSockets.get client)
          (findRecipient server (server.clientSockets.get client) (requestedID host packet))
          (recipientError server (server.clientSockets.get client) (requestedID host packet)) message) := by
  obtain ⟨message, copied⟩ : ∃ message, (readBytes (physicalView ambient buffer).buffer 10 packet.length :
      Checked Exn (List Byte)) = .ok message := ⟨_, readBytes_total _ 10 packet.length⟩
  have size := ((readBytes_eq_ok_iff _ _ _ _).mp copied).1
  have nonempty : message ≠ [] := List.ne_nil_of_length_pos (by omega)
  refine ⟨message, size, ?_⟩
  rw [callHandler_delivered delivers (by omega), isPrivate]
  simp only [switchOpcode, if_pos large, callHandlerMsgToClient]
  rw [readBytes_slice delivers (by omega), bind_ok]
  have named : BitVec.ofNat 64 (ofBytes host.order ((packet.drop 2).take 8)) = requestedID host packet := rfl
  by_cases found : recipientError server (server.clientSockets.get client) (requestedID host packet) = .ok
  · simp only [named, found, if_true, copied, bind_ok, nonempty, and_false, if_false]
  · have nobody : findRecipient server (server.clientSockets.get client) (requestedID host packet) = none := by
      rw [recipientError_eq_ok_iff_isSome] at found
      simpa using found
    simp only [named, found, if_false, bind_ok, false_and, nobody]
    rfl

theorem repliesOf_relay (view : View) (sender : ClientSocket) (clientID : BitVec 64) (message : List Byte) :
    repliesOf .smsgPrivateMsgErr (relayPrivateMessage host view sender (findRecipient server sender clientID)
        (recipientError server sender clientID) message) =
      [(sender.ssl, statusReply (recipientError server sender clientID))] ∧
    repliesOf .smsgPrivateMessage (relayPrivateMessage host view sender (findRecipient server sender clientID)
        (recipientError server sender clientID) message) =
      (findRecipient server sender clientID).toList.map fun found =>
        (found.ssl, messageReply host.order sender.clientID message) := by
  have status (error : ChatErr) : opcodeOf (statusReply error) = some .smsgPrivateMsgErr := opcodeOf_append _ _
  have forwarded (message : List Byte) :
      opcodeOf (messageReply host.order sender.clientID message) = some .smsgPrivateMessage := opcodeOf_append _ _
  unfold repliesOf
  rw [packetsWritten_relay]
  cases findRecipient server sender clientID with
  | none => simp [status]
  | some found => simp [status, forwarded]

end Handler

theorem processReply_privateMessage (order : ByteOrder) {memory : List Byte → Mem} (held : Holds memory)
    (clientID : BitVec 64) (message : List Byte) (small : 8 + message.length < 2 ^ 63) :
    processReplyFromServerIfAny order memory (messageReply order clientID message) =
      .ok (.privateMessage clientID message) := by
  have labelled : Opcode.ofCode (ofBytes .big (opcodeBytes .smsgPrivateMessage)) = some .smsgPrivateMessage := by decide
  have size : (toBytes order 8 clientID.toNat ++ message).length = 8 + message.length := by simp
  rw [messageReply, processReplyFromServerIfAny, if_pos (by simp), List.drop_left' (opcodeBytes_length _),
    List.take_left' (opcodeBytes_length _)]
  simp only [switchReply, labelled]
  rw [readWord_inside (held _) order (by omega), bind_ok, constructString_inside (held _) (by omega) (by omega), bind_ok,
    List.take_left' (toBytes_length order 8 _), List.drop_left' (toBytes_length order 8 _),
    ofNat_ofBytes_toBytes order 8 clientID (by decide)]

/-- What the client shows for one packet written to it: it takes every read for a reply. -/
def shownFor (order : ByteOrder) (memory : List Byte → Mem) (packet : List Byte) : List (Checked Exn Shown) :=
  (reads recordSize bufferSize packet).map (processReplyFromServerIfAny order memory)

theorem shownFor_overrun (order : ByteOrder) (memory : List Byte → Mem) {packet : List Byte}
    (overruns : bufferSize < packet.length) (rest : packet.length ≤ bufferSize + bufferSize) :
    (shownFor order memory packet).length = 2 := by
  have inRecord : packet.length ≤ recordSize := by
    simp only [bufferSize, recordSize] at *
    omega
  rw [shownFor, reads_of_overrun (by decide) inRecord overruns rest]
  rfl

theorem shownFor_fits (order : ByteOrder) (memory : List Byte → Mem) {packet : List Byte} (nonempty : packet ≠ [])
    (fits : packet.length ≤ bufferSize) :
    shownFor order memory packet = [processReplyFromServerIfAny order memory packet] := by
  have inRecord : packet.length ≤ recordSize := le_trans fits (by decide)
  rw [shownFor, reads_of_fits nonempty inRecord fits]
  rfl

section Arrival
variable (host : Host) (ambient : Ambient) (buffer : Nat → Byte) (server : Server)
  (client : Fin server.clientSockets.length) (other : ClientSocket) (msg : List Byte)

/-- The packet of `sendClientMessage` makes the recipient see the message and its
sender and nothing else; an empty message is refused and not forwarded. -/
def ArrivesUnchanged : Prop :=
  let packet := sendClientMessage host.order other.clientID msg
  let sender := server.clientSockets.get client
  ∃ next calls, callHandler host (physicalView ambient (receive buffer packet)) server client packet.length =
      .ok (next, calls) ∧
    (msg ≠ [] → ∃ reply, (other.ssl, reply) ∈ repliesOf .smsgPrivateMessage calls ∧ ∀ memory, Holds memory →
      shownFor host.order memory reply = [.ok (.privateMessage sender.clientID msg)]) ∧
    (msg = [] → (∀ reply, (other.ssl, reply) ∉ packetsWritten calls) ∧
      (sender.ssl, statusReply .emptyMessage) ∈ packetsWritten calls)

theorem requestedID_sendClientMessage (clientID : BitVec 64) :
    requestedID host (sendClientMessage host.order clientID msg) = clientID := by
  rw [requestedID, sendClientMessage, List.drop_left' (opcodeBytes_length _),
    List.take_left' (toBytes_length host.order 8 _), ofNat_ofBytes_toBytes host.order 8 clientID (by decide)]

/-- Ten bytes that are not in the packet are forwarded with every message, so none arrives as it was sent. -/
theorem private_message_never_unchanged (present : other ∈ server.clientSockets)
    (apart : other.clientID ≠ (server.clientSockets.get client).clientID) (fits : 10 + msg.length ≤ 4096) :
    ¬ArrivesUnchanged host ambient buffer server client other msg := by
  have size : (sendClientMessage host.order other.clientID msg).length = 10 + msg.length := by
    simp [sendClientMessage]
    omega
  have delivers : Delivers (physicalView ambient (receive buffer (sendClientMessage host.order other.clientID msg)))
      (sendClientMessage host.order other.clientID msg) :=
    physicalView_delivers ambient buffer ⟨sendClientMessage host.order other.clientID msg, size ▸ by omega, size ▸ fits⟩
  obtain ⟨message, length, answered⟩ := callHandler_private host server client delivers (opcodeOf_append _ _) (by omega)
  rw [requestedID_sendClientMessage] at answered
  have found : recipientError server (server.clientSockets.get client) other.clientID = .ok :=
    (recipientError_eq_ok_iff _ _ _).mpr ⟨apart, other, present, rfl⟩
  rintro ⟨next, calls, handled, arrives, refuses⟩
  cases Except.ok.inj (answered.symm.trans handled)
  by_cases empty : msg = []
  · have status := (refuses empty).2
    rw [packetsWritten_relay, found, List.mem_cons] at status
    rcases status with same | forwarded
    · have codes : statusReply .emptyMessage = statusReply .ok := congrArg Prod.snd same
      exact absurd codes (by decide)
    · obtain ⟨recipient, -, same⟩ := List.mem_map.mp forwarded
      have opcodes := congrArg (fun written => opcodeOf (Prod.snd written)) same
      simp [messageReply, statusReply] at opcodes
  · obtain ⟨reply, made, shown⟩ := arrives empty
    rw [(repliesOf_relay _ _ _ _).2] at made
    obtain ⟨recipient, -, same⟩ := List.mem_map.mp made
    obtain rfl : messageReply host.order (server.clientSockets.get client).clientID message = reply :=
      congrArg Prod.snd same
    have total : (messageReply host.order (server.clientSockets.get client).clientID message).length =
        20 + msg.length := by
      simp only [messageReply, List.length_append, opcodeBytes_length, toBytes_length]
      omega
    have once := shown holding holds_holding
    by_cases whole : 20 + msg.length ≤ 4096
    · rw [shownFor_fits _ _ (List.ne_nil_of_length_pos (by omega)) (by rw [total]; exact whole),
        processReply_privateMessage _ holds_holding _ _ (by omega)] at once
      have unchanged : message = msg := by simpa using once
      rw [unchanged] at length
      omega
    · have twice := shownFor_overrun host.order holding (by rw [total]; simp only [bufferSize]; omega)
        (by rw [total]; simp only [bufferSize]; omega)
      rw [once] at twice
      exact absurd twice (by simp)

end Arrival

theorem private_message_never_unchanged_hello :
    ¬ArrivesUnchanged exampleHost exampleAmbient (fun _ => 0) exampleServer ⟨0, by decide⟩
      (exampleServer.clientSockets.get ⟨1, by decide⟩) (text "hello") :=
  private_message_never_unchanged exampleHost exampleAmbient _ exampleServer ⟨0, by decide⟩ _ (text "hello")
    (List.get_mem _ _) (by decide) (by decide)

/-- `hi` from client 0 is shown to client 1 with ten zero bytes behind it. -/
theorem hi_arrives_with_zeros :
    ¬ArrivesUnchanged exampleHost exampleAmbient (fun _ => 0) exampleServer ⟨0, by decide⟩
      (exampleServer.clientSockets.get ⟨1, by decide⟩) (text "hi") ∧
    ∀ memory, Holds memory → shownFor .little memory (messageReply .little 0 (text "hi" ++ List.replicate 10 0)) =
      [.ok (.privateMessage 0 (text "hi" ++ List.replicate 10 0))] := by
  have shows (memory : List Byte → Mem) (held : Holds memory) :
      shownFor .little memory (messageReply .little 0 (text "hi" ++ List.replicate 10 0)) =
        [.ok (.privateMessage 0 (text "hi" ++ List.replicate 10 0))] := by
    rw [shownFor_fits _ _ (by decide) (by decide), processReply_privateMessage _ held _ _ (by decide)]
  refine ⟨?_, shows⟩
  rintro ⟨next, calls, handled, arrives, -⟩
  have written : packetsWritten calls =
      [(some 0, statusReply .ok), (some 1, messageReply .little 0 (text "hi" ++ List.replicate 10 0))] := by
    have answered : (callHandler exampleHost (physicalView exampleAmbient (receive (fun _ => 0)
        (sendClientMessage exampleHost.order 1 (text "hi")))) exampleServer ⟨0, by decide⟩ 12).map
          (fun result => packetsWritten result.2) = .ok
        [(some 0, statusReply .ok), (some 1, messageReply .little 0 (text "hi" ++ List.replicate 10 0))] := by decide
    have same := congrArg (Except.map fun result => packetsWritten (Prod.snd result)) handled
    exact Except.ok.inj (same.symm.trans answered)
  obtain ⟨reply, made, shown⟩ := arrives (by decide)
  have only : repliesOf .smsgPrivateMessage calls =
      [(some 1, messageReply .little 0 (text "hi" ++ List.replicate 10 0))] := by
    rw [repliesOf, written]
    decide
  rw [only, List.mem_singleton] at made
  obtain rfl : reply = messageReply .little 0 (text "hi" ++ List.replicate 10 0) := congrArg Prod.snd made
  have longer := (shown holding holds_holding).symm.trans (shows holding holds_holding)
  exact absurd longer (by decide)

section Routing
variable {host : Host} {boot : Boot} {inputs : List Input} {config : Config}

theorem ssl_ne_of_clientID_ne (ran : ServerRun host (fun _ _ => True) boot inputs config) {first second : ClientSocket}
    (inFirst : first ∈ config.server.clientSockets) (inSecond : second ∈ config.server.clientSockets)
    (apart : first.clientID ≠ second.clientID) : first.ssl ≠ second.ssl := by
  intro same
  have equal := List.inj_on_of_nodup_map (secured_of_run ran).distinct_ssl inFirst inSecond same
  exact apart (congrArg ClientSocket.clientID equal)

/-- Until the counter of connections wraps, an ID belongs to one session. -/
theorem eq_of_clientID_eq (ran : ServerRun host (fun _ _ => True) boot inputs config)
    (few : (issuedIDs config.trace).length < 2 ^ 64) {first second : ClientSocket}
    (inFirst : first ∈ config.server.clientSockets) (inSecond : second ∈ config.server.clientSockets)
    (same : first.clientID = second.clientID) : first = second := by
  obtain ⟨numbers, named, increasing, below⟩ := (numbered_of_run ran).numbered
  have ordered := (increasing_of_numbered named increasing below few).1
  rw [table, List.map_map] at ordered
  have distinct : (config.server.clientSockets.map ClientSocket.clientID).Nodup :=
    ordered.imp fun less equal => absurd (equal ▸ less) (BitVec.lt_irrefl _)
  exact List.inj_on_of_nodup_map distinct inFirst inSecond same

theorem recipientError_eq_msgToSelf_iff (server : Server) (sender : ClientSocket) (clientID : BitVec 64) :
    recipientError server sender clientID = .msgToSelf ↔ clientID = sender.clientID := by
  unfold recipientError
  by_cases own : clientID = sender.clientID
  · simp [own]
  · simp only [own, if_false, iff_false]
    split <;> simp

theorem recipientError_eq_noClientFound_iff {server : Server} {sender : ClientSocket}
    (present : sender ∈ server.clientSockets) (clientID : BitVec 64) :
    recipientError server sender clientID = .noClientFound ↔
      ∀ other ∈ server.clientSockets, other.clientID ≠ clientID := by
  by_cases own : clientID = sender.clientID
  · have self := (recipientError_eq_msgToSelf_iff server sender clientID).mpr own
    exact iff_of_false (by simp [self]) fun nobody => nobody sender present own.symm
  · unfold recipientError findRecipient
    rw [if_neg own, if_neg own]
    cases found : server.clientSockets.find? (fun candidate => candidate.clientID = clientID) with
    | none => simpa using List.find?_eq_none.mp found
    | some other =>
      have named := List.find?_some found
      simp only [Option.isNone_some, Bool.false_eq_true, if_false, reduceCtorEq, false_iff]
      exact fun nobody => nobody other (List.mem_of_find?_eq_some found) (by simpa using named)

/-- Every private message request of a reachable state gets one status; the message goes, when the status is
`ERR_OK`, to the first session with the requested ID and to nobody else. Up to 2^64 connections that session is
the only one with the ID. -/
theorem private_message_routing (host : Host) (boot : Boot) (inputs : List Input) (config : Config)
    (ran : ServerRun host (fun _ _ => True) boot inputs config) (client : Fin config.server.clientSockets.length)
    (received : Received) (input : Input) (isPrivate : opcodeOf received.bytes = some .cmsgSendMsgToClient)
    (large : 10 ≤ received.bytes.length) :
    let sender := config.server.clientSockets.get client
    let clientID := requestedID host received.bytes
    ∃ calls error,
      callHandler host (handlerView input config received) (loaded config received) client received.bytes.length =
        .ok (loaded config received, calls) ∧
      repliesOf .smsgPrivateMsgErr calls = [(sender.ssl, statusReply error)] ∧
      (error = .msgToSelf ↔ clientID = sender.clientID) ∧
      (error = .noClientFound ↔ ∀ other ∈ config.server.clientSockets, other.clientID ≠ clientID) ∧
      (repliesOf .smsgPrivateMessage calls ≠ [] ↔ error = .ok) ∧
      (error = .ok → ∃ found message,
        config.server.clientSockets.find? (fun candidate => candidate.clientID = clientID) = some found ∧
        found.clientID = clientID ∧ found.ssl ≠ sender.ssl ∧
        repliesOf .smsgPrivateMessage calls = [(found.ssl, message)] ∧
        ((issuedIDs config.trace).length < 2 ^ 64 →
          ∀ other ∈ config.server.clientSockets, other.clientID = clientID → other = found)) := by
  intro sender clientID
  have present : sender ∈ config.server.clientSockets := List.get_mem _ _
  obtain ⟨message, -, answered⟩ := callHandler_private host (loaded config received) client
    (handlerView_delivers input config received) isPrivate large
  have routed := @repliesOf_relay host config.server (handlerView input config received) sender clientID message
  refine ⟨relayPrivateMessage host (handlerView input config received) sender
      (findRecipient config.server sender clientID) (recipientError config.server sender clientID) message,
    recipientError config.server sender clientID, answered, routed.1, recipientError_eq_msgToSelf_iff _ _ _,
    recipientError_eq_noClientFound_iff present _, ?_, ?_⟩
  · rw [routed.2, recipientError_eq_ok_iff_isSome]
    cases findRecipient config.server sender clientID <;> simp
  · intro fine
    obtain ⟨found, recipient⟩ := Option.isSome_iff_exists.mp ((recipientError_eq_ok_iff_isSome _ _).mp fine)
    obtain ⟨apart, first⟩ := findRecipient_eq_some_iff.mp recipient
    have member := List.mem_of_find?_eq_some first
    have named : found.clientID = clientID := by simpa using List.find?_some first
    refine ⟨found, messageReply host.order sender.clientID message, first, named, ?_, ?_, ?_⟩
    · exact ssl_ne_of_clientID_ne ran member present (named ▸ apart)
    · rw [routed.2, recipient]
      rfl
    · intro few other inTable same
      exact eq_of_clientID_eq ran few inTable member (same.trans named.symm)

end Routing

def hiToZero : Received :=
  { bytes := [0, 5, 0, 0, 0, 0, 0, 0, 0, 0, 0x68, 0x69], nonempty := by decide, fits := by decide }

/-- The second of two clients writes to the first. -/
theorem private_message_routing_first :
    ∃ (inputs : List Input) (config : Config), ServerRun exampleHost (fun _ _ => True) (exampleBoot []) inputs config ∧
      ∃ client calls, ∃ (found : ClientSocket) (message : List Byte),
        (config.server.clientSockets.get client).ssl = some 1 ∧ found.clientID = 0 ∧
        callHandler exampleHost (handlerView idle config hiToZero) (loaded config hiToZero) client 12 =
          .ok (loaded config hiToZero, calls) ∧
        repliesOf .smsgPrivateMsgErr calls = [(some 1, statusReply .ok)] ∧
        repliesOf .smsgPrivateMessage calls = [(found.ssl, message)] ∧ found.ssl ≠ some 1 := by
  obtain ⟨config, ran⟩ : ∃ config, run (step exampleHost) (passWith (arrive 4) [idle] ++ passWith (arrive 5) [idle, idle])
    (exampleBoot []).config = .ok config := ⟨_, rfl⟩
  have execution : ServerRun exampleHost (fun _ _ => True) (exampleBoot []) _ config := Execution.of_run .nil ran
  have two : 1 < config.server.clientSockets.length := by
    cases ran
    decide
  have second : (config.server.clientSockets.get ⟨1, two⟩).ssl = some 1 := by
    cases ran
    rfl
  obtain ⟨calls, error, answered, status, -, -, forwards, reaches⟩ := private_message_routing exampleHost (exampleBoot []) _
    config execution ⟨1, two⟩ hiToZero idle (by decide) (by decide)
  have forwarded : (callHandler exampleHost (handlerView idle config hiToZero) (loaded config hiToZero) ⟨1, two⟩ 12).map
      (fun handled => (repliesOf .smsgPrivateMessage handled.2).isEmpty) = .ok false := by
    cases ran
    rfl
  have sent : repliesOf .smsgPrivateMessage calls ≠ [] := by
    intro nothing
    have same := congrArg (Except.map fun handled => (repliesOf .smsgPrivateMessage (Prod.snd handled)).isEmpty) answered
    have shown : (repliesOf .smsgPrivateMessage calls).isEmpty = false := Except.ok.inj (same.symm.trans forwarded)
    simp [nothing] at shown
  obtain rfl := forwards.mp sent
  obtain ⟨found, message, -, named, apart, reply, -⟩ := reaches rfl
  rw [second] at status apart
  exact ⟨_, config, execution, ⟨1, two⟩, calls, found, message, second, named, answered, status, reply, apart⟩

section Wrapping

def abandon (fd : Int) : Input := { arrive fd with handshake := { allocated := true, attached := true, attempts := [] } }

def firstOnly (counter : BitVec 64) (fresh : Handle) (readfds : Int → Bool) (trace : List Call) : Config where
  server := {
    clientSockets := [{ socket := 4, ssl := some 0, sslEnabled := true, clientID := 0 }],
    uniqueClientCounter := counter,
    chatRooms := loadRooms [],
    counter := 0,
    buffer := fun _ => 0,
    readfds := readfds,
    serverState := .started,
    masterSocket := 3,
    sendHelloMsg := true }
  pc := .poolActivity
  fresh := fresh
  trace := trace

theorem abandoned (count : Nat) : ∃ inputs readfds trace,
    ServerRun exampleHost (fun _ _ => True) (exampleBoot []) inputs
      (firstOnly (BitVec.ofNat 64 (count + 1)) (count + 1) readfds trace) := by
  induction count with
  | zero =>
    obtain ⟨readfds, trace, ran⟩ : ∃ readfds trace, run (step exampleHost) [connect 4, connect 4, idle, idle, idle]
        (exampleBoot []).config = .ok (firstOnly 1 1 readfds trace) := ⟨_, _, rfl⟩
    exact ⟨_, readfds, trace, Execution.of_run .nil ran⟩
  | succ count ih =>
    obtain ⟨inputs, readfds, trace, before⟩ := ih
    obtain ⟨readfds', trace', ran⟩ : ∃ readfds' trace',
        run (step exampleHost) [abandon 5, abandon 5, idle, idle, idle]
          (firstOnly (BitVec.ofNat 64 (count + 1)) (count + 1) readfds trace) =
          .ok (firstOnly (BitVec.ofNat 64 (count + 1) + 1) (count + 1 + 1) readfds' trace') := ⟨_, _, rfl⟩
    have next : BitVec.ofNat 64 (count + 1) + 1 = BitVec.ofNat 64 (count + 1 + 1) :=
      (BitVec.ofNat_add (count + 1) 1).symm
    rw [next] at ran
    exact ⟨_, readfds', trace', Execution.of_run before ran⟩

/-- After 2^64 connections the IDs start over: two sessions have ID 0, and a message for
that ID reaches the first of them only. -/
theorem wrapped_ids_share_recipient :
    ∃ inputs config, ServerRun exampleHost (fun _ _ => True) (exampleBoot []) inputs config ∧
      (∃ client calls, (config.server.clientSockets.get client).clientID = 1 ∧
        callHandler exampleHost (handlerView idle config hiToZero) (loaded config hiToZero) client 12 =
          .ok (loaded config hiToZero, calls) ∧
        (repliesOf .smsgPrivateMessage calls).map Prod.fst = [some 0]) ∧
      ¬∃! session, session ∈ config.server.clientSockets ∧ session.clientID = requestedID exampleHost hiToZero.bytes := by
  obtain ⟨inputs, readfds, trace, before⟩ := abandoned (2 ^ 64 - 1)
  have wrapped : BitVec.ofNat 64 (2 ^ 64 - 1 + 1) = 0 := by decide
  rw [wrapped] at before
  generalize 2 ^ 64 - 1 + 1 = fresh at before
  obtain ⟨config, ran⟩ : ∃ config, run (step exampleHost)
      [arrive 5, arrive 5, idle, idle, idle, idle, arrive 6, arrive 6, idle, idle, idle, idle, idle]
      (firstOnly 0 fresh readfds trace) = .ok config := ⟨_, rfl⟩
  have table : config.server.clientSockets = [
      { socket := 4, ssl := some 0, sslEnabled := true, clientID := 0 },
      { socket := 5, ssl := some fresh, sslEnabled := true, clientID := 0 },
      { socket := 6, ssl := some (fresh + 1), sslEnabled := true, clientID := 1 }] := by
    cases ran
    rfl
  refine ⟨_, config, Execution.of_run before ran, ?_, ?_⟩
  · have inTable : 2 < config.server.clientSockets.length := by simp [table]
    have third : (config.server.clientSockets.get ⟨2, inTable⟩).clientID = 1 := by simp [table]
    obtain ⟨message, -, answered⟩ := callHandler_private exampleHost (loaded config hiToZero) ⟨2, inTable⟩
      (handlerView_delivers idle config hiToZero) (by decide) (by decide)
    have found : findRecipient config.server (config.server.clientSockets.get ⟨2, inTable⟩)
        (requestedID exampleHost hiToZero.bytes) =
        some { socket := 4, ssl := some 0, sslEnabled := true, clientID := 0 } := by
      rw [findRecipient, if_neg (by rw [third]; decide), table]
      rfl
    refine ⟨⟨2, inTable⟩, _, third, answered, ?_⟩
    rw [(repliesOf_relay _ _ _ _).2, List.map_map]
    exact congrArg (fun recipient => (Option.toList recipient).map ClientSocket.ssl) found
  · rw [table]
    rintro ⟨session, -, only⟩
    have first := only { socket := 4, ssl := some 0, sslEnabled := true, clientID := 0 } ⟨by simp, rfl⟩
    have second := only { socket := 5, ssl := some fresh, sslEnabled := true, clientID := 0 } ⟨by simp, rfl⟩
    have sockets : (4 : Int) = 5 := congrArg ClientSocket.socket (first.trans second.symm)
    exact absurd sockets (by decide)

end Wrapping

end Communo.PrivateMessages
