import Communo.Network

/-! What the users of the network can rely on: it does what the chat service
does, requests are answered in the order they were made, and nothing throws. -/

namespace Communo.NetworkLaws
open Lib.ByteCodec Lib.CheckedMemory Lib.Records Lib.Runs Lib.Transducers Lib.Links Protocol NumParser Chat Session Handlers MainLoop
  Client Dispatch Addition Transitions Faults Survival StateFrame Writes Framing ReplyDecoding ReplySizes PrivateMessages ChatService
  Refinement ServiceRuns ServiceLaws Conversations Network

def issued (order : ByteOrder) (sha256 : Sha256) (requests : List Request) : List Request :=
  requests.filter fun request => (request.packet order sha256).isSome

def Carries (order : ByteOrder) (sha256 : Sha256) (request : Request) (packet : List Byte) : Prop :=
  request.packet order sha256 = some packet ∧ Fits request

section Requests
variable {host : Host} {sha256 : Sha256} {memory : List Byte → Mem} {boot : Boot} {actions : List Action} {world : World}

theorem carries_packets {order : ByteOrder} {requests : List Request} (fits : ∀ request ∈ requests, Fits request) :
    List.Forall₂ (Carries order sha256) (issued order sha256 requests) (packets order sha256 requests) := by
  induction requests with
  | nil => exact .nil
  | cons request requests ih =>
    have rest := ih fun later member => fits later (by simp [member])
    cases built : request.packet order sha256 with
    | none =>
      rw [issued, List.filter_cons_of_neg (by simp [built]), packets, List.filterMap_cons_none built]
      exact rest
    | some packet =>
      rw [issued, List.filter_cons_of_pos (by simp [built]), packets, List.filterMap_cons_some built]
      exact .cons ⟨built, fits request (by simp)⟩ rest

/-- The packets on the link to the server are those of the requests that were issued. -/
theorem carries_upstream (linked : Linked host sha256 memory world) (client : Handle) :
    List.Forall₂ (Carries host.order sha256) (issued host.order sha256 (world.requests client))
      (world.upstream client).sent := by
  rw [linked.asked client, transmitted_of_fits (linked.fits client)]
  exact carries_packets (linked.fits client)

theorem received_of_carries {request : Request} {packet : List Byte} (carries : Carries host.order sha256 request packet) :
    ∃ received : Received, received.bytes = packet := by
  obtain ⟨long, fits⟩ := length_packet carries.1
  exact ⟨⟨packet, Nat.lt_of_lt_of_le Nat.zero_lt_two long, fits.mpr carries.2⟩, rfl⟩

theorem conveys_of_carries {request : Request} {packet : List Byte} {query : Query}
    (carries : Carries host.order sha256 request packet) (read : Read host packet query) : Conveys sha256 request query := by
  obtain ⟨received, rfl⟩ := received_of_carries carries
  obtain ⟨ambient, buffer, means⟩ := read
  obtain ⟨meant, understood, conveys⟩ := understood_of_packet carries.1 (physicalView_delivers ambient buffer received)
  obtain rfl := Except.ok.inj (understood.symm.trans means)
  exact conveys

end Requests

section Replies
variable {host : Host} {sha256 : Sha256} {memory : List Byte → Mem} {boot : Boot} {inputs : List Input} {config : Config}

theorem written_fits
    (ran : ServerRun host (fun input config => WritesWhole input.ambient ∧ ¬Overruns host input config) boot inputs config) :
    ∀ output ∈ packetsWritten config.trace, output.2.length ≤ bufferSize := by
  induction ran with
  | nil => simp [Boot.config, packetsWritten]
  | @snoc inputs config next input before permitted stepped ih =>
    obtain ⟨calls, effect⟩ := stepped_of_step stepped
    have grown := effect.trace_eq
    intro output written
    rw [grown, packetsWritten_append, List.mem_append] at written
    rcases written with old | new
    · exact ih output old
    · refine (writesFit_iff before input).mpr permitted.2 next stepped output.1 output.2 ?_
      rw [grown, List.drop_left]
      exact mem_packetsWritten.mp new

theorem bytes_ne_nil (order : ByteOrder) (answer : Answer) : answer.bytes order ≠ [] := by
  cases answer <;> simp [Answer.bytes, opcodeBytes, toBytes, littleBytes] <;> decide

theorem departures_eq {calls : List Call} {outputs : List (Handle × Answer)} (order : ByteOrder)
    (written : packetsWritten calls = outputs.map (encode order))
    (fits : ∀ output ∈ packetsWritten calls, output.2.length ≤ bufferSize) (client : Handle) :
    departures calls client = (toward client outputs).map (Answer.bytes order) := by
  have each : ∀ packet ∈ toward (some client) (packetsWritten calls), reads recordSize bufferSize packet = [packet] := by
    intro packet received
    have small := fits _ (mem_toward.mp received)
    have nonempty : packet ≠ [] := by
      rw [written, toward_encode] at received
      obtain ⟨answer, -, rfl⟩ := List.mem_map.mp received
      exact bytes_ne_nil order answer
    exact reads_of_fits nonempty (small.trans (by decide)) small
  rw [departures, List.flatMap_congr each, List.flatMap_singleton', written, toward_encode]

end Replies

section Network
variable {host : Host} {sha256 : Sha256} {memory : List Byte → Mem} {boot : Boot} {actions : List Action} {world : World}

/-- How far the service has come with the requests of a client, and the client with the answers. -/
structure Keeps (host : Host) (sha256 : Sha256) (world : World) (client : Handle) (queries : List Query)
    (answers : List Answer) : Prop where
  taken : ∃ served waiting, issued host.order sha256 (world.requests client) = served ++ waiting ∧
    List.Forall₂ (Conveys sha256) served queries ∧
    List.Forall₂ (Carries host.order sha256) waiting (world.upstream client).inFlight
  legible : ∀ answer ∈ answers, (answer.bytes host.order).length ≤ bufferSize
  given : ∃ seen unseen, answers = seen ++ unseen ∧ world.screen client = seen.map shown ∧
    (world.downstream client).inFlight = unseen.map (Answer.bytes host.order)

/-- The terminal shows what the replies were encoded from. -/
theorem screen_eq_map {order : ByteOrder} (holds : Holds memory) {answers : List Answer} {screen : List Shown}
    (fits : ∀ answer ∈ answers, (answer.bytes order).length ≤ bufferSize)
    (looked : List.Forall₂ (fun reply shown => processReplyFromServerIfAny order memory reply = .ok shown)
      (answers.map (Answer.bytes order)) screen) : screen = answers.map shown := by
  induction answers generalizing screen with
  | nil =>
    cases looked
    rfl
  | cons answer answers ih =>
    cases looked with
    | cons here rest =>
      have same := Except.ok.inj (here.symm.trans (processReply_answer holds answer (fits answer (by simp))))
      rw [same, ih (fun later member => fits later (by simp [member])) rest, List.map_cons]

theorem keeps_of_explains (holds : Holds memory) (linked : Linked host sha256 memory world) {events : List Event}
    {outputs : List (Handle × Answer)} (explains : Explains host world.config.trace events outputs)
    (fits : ∀ output ∈ packetsWritten world.config.trace, output.2.length ≤ bufferSize) (client : Handle) :
    Keeps host sha256 world client (toward client (asked events)) (toward client outputs) where
  taken := by
    obtain ⟨served, waiting, split, carried, travelling⟩ := Link.split (carries_upstream linked client)
    refine ⟨served, waiting, split, ?_, travelling⟩
    rw [linked.read client, bytesRead_eq_toward] at carried
    have read : List.Forall₂ (Read host) (toward (some client) (packetsRead world.config.trace))
        (toward client (asked events)) :=
      toward_rel (explains.2.imp fun packet ask meant => ⟨by rw [meant.1, Option.some.injEq], meant.2⟩)
    refine forall₂_comp ?_ carried read
    intro request packet query carries read
    exact conveys_of_carries carries read
  legible answer told := by
    apply fits (some client, answer.bytes host.order)
    rw [explains.1]
    exact List.mem_map.mpr ⟨(client, answer), mem_toward.mp told, rfl⟩
  given := by
    have sent := linked.written client
    rw [departures_eq host.order explains.1 fits client, (world.downstream client).fifo] at sent
    obtain ⟨seen, unseen, split, arrived, travelling⟩ := List.map_eq_append_iff.mp sent.symm
    refine ⟨seen, unseen, split, ?_, travelling.symm⟩
    have looked := linked.shown client
    rw [← arrived] at looked
    refine screen_eq_map holds (fun answer member => ?_) looked
    apply fits (some client, answer.bytes host.order)
    rw [explains.1]
    exact List.mem_map.mpr ⟨(client, answer), mem_toward.mp (split ▸ List.mem_append_left _ member), rfl⟩

theorem keeps_of_networkRun (holds : Holds memory) (ran : NetworkRun host sha256 memory boot actions world) :
    ∃ events outputs service, Reacts (react host) (.opening (loadRooms boot.rows)) events outputs service ∧
      Tracks world.config service ∧
      Understood host boot.buffer world.config.server.buffer (packetsRead world.config.trace) (asked events) ∧
      ∀ client, Keeps host sha256 world client (toward client (asked events)) (toward client outputs) := by
  obtain ⟨inputs, served⟩ := serverRun_of_networkRun ran
  obtain ⟨events, outputs, service, reacts, tracks, recounts⟩ :=
    follows_of_run (served.weaken fun _ _ _ _ permitted => permitted.1)
  exact ⟨events, outputs, service, reacts, tracks, recounts.understood,
    keeps_of_explains holds (linked_of_networkRun ran) recounts.explains (written_fits served)⟩

def expects : Request → Bool
  | .broadcast _ | .incrementCounter => false
  | _ => true

def isReply : Shown → Bool
  | .motd _ | .broadcast _ | .privateMessage _ _ | .say _ => false
  | _ => true

inductive Settles : Request → Shown → Prop where
  | echo (msg : List Byte) : Settles (.echo msg) (.echo msg)
  | addition (numbers : List Number) (value : BitVec 64) : Settles (.addition numbers) (.result value)
  | ping : Settles .ping .ping
  | uptime (seconds : Nat) : Settles .uptime (.uptime (uptimeText seconds))
  | getCounter (value : BitVec 64) : Settles .getCounter (.counter value)
  | getClients (entries : List (BitVec 64 × List Byte)) :
      Settles .getClients (.clientList (text "[valid client list]\n") entries)
  | tooManyClients : Settles .getClients (.clientList (text "[too much clients]\n") [])
  | clientMessage (clientID : BitVec 64) (msg status : List Byte)
      (known : status ∈ [text "[OK]\n", text "[message to self]\n", text "[no client found]\n"]) :
      Settles (.clientMessage clientID msg) (.privateMsgErr status)
  | getChatRooms (content : List Byte) : Settles .getChatRooms (.message content)
  | getRoomInfo (content : List Byte) : Settles .getRoomInfo (.message content)
  | roomJoined (roomID : Byte) (password : List Byte) : Settles (.joinRoom roomID password) (.roomJoined roomID)
  | roomNotJoined (roomID : Byte) (password : List Byte) (error : Byte) (status : List Byte)
      (known : status ∈ [text "Invalid room ID.", text "Invalid room password."]) :
      Settles (.joinRoom roomID password) (.roomNotJoined error status)
  | sayOk (msg : List Byte) : Settles (.chatSay msg) .sayOk
  | sayErr (msg : List Byte) (error : Byte) : Settles (.chatSay msg) (.sayErr error (text "No room joined."))

theorem awaits_of_conveys {request : Request} {query : Query} (conveys : Conveys sha256 request query) :
    expects request = awaits query := by
  cases conveys <;> rfl

theorem isReply_shown (answer : Answer) : isReply (shown answer) = direct answer := by
  cases answer <;> rfl

theorem settles_of_replies {request : Request} {query : Query} {answer : Answer} (conveys : Conveys sha256 request query)
    (replies : Replies query answer) : Settles request (shown answer) := by
  cases conveys with
  | echo msg =>
    cases replies
    exact .echo msg
  | addition numbers =>
    cases replies
    exact .addition numbers _
  | broadcast | incrementCounter => cases replies
  | ping =>
    cases replies
    exact .ping
  | uptime =>
    cases replies
    exact .uptime _
  | getCounter =>
    cases replies
    exact .getCounter _
  | getClients =>
    cases replies with
    | clients entries => exact .getClients entries
    | tooManyClients => exact .tooManyClients
  | clientMessage clientID msg strays =>
    cases replies with
    | told _ _ error live =>
      refine .clientMessage clientID msg _ ?_
      simp only [List.mem_cons, List.not_mem_nil, or_false] at live
      rcases live with rfl | rfl | rfl <;> decide
  | getChatRooms =>
    cases replies
    exact .getChatRooms _
  | getRoomInfo =>
    cases replies <;> exact .getRoomInfo _
  | joinRoom roomID password =>
    cases replies with
    | joined => exact .roomJoined roomID password
    | notJoined _ _ error live =>
      refine .roomNotJoined roomID password _ _ ?_
      simp only [List.mem_cons, List.not_mem_nil, or_false] at live
      rcases live with rfl | rfl <;> decide
  | chatSay msg =>
    cases replies with
    | sayOk => exact .sayOk msg
    | sayErr => exact .sayErr msg _

end Network

section Example
variable {host : Host} {world : World} {input : Input}

theorem permitted_of_unread (writes : ∀ ssl packet, input.ambient.written ssl packet = packet.length)
    (unread : ∀ received, ¬Receives input world.config received) : Permitted host (.serve input) world := by
  refine ⟨writes, ?_, ?_⟩
  · rintro ⟨received, -, -, -, receives, -⟩
    exact unread received receives
  · rintro client received ⟨it, present, reached, isOpen, ready, data, -⟩
    exact absurd ⟨it, present, reached, isOpen, ready, data⟩ (unread received)

def pinged : World :=
  { World.opening (exampleBoot []) with
    requests := Function.update (fun _ => []) 0 [.ping]
    upstream := Function.update (fun _ => .idle) 0 (Link.idle.send (transmitted exampleHost.order exampleSha256 [.ping])) }

theorem pinged_reached :
    NetworkRun exampleHost exampleSha256 holding (exampleBoot []) [.ask 0 .ping] pinged :=
  .snoc .nil trivial rfl

theorem untilRead_reaches :
    ∃ world, Execution (act exampleHost exampleSha256 holding) (Permitted exampleHost) pinged (untilRead.map .serve) world ∧
      world.requests 0 = [.ping] ∧ world.config.pc = .processRequests 0 ∧
      world.config.server.clientSockets.map ClientSocket.ssl = [some 0] ∧ bytesRead (some 0) world.config.trace = [] ∧
      ∃ later, act exampleHost exampleSha256 holding (.serve (deliver pingPacket)) world = .ok later ∧
        later.requests 0 = [.ping] ∧ later.screen 0 = [] ∧ (later.downstream 0).received = [] ∧
        packetsWritten later.config.trace = [(some 0, motdPacket), (some 0, opcodeBytes .smsgPong)] ∧
        bytesRead (some 0) later.config.trace = [opcodeBytes .cmsgPing] := by
  have unready (fd : Int) (world : World) : Permitted exampleHost (.serve (connect fd)) world :=
    permitted_of_unread (fun _ _ => rfl) (by rintro received ⟨_, _, _, _, _, data⟩; cases data)
  have resting (world : World) : Permitted exampleHost (.serve idle) world :=
    permitted_of_unread (fun _ _ => rfl) (by rintro received ⟨_, _, _, _, _, data⟩; cases data)
  have here : Execution (act exampleHost exampleSha256 holding) (Permitted exampleHost) pinged [] pinged := .nil
  have polled := Execution.snoc here (unready 4 _) rfl
  have accepted := Execution.snoc polled (unready 4 _) rfl
  have visited := Execution.snoc accepted (resting _) rfl
  have swept := Execution.snoc visited (resting _) rfl
  have looped := Execution.snoc swept (resting _) rfl
  have selected := @Execution.snoc _ _ _ _ _ _ _ _ _ (.serve (deliver pingPacket)) looped
    (permitted_of_unread (fun _ _ => rfl) (by rintro received ⟨_, _, reached, _⟩; cases reached)) rfl
  exact ⟨_, Execution.snoc selected (resting _) rfl, rfl, rfl, rfl, rfl, _, rfl, rfl, rfl, rfl, rfl, rfl⟩

theorem permitted_ping {actions : List Action}
    (ran : NetworkRun exampleHost exampleSha256 holding (exampleBoot []) actions world) (asked : world.requests 0 = [.ping])
    (reached : world.config.pc = .processRequests 0)
    (single : world.config.server.clientSockets.map ClientSocket.ssl = [some 0])
    (unread : bytesRead (some 0) world.config.trace = []) : Permitted exampleHost (.serve (deliver pingPacket)) world := by
  refine ⟨fun _ _ => rfl, ?_, ?_⟩
  · rintro ⟨received, it, present, -, ⟨_, _, _, _, _, data⟩, -, large⟩
    obtain rfl := ReadResult.data.inj data
    have opcode : opcodeOf pingPacket.bytes = some .cmsgPing := by decide
    rcases large with ⟨⟨isPrivate, -⟩, -⟩ | ⟨isGetChatRooms, -⟩ | ⟨isGetRoomInfo, -⟩
    · exact absurd (opcode.symm.trans isPrivate) (by decide)
    · exact absurd (opcode.symm.trans isGetChatRooms) (by decide)
    · exact absurd (opcode.symm.trans isGetRoomInfo) (by decide)
  · rintro client received ⟨it, present, there, -, -, data, held⟩
    obtain rfl := ReadResult.data.inj data
    obtain rfl := Pc.processRequests.inj (reached.symm.trans there)
    have first : (world.config.server.clientSockets.map ClientSocket.ssl)[0]? = some (some client) := by
      rw [List.getElem?_map, List.getElem?_eq_getElem present]
      exact congrArg some held
    rw [single] at first
    obtain rfl := Option.some.inj (Option.some.inj first)
    have linked := linked_of_networkRun ran
    have sent := linked.asked 0
    rw [transmitted_of_fits (linked.fits 0), Link.fifo, linked.read 0, unread, asked] at sent
    exact congrArg List.head? sent

theorem look_shows {sha256 : Sha256} {memory : List Byte → Mem} {client : Handle} {reply : List Byte}
    {rest : List (List Byte)} {shown : Shown} (travels : (world.downstream client).inFlight = reply :: rest)
    (processed : processReplyFromServerIfAny host.order memory reply = .ok shown) :
    ∃ later, act host sha256 memory (.look client) world = .ok later ∧
      (later.downstream client).inFlight = rest ∧ later.screen client = world.screen client ++ [shown] ∧
      later.upstream = world.upstream ∧ later.requests = world.requests := by
  simp only [act, travels, processed, bind_ok]
  refine ⟨_, rfl, ?_, Function.update_self .., rfl, rfl⟩
  simp only [Function.update_self]
  exact congrArg (List.drop 1) travels

def untilSettled : List Action := untilRead.map .serve ++ [.serve (deliver pingPacket)] ++ [.look 0] ++ [.look 0]

theorem untilSettled_reaches :
    ∃ world, Execution (act exampleHost exampleSha256 holding) (Permitted exampleHost) pinged untilSettled world ∧
      world.requests 0 = [.ping] ∧ world.screen 0 = [.motd helloMsg, .ping] ∧
      (world.upstream 0).inFlight = [] ∧ (world.downstream 0).inFlight = [] := by
  obtain ⟨world, early, asked, reached, single, unread, answered, served, made, blank, unseen, written, read⟩ :=
    untilRead_reaches
  have permitted := permitted_ping (pinged_reached.append early) asked reached single unread
  have serving := Execution.snoc early permitted served
  have linked := linked_of_networkRun (pinged_reached.append serving)
  have arrived : (answered.upstream 0).inFlight = [] := by
    have sent := linked.asked 0
    rw [transmitted_of_fits (linked.fits 0), Link.fifo, linked.read 0, read, made] at sent
    exact List.append_cancel_left (sent.trans (List.append_nil _).symm)
  have travels : (answered.downstream 0).inFlight = [motdPacket, opcodeBytes .smsgPong] := by
    have fits : ∀ output ∈ packetsWritten answered.config.trace, output.2.length ≤ bufferSize := by
      rw [written]
      decide
    have encoded : packetsWritten answered.config.trace = [(0, Answer.motd), (0, .pong)].map (encode .little) := written
    have departed : departures answered.config.trace 0 = [motdPacket, opcodeBytes .smsgPong] :=
      departures_eq .little encoded fits 0
    rw [← departed, ← linked.written 0, Link.fifo, unseen, List.nil_append]
  obtain ⟨greeted, first, next, screen, upstream, requests⟩ :=
    @look_shows exampleHost answered exampleSha256 holding 0 motdPacket [opcodeBytes .smsgPong] (.motd helloMsg) travels rfl
  obtain ⟨settled, second, none, screen', upstream', requests'⟩ :=
    @look_shows exampleHost greeted exampleSha256 holding 0 (opcodeBytes .smsgPong) [] .ping next rfl
  have looks (world : World) : Permitted exampleHost (.look 0) world := trivial
  refine ⟨settled, (serving.snoc (looks _) first).snoc (looks _) second, ?_, ?_, ?_, none⟩
  · rw [requests', requests, made]
  · rw [screen', screen, blank]
    rfl
  · rw [upstream', upstream, arrived]

end Example

/-- However requests, replies and the rounds of the server interleave, the network does what
the chat service does when it takes the requests one at a time: those that have arrived are
its queries, in the order of each client, and each screen shows its answers up to those on their
way. Each packet is taken for its query in the server's buffer as all reads before it have left it. -/
theorem network_refines_service (host : Host) (sha256 : Sha256) (memory : List Byte → Mem) (boot : Boot)
    (actions : List Action) (world : World) (holds : Holds memory)
    (ran : NetworkRun host sha256 memory boot actions world) :
    ∃ events outputs service, Reacts (react host) (.opening (loadRooms boot.rows)) events outputs service ∧
      Represents world.config.server service ∧
      Understood host boot.buffer world.config.server.buffer (packetsRead world.config.trace) (asked events) ∧
      ∀ client, Keeps host sha256 world client (toward client (asked events)) (toward client outputs) := by
  obtain ⟨events, outputs, service, reacts, tracks, understood, keeps⟩ := keeps_of_networkRun holds ran
  exact ⟨events, outputs, service, reacts, tracks.represents, understood, keeps⟩

/-- The ping has been taken and answered, and nothing is on its way any more. -/
theorem network_refines_service_ping :
    ∃ (world : World) (queries : List Query) (answers : List Answer),
      world.requests 0 = [.ping] ∧ world.screen 0 = [.motd helloMsg, .ping] ∧ (world.upstream 0).inFlight = [] ∧
      (world.downstream 0).inFlight = [] ∧ Keeps exampleHost exampleSha256 world 0 queries answers := by
  obtain ⟨world, ran, asked, screen, arrived, looked⟩ := untilSettled_reaches
  obtain ⟨events, outputs, service, -, -, -, keeps⟩ := network_refines_service exampleHost exampleSha256 holding
    (exampleBoot []) _ world holds_holding (pinged_reached.append ran)
  exact ⟨world, _, _, asked, screen, arrived, looked, keeps 0⟩

section Settling
variable {host : Host} {sha256 : Sha256} {memory : List Byte → Mem} {boot : Boot} {actions : List Action} {world : World}

theorem settled_of_networkRun (holds : Holds memory) (ran : NetworkRun host sha256 memory boot actions world)
    (client : Handle) :
    ∃ settled waiting,
      (issued host.order sha256 (world.requests client)).filter expects = settled ++ waiting ∧
      List.Forall₂ Settles settled ((world.screen client).filter isReply) ∧
      ((world.upstream client).inFlight = [] → (world.downstream client).inFlight = [] → waiting = []) := by
  obtain ⟨events, outputs, service, reacts, -, -, keeps⟩ := keeps_of_networkRun holds ran
  obtain ⟨⟨served, waiting, split, conveys, travelling⟩, -, seen, unseen, told, screen, unread⟩ := keeps client
  have awaited : List.Forall₂ (Conveys sha256) (served.filter expects) ((toward client (asked events)).filter awaits) := by
    refine List.rel_filter ?_ conveys
    intro request query conveys
    show expects request = true ↔ awaits query = true
    rw [awaits_of_conveys conveys]
  have replied := replies_paired reacts client
  have settles : List.Forall₂ Settles (served.filter expects) (((toward client outputs).filter direct).map shown) := by
    rw [List.forall₂_map_right_iff]
    refine forall₂_comp ?_ awaited replied
    intro request query answer conveys replies
    exact settles_of_replies conveys replies
  have shownReplies : (world.screen client).filter isReply = (seen.filter direct).map shown := by
    rw [screen, List.filter_map]
    congr 1
    exact List.filter_congr fun answer _ => isReply_shown answer
  rw [told, List.filter_append, List.map_append, ← shownReplies] at settles
  refine ⟨(served.filter expects).take ((world.screen client).filter isReply).length,
    (served.filter expects).drop ((world.screen client).filter isReply).length ++ waiting.filter expects, ?_,
    List.forall₂_take_append _ _ _ settles, fun noRequest noReply => ?_⟩
  · rw [split, List.filter_append, ← List.append_assoc, List.take_append_drop]
  · have all : unseen = [] := List.map_eq_nil_iff.mp (unread.symm.trans noReply)
    have rest := List.forall₂_drop_append _ _ _ settles
    rw [noRequest, List.forall₂_nil_right_iff] at travelling
    rw [all, List.filter_nil, List.map_nil, List.forall₂_nil_right_iff] at rest
    rw [travelling, rest]
    rfl

end Settling

/-- Each client gets its replies in the order of its requests: the first of them on its screen
settles the first request that is replied to, and so on; once nothing is on its way all are settled. -/
theorem replies_settle_requests (host : Host) (sha256 : Sha256) (memory : List Byte → Mem) (boot : Boot)
    (actions : List Action) (world : World) (holds : Holds memory)
    (ran : NetworkRun host sha256 memory boot actions world) (client : Handle) :
    ∃ settled waiting,
      (issued host.order sha256 (world.requests client)).filter expects = settled ++ waiting ∧
      List.Forall₂ Settles settled ((world.screen client).filter isReply) ∧
      ((world.upstream client).inFlight = [] → (world.downstream client).inFlight = [] → waiting = []) :=
  settled_of_networkRun holds ran client

theorem replies_settle_requests_ping :
    ∃ world : World, world.requests 0 = [.ping] ∧ (world.screen 0).filter isReply = [.ping] ∧
      List.Forall₂ Settles [.ping] ((world.screen 0).filter isReply) := by
  obtain ⟨world, ran, asked, screen, arrived, looked⟩ := untilSettled_reaches
  obtain ⟨settled, waiting, split, settles, done⟩ := replies_settle_requests exampleHost exampleSha256 holding
    (exampleBoot []) _ world holds_holding (pinged_reached.append ran) 0
  rw [asked, done arrived looked, List.append_nil] at split
  have all : [.ping] = settled := split
  rw [← all] at settles
  refine ⟨world, asked, ?_, settles⟩
  rw [screen]
  rfl

section Progress
variable {host : Host} {sha256 : Sha256}

theorem harmless_of_carries {request : Request} {packet : List Byte} (carries : Carries host.order sha256 request packet) :
    ¬SendsUnknownTag packet := by
  rintro ⟨isAddition, large, unknown⟩
  obtain ⟨received, rfl⟩ := received_of_carries carries
  have delivers := physicalView_delivers exampleAmbient (fun _ => 0) received
  obtain ⟨query, understood, -⟩ := understood_of_packet carries.1 delivers
  have failed := @addLoop_unknownTag _ _ delivers host (.start 2) (received.bytes.length - 2) unknown le_rfl
  simp only [Refinement.understood, if_neg (not_lt.mpr (length_packet carries.1).1), isAddition, if_pos large] at understood
  rw [failed] at understood
  cases understood

end Progress

/-- No exception escapes in the network: no request makes the server throw, and no answer
makes a client throw or read behind it. -/
theorem network_never_throws (host : Host) (sha256 : Sha256) (memory : List Byte → Mem) (boot : Boot)
    (actions : List Action) (world : World) (holds : Holds memory)
    (ran : NetworkRun host sha256 memory boot actions world) (action : Action) (permitted : Permitted host action world) :
    ∃ later, act host sha256 memory action world = .ok later := by
  obtain ⟨events, outputs, service, -, tracks, -, keeps⟩ := keeps_of_networkRun holds ran
  cases action with
  | serve input =>
    cases stepped : step host input world.config with
    | ok next => exact ⟨_, by rw [act, stepped]; rfl⟩
    | error fault =>
      obtain ⟨-, received, ⟨it, present, reached, isOpen, ready, data⟩, sends⟩ :=
        (step_eq_error_iff host input world.config fault).mp stepped
      obtain ⟨client, held⟩ := tracks.represents.handled _ (List.get_mem world.config.server.clientSockets ⟨it, present⟩)
      have next := permitted.2.2 client received ⟨it, present, reached, isOpen, ready, data, held⟩
      obtain ⟨⟨served, waiting, -, -, travelling⟩, -, -⟩ := keeps client
      obtain ⟨request, -, carries⟩ := exists_left_of_forall₂ travelling (List.mem_of_mem_head? next)
      exact absurd sends (harmless_of_carries carries)
  | ask client request => exact ⟨_, rfl⟩
  | look client =>
    obtain ⟨-, legible, seen, unseen, told, -, unread⟩ := keeps client
    cases unseen with
    | nil => exact ⟨world, by simp only [act, unread, List.map_nil]⟩
    | cons answer unseen =>
      have fits := legible answer (told ▸ List.mem_append_right _ List.mem_cons_self)
      simp only [act, unread, List.map_cons, processReply_answer holds answer fits, bind_ok]
      exact ⟨_, rfl⟩

theorem network_never_throws_ping :
    ∃ (world later : World), world.requests 0 = [.ping] ∧
      act exampleHost exampleSha256 holding (.serve (deliver pingPacket)) world = .ok later := by
  obtain ⟨world, early, asked, reached, single, unread, -⟩ := untilRead_reaches
  have ran := pinged_reached.append early
  obtain ⟨later, acted⟩ := network_never_throws exampleHost exampleSha256 holding (exampleBoot []) _ world holds_holding ran _
    (permitted_ping ran asked reached single unread)
  exact ⟨world, later, asked, acted⟩

end Communo.NetworkLaws
