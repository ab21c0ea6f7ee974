import Communo.ServiceRuns

/-! What the chat service promises along whole runs, and with it the server: one
reply to a query, one order of broadcasts, and a room for whoever was told so. -/

namespace Communo.ServiceLaws
open Lib.ByteCodec Lib.CheckedMemory Lib.Runs Lib.KeyedList Lib.Transducers Protocol NumParser Chat Session Handlers MainLoop
  Dispatch Transitions Survival Writes Framing SessionTable ClientList ChatService Refinement ServiceRuns

def awaits : Query → Bool
  | .broadcast _ | .increment | .malformed => false
  | _ => true

/-- The answers that reply to a query of their receiver; the others may come at any time. -/
def direct : Answer → Bool
  | .motd | .broadcast _ | .privateMessage _ _ | .say _ => false
  | _ => true

/-- The replies to a query. Of the errors only those occur that a member can run into. -/
inductive Replies : Query → Answer → Prop where
  | echo (payload : List Byte) : Replies (.echo payload) (.echo payload)
  | sum (numbers : List Number) (value : BitVec 64) : Replies (.add numbers) (.sum value)
  | clients (entries : List (BitVec 64 × List Byte)) : Replies .getClients (.clients entries)
  | tooManyClients : Replies .getClients .tooManyClients
  | told (clientID : BitVec 64) (message : List Byte) (error : ChatErr)
      (live : error ∈ [.ok, .msgToSelf, .noClientFound]) : Replies (.tell clientID message) (.told error)
  | pong : Replies .ping .pong
  | uptime (seconds : Nat) : Replies .uptime (.uptime seconds)
  | counter (value : BitVec 64) : Replies .getCounter (.counter value)
  | rooms (content : List Byte) (lines : content.head? ∈ [none, some 0x5B]) : Replies .getRooms (.message content)
  | noRoom : Replies .getRoomInfo (.message (text "No joined room"))
  | roomInfo (name : List Byte) : Replies .getRoomInfo (.message (text "Joined: " ++ name))
  | joined (roomID : Byte) (hash : List Byte) : Replies (.join roomID hash) (.joined roomID)
  | notJoined (roomID : Byte) (hash : List Byte) (error : ChatErr)
      (live : error ∈ [.invalidRoom, .invalidRoomPassword]) : Replies (.join roomID hash) (.notJoined error)
  | sayOk (payload : List Byte) : Replies (.say payload) .sayOk
  | sayErr (payload : List Byte) : Replies (.say payload) (.sayErr .noRoomJoined)
  | unknown : Replies .unknown (.message (text "Unknown or unhandled opcode."))
  | short : Replies .short .invalid

inductive Pushes (service : Service) (member : Member) : Query → Handle × Answer → Prop where
  | broadcast (payload : List Byte) (other : Member) (present : other ∈ service.members) :
      Pushes service member (.broadcast payload) (other.handle, .broadcast payload)
  | privateMessage (message : List Byte) (other : Member) (present : other ∈ service.members)
      (apart : other.clientID ≠ member.clientID) :
      Pushes service member (.tell other.clientID message) (other.handle, .privateMessage member.clientID message)
  | say (payload : List Byte) (other : Member) (present : other ∈ service.members) (roomID : Byte)
      (speaks : member.room = some roomID) (listens : other.room = some roomID) :
      Pushes service member (.say payload) (other.handle, .say payload)

theorem direct_of_replies {query : Query} {answer : Answer} (replies : Replies query answer) : direct answer = true := by
  cases replies <;> rfl

theorem not_direct_of_pushes {service : Service} {member : Member} {query : Query} {output : Handle × Answer}
    (pushes : Pushes service member query output) : direct output.2 = false := by
  cases pushes <;> rfl

theorem roomLines_head (entries : List (Sigma fun _ : Byte => ChatRoom)) :
    (roomLines entries).head? ∈ [none, some 0x5B] := by
  have line (roomID : Byte) (room : ChatRoom) : (roomLine roomID room).head? = some 0x5B := by
    simp only [roomLine, List.append_assoc]
    rfl
  match entries with
  | [] => exact .head _
  | [⟨roomID, room⟩] => simp [roomLines, line]
  | ⟨roomID, room⟩ :: other :: rest =>
    have first := line roomID room
    cases shape : roomLine roomID room with
    | nil => simp [shape] at first
    | cons byte bytes =>
      rw [shape] at first
      simpa [roomLines, shape] using first

section Pairing
variable {service : Service} {member : Member} {query : Query}

/-- The outputs are one reply to the member that asks, or none if the query waits for none, and what is pushed. -/
def RepliedOnce (service : Service) (member : Member) (query : Query) (outputs : List (Handle × Answer)) : Prop :=
  ∃ replies pushed, outputs = replies.map (fun answer => (member.handle, answer)) ++ pushed ∧
    List.Forall₂ Replies ([query].filter awaits) replies ∧ ∀ output ∈ pushed, Pushes service member query output

theorem repliedOnce_cons (awaited : awaits query = true) {answer : Answer} (replies : Replies query answer)
    {outputs : List (Handle × Answer)} (pushed : ∀ output ∈ outputs, Pushes service member query output) :
    RepliedOnce service member query ((member.handle, answer) :: outputs) := by
  refine ⟨[answer], outputs, rfl, ?_, pushed⟩
  rw [List.filter_cons_of_pos awaited]
  exact .cons replies .nil

theorem repliedOnce_single (awaited : awaits query = true) {answer : Answer} (replies : Replies query answer) :
    RepliedOnce service member query [(member.handle, answer)] :=
  repliedOnce_cons awaited replies (by simp)

theorem repliedOnce_silent (silent : awaits query = false) {outputs : List (Handle × Answer)}
    (pushed : ∀ output ∈ outputs, Pushes service member query output) : RepliedOnce service member query outputs := by
  refine ⟨[], outputs, rfl, ?_, pushed⟩
  rw [List.filter_cons_of_neg (by simp [silent])]
  exact .nil

theorem verdict_live (ambient : Ambient) (service : Service) (roomID : Byte) (hash : List Byte)
    (refused : service.verdict ambient roomID hash ≠ .ok) :
    service.verdict ambient roomID hash ∈ [ChatErr.invalidRoom, .invalidRoomPassword] := by
  unfold Service.verdict at refused ⊢
  cases found : service.rooms.lookup roomID with
  | none => simp
  | some room =>
    by_cases opens : room.passwordHash = [] ∨ Service.comparedHash ambient roomID room.passwordHash = hash
    · simp [found, opens] at refused
    · simp only [if_neg opens]
      simp

theorem repliedOnce_answers (host : Host) (ambient : Ambient) (service : Service) (member : Member) (query : Query) :
    RepliedOnce service member query (service.answers host ambient member query) := by
  cases query with
  | echo payload => exact repliedOnce_single rfl (.echo payload)
  | add numbers => exact repliedOnce_single rfl (.sum numbers _)
  | broadcast payload =>
    refine repliedOnce_silent rfl fun output sent => ?_
    obtain ⟨other, present, rfl⟩ := List.mem_map.mp sent
    exact .broadcast payload other present
  | getClients =>
    rw [Service.answers]
    split
    · exact repliedOnce_single rfl (.clients _)
    · exact repliedOnce_single rfl .tooManyClients
  | tell clientID message =>
    rw [Service.answers]
    split
    · exact repliedOnce_single rfl (.told _ _ .msgToSelf (by simp))
    · next apart =>
      split
      · exact repliedOnce_single rfl (.told _ _ .noClientFound (by simp))
      · next other found =>
        have named := List.find?_some found
        simp only [decide_eq_true_eq] at named
        subst named
        refine repliedOnce_cons rfl (.told _ _ .ok (by simp)) fun output sent => ?_
        rw [List.mem_singleton.mp sent]
        exact .privateMessage message other (List.mem_of_find?_eq_some found) apart
  | ping => exact repliedOnce_single rfl .pong
  | uptime => exact repliedOnce_single rfl (.uptime _)
  | increment => exact repliedOnce_silent rfl (by simp [Service.answers])
  | getCounter => exact repliedOnce_single rfl (.counter _)
  | getRooms => exact repliedOnce_single rfl (.rooms _ (roomLines_head _))
  | getRoomInfo =>
    rw [Service.answers, Service.roomInfo]
    split
    · exact repliedOnce_single rfl .noRoom
    · exact repliedOnce_single rfl (.roomInfo _)
  | join roomID hash =>
    rw [Service.answers]
    split
    · exact repliedOnce_single rfl (.joined roomID hash)
    · next refused => exact repliedOnce_single rfl (.notJoined roomID hash _ (verdict_live _ _ _ _ refused))
  | say payload =>
    rw [Service.answers]
    split
    · exact repliedOnce_single rfl (.sayErr payload)
    · next roomID speaks =>
      refine repliedOnce_cons rfl (.sayOk payload) fun output sent => ?_
      obtain ⟨other, inside, rfl⟩ := List.mem_map.mp sent
      obtain ⟨present, listens⟩ := List.mem_filter.mp inside
      exact .say payload other present roomID speaks (of_decide_eq_true listens)
  | malformed => exact repliedOnce_silent rfl (by simp [Service.answers])
  | unknown => exact repliedOnce_single rfl .unknown
  | short => exact repliedOnce_single rfl .short

theorem direct_of_repliedOnce {outputs : List (Handle × Answer)} (replied : RepliedOnce service member query outputs) :
    ∃ replies, List.Forall₂ Replies ([query].filter awaits) replies ∧
      ∀ handle, (toward handle outputs).filter direct = if member.handle = handle then replies else [] := by
  obtain ⟨replies, pushed, rfl, paired, pushes⟩ := replied
  refine ⟨replies, paired, fun handle => ?_⟩
  have others : (toward handle pushed).filter direct = [] := by
    rw [List.filter_eq_nil_iff]
    intro answer received
    simpa using not_direct_of_pushes (pushes _ (mem_toward.mp received))
  rw [toward_append, List.filter_append, others, List.append_nil]
  clear others pushes
  generalize [query].filter awaits = queries at paired
  induction paired with
  | nil => simp
  | @cons query answer _ _ here _ ih =>
    rw [List.map_cons, toward_cons, List.filter_append, ih]
    by_cases own : member.handle = handle
    · simp [own, direct_of_replies here]
    · simp [own]

end Pairing

section Reactions
variable {host : Host} {service next : Service} {outputs : List (Handle × Answer)}

theorem react_asked_eq_some {handle : Handle} {query : Query} {ambient : Ambient}
    (accepted : react host service (.asked handle query ambient) = some (next, outputs)) :
    ∃ member ∈ service.members, member.handle = handle ∧ next = service.update ambient handle query ∧
      outputs = service.answers host ambient member query := by
  obtain ⟨member, found, same⟩ := Option.map_eq_some_iff.mp accepted
  cases same
  have named := List.find?_some found
  simp only [decide_eq_true_eq] at named
  exact ⟨member, List.mem_of_find?_eq_some found, named, rfl, rfl⟩

theorem react_arrived_eq_some {handle : Handle} {greeted : Bool}
    (accepted : react host service (.arrived handle greeted) = some (next, outputs)) :
    ∃ fresh : service.bound ≤ handle, next = service.welcome handle fresh ∧
      outputs = if greeted then [(handle, .motd)] else [] := by
  simp only [react] at accepted
  split at accepted
  · next fresh =>
    cases accepted
    exact ⟨fresh, rfl, rfl⟩
  · cases accepted

theorem react_left_eq_some {handle : Handle} (accepted : react host service (.left handle) = some (next, outputs)) :
    next = service.dismiss handle ∧ outputs = [] := by
  simp only [react] at accepted
  split at accepted
  · cases accepted
    exact ⟨rfl, rfl⟩
  · cases accepted

end Reactions

section Runs
variable {host : Host} {origin service : Service} {events : List Event} {outputs : List (Handle × Answer)}
  (reacts : Reacts (react host) origin events outputs service)

include reacts in
/-- What a member is told directly are the replies to its queries, one for each that waits, in order. -/
theorem replies_paired (handle : Handle) :
    List.Forall₂ Replies ((toward handle (asked events)).filter awaits) ((toward handle outputs).filter direct) := by
  induction reacts with
  | nil => exact .nil
  | @snoc events outputs more service next event before accepted ih =>
    rw [asked_append, toward_append, toward_append, List.filter_append, List.filter_append]
    refine List.rel_append ih ?_
    cases event with
    | arrived newcomer greeted =>
      obtain ⟨fresh, -, rfl⟩ := react_arrived_eq_some accepted
      have greeting : (toward handle (if greeted then [(newcomer, Answer.motd)] else [])).filter direct = [] := by
        split
        · by_cases own : newcomer = handle <;> simp [own, direct]
        · rfl
      rw [greeting]
      exact .nil
    | refused =>
      cases accepted
      exact .nil
    | left leaver =>
      obtain ⟨-, rfl⟩ := react_left_eq_some accepted
      exact .nil
    | asked asker query ambient =>
      obtain ⟨member, -, rfl, -, rfl⟩ := react_asked_eq_some accepted
      obtain ⟨replies, paired, received⟩ := direct_of_repliedOnce (repliedOnce_answers host ambient service member query)
      rw [received handle]
      by_cases own : member.handle = handle
      · simpa [asked, own] using paired
      · simp [asked, own]
    | ended =>
      cases accepted
      exact .nil

end Runs

/-- The opcodes that a packet can be replied to with; with none of them it is not replied to. -/
def replyOpcodes (packet : List Byte) : List (Option Opcode) :=
  if packet.length < 2 then [none]
  else
    match opcodeOf packet with
    | some .cmsgEchoRequest => [some .smsgEchoRequest]
    | some .cmsgAdditionRequest => if 6 ≤ packet.length then [some .smsgAdditionRequest] else []
    | some .cmsgBroadcastMessage => []
    | some .cmsgGetClientList => [some .smsgClientList]
    | some .cmsgSendMsgToClient => if 10 ≤ packet.length then [some .smsgPrivateMsgErr] else []
    | some .cmsgPing => [some .smsgPong]
    | some .cmsgUptime => [some .smsgUptime]
    | some .cmsgIncrementCounter => []
    | some .cmsgGetCounter => [some .smsgCounter]
    | some .cmsgJoinRoom => if packet.length = 35 then [some .smsgJoinChatRoomOk, some .smsgJoinChatRoomErr] else []
    | some .cmsgSay => [some .smsgSayOk, some .smsgSayErr]
    | _ => [some .smsgMessage]

def pushedOpcodes : List (Option Opcode) :=
  [some .smsgMotd, some .smsgBroadcast, some .smsgPrivateMessage, some .smsgSay]

/-- The reply is of the packet's kind, an echo repeats its text, and a confirmed room is the one asked for. -/
structure AnsweredBy (packet reply : List Byte) : Prop where
  inKind : opcodeOf reply ∈ replyOpcodes packet
  echoed : opcodeOf reply = some .smsgEchoRequest → reply.drop 2 = packet.drop 2
  entered : opcodeOf reply = some .smsgJoinChatRoomOk → reply.drop 2 = (packet.drop 2).take 1

section Wire
variable {host : Host} {packet : List Byte} {query : Query}

/-- What some real machine takes the packet for. -/
def Read (host : Host) (packet : List Byte) (query : Query) : Prop :=
  ∃ ambient buffer, understood host (physicalView ambient (receive buffer packet)) packet = .ok query

def requestOpcodes : List Opcode :=
  [.cmsgEchoRequest, .cmsgAdditionRequest, .cmsgBroadcastMessage, .cmsgGetClientList, .cmsgSendMsgToClient, .cmsgUptime,
    .cmsgPing, .cmsgIncrementCounter, .cmsgGetCounter, .cmsgGetChatRooms, .cmsgGetRoomInfo, .cmsgJoinRoom, .cmsgSay]

/-- Every way a packet with an opcode can be taken for a query. -/
inductive Asks (packet : List Byte) : Query → Prop where
  | echo (is : opcodeOf packet = some .cmsgEchoRequest) : Asks packet (.echo (packet.drop 2))
  | add (is : opcodeOf packet = some .cmsgAdditionRequest) (large : 6 ≤ packet.length) (numbers : List Number) :
      Asks packet (.add numbers)
  | shortAddition (is : opcodeOf packet = some .cmsgAdditionRequest) (small : ¬ 6 ≤ packet.length) : Asks packet .malformed
  | broadcast (is : opcodeOf packet = some .cmsgBroadcastMessage) : Asks packet (.broadcast (packet.drop 2))
  | getClients (is : opcodeOf packet = some .cmsgGetClientList) : Asks packet .getClients
  | tell (is : opcodeOf packet = some .cmsgSendMsgToClient) (large : 10 ≤ packet.length) (target : BitVec 64)
      (message : List Byte) : Asks packet (.tell target message)
  | shortTell (is : opcodeOf packet = some .cmsgSendMsgToClient) (small : ¬ 10 ≤ packet.length) : Asks packet .malformed
  | ping (is : opcodeOf packet = some .cmsgPing) : Asks packet .ping
  | uptime (is : opcodeOf packet = some .cmsgUptime) : Asks packet .uptime
  | increment (is : opcodeOf packet = some .cmsgIncrementCounter) : Asks packet .increment
  | getCounter (is : opcodeOf packet = some .cmsgGetCounter) : Asks packet .getCounter
  | getRooms (is : opcodeOf packet = some .cmsgGetChatRooms) : Asks packet .getRooms
  | getRoomInfo (is : opcodeOf packet = some .cmsgGetRoomInfo) : Asks packet .getRoomInfo
  | join (is : opcodeOf packet = some .cmsgJoinRoom) (size : packet.length = 35) :
      Asks packet (.join (packet[2]?.getD 0) (packet.drop 3))
  | otherJoin (is : opcodeOf packet = some .cmsgJoinRoom) (size : packet.length ≠ 35) : Asks packet .malformed
  | say (is : opcodeOf packet = some .cmsgSay) : Asks packet (.say (packet.drop 2))
  | unknown (other : ∀ opcode ∈ requestOpcodes, opcodeOf packet ≠ some opcode) : Asks packet .unknown

theorem asks_of_read (read : Read host packet query) :
    packet.length < 2 ∧ query = .short ∨ 2 ≤ packet.length ∧ Asks packet query := by
  obtain ⟨ambient, buffer, means⟩ := read
  by_cases short : packet.length < 2
  · rw [understood, if_pos short] at means
    exact .inl ⟨short, (Except.ok.inj means).symm⟩
  · refine .inr ⟨not_lt.mp short, ?_⟩
    simp only [understood, if_neg short] at means
    split at means
    case h_2 is =>
      split at means
      · next large =>
        obtain ⟨state, -, returned⟩ := bind_eq_ok.mp means
        exact Except.ok.inj returned ▸ .add is large state.numbers
      · next small => exact Except.ok.inj means ▸ .shortAddition is small
    case h_5 is =>
      split at means
      · next large =>
        obtain ⟨message, -, returned⟩ := bind_eq_ok.mp means
        exact Except.ok.inj returned ▸ .tell is large _ message
      · next small => exact Except.ok.inj means ▸ .shortTell is small
    case h_12 is =>
      split at means
      · next size => exact Except.ok.inj means ▸ .join is size.symm
      · next size => exact Except.ok.inj means ▸ .otherJoin is fun same => size same.symm
    case h_14 =>
      refine Except.ok.inj means ▸ .unknown fun opcode request is => ?_
      simp only [requestOpcodes, List.mem_cons, List.not_mem_nil, or_false] at request
      rcases request with rfl | rfl | rfl | rfl | rfl | rfl | rfl | rfl | rfl | rfl | rfl | rfl | rfl <;> contradiction
    all_goals
      next is =>
      cases means
      constructor
      exact is

def replyKinds : Query → List (Option Opcode)
  | .echo _ => [some .smsgEchoRequest]
  | .add _ => [some .smsgAdditionRequest]
  | .broadcast _ | .increment | .malformed => []
  | .getClients => [some .smsgClientList]
  | .tell _ _ => [some .smsgPrivateMsgErr]
  | .ping => [some .smsgPong]
  | .uptime => [some .smsgUptime]
  | .getCounter => [some .smsgCounter]
  | .getRooms | .getRoomInfo | .unknown => [some .smsgMessage]
  | .join _ _ => [some .smsgJoinChatRoomOk, some .smsgJoinChatRoomErr]
  | .say _ => [some .smsgSayOk, some .smsgSayErr]
  | .short => [none]

theorem awaits_iff (query : Query) : awaits query = true ↔ replyKinds query ≠ [] := by
  cases query <;> simp [awaits, replyKinds]

theorem opcodeOf_invalid : opcodeOf (text "Invalid packet.") = none := by decide

theorem opcodeOf_replies {answer : Answer} (replies : Replies query answer) (order : ByteOrder) :
    opcodeOf (answer.bytes order) ∈ replyKinds query := by
  cases replies <;> simp [Answer.bytes, replyKinds, opcodeOf_invalid]

theorem replyOpcodes_of_read (read : Read host packet query) : replyOpcodes packet = replyKinds query := by
  obtain ⟨short, rfl⟩ | ⟨long, asks⟩ := asks_of_read read
  · exact if_pos short
  · rw [replyOpcodes, if_neg (not_lt.mpr long)]
    cases asks with
    | unknown other =>
      split
      case h_12 => rfl
      all_goals
        next is => exact absurd is (other _ (by decide))
    | add is size | shortAddition is size | tell is size | shortTell is size | join is size | otherJoin is size =>
      simp [is, size, replyKinds]
    | _ => simp [*, replyKinds]

theorem content_of_read (read : Read host packet query) :
    (∀ payload, query = .echo payload → payload = packet.drop 2) ∧
      ∀ roomID hash, query = .join roomID hash → [roomID] = (packet.drop 2).take 1 := by
  obtain ⟨short, rfl⟩ | ⟨long, asks⟩ := asks_of_read read
  · simp
  · cases asks with
    | echo => simp
    | join is size =>
      refine ⟨by simp, ?_⟩
      rintro roomID hash ⟨⟩
      rw [List.drop_eq_getElem_cons (by omega), List.getElem?_eq_getElem (by omega)]
      rfl
    | _ => simp

theorem answeredBy_of_replies (read : Read host packet query) {answer : Answer} (replies : Replies query answer)
    (order : ByteOrder) : AnsweredBy packet (answer.bytes order) := by
  refine ⟨?_, fun isEcho => ?_, fun isJoined => ?_⟩
  · rw [replyOpcodes_of_read read]
    exact opcodeOf_replies replies order
  · cases replies with
    | echo payload =>
      rw [← (content_of_read read).1 payload rfl]
      exact List.drop_left' (opcodeBytes_length _)
    | _ => simp [Answer.bytes, opcodeOf_invalid] at isEcho
  · cases replies with
    | joined roomID hash =>
      rw [← (content_of_read read).2 roomID hash rfl]
      exact List.drop_left' (opcodeBytes_length _)
    | _ => simp [Answer.bytes, opcodeOf_invalid] at isJoined

theorem opcodeOf_motdPacket : opcodeOf motdPacket = some .smsgMotd := by decide

theorem direct_iff (order : ByteOrder) (answer : Answer) :
    direct answer = true ↔ opcodeOf (answer.bytes order) ∉ pushedOpcodes := by
  cases answer <;> simp [direct, Answer.bytes, pushedOpcodes, opcodeOf_invalid, opcodeOf_motdPacket]

theorem toward_encode (order : ByteOrder) (outputs : List (Handle × Answer)) (handle : Handle) :
    toward (some handle) (outputs.map (encode order)) = (toward handle outputs).map (Answer.bytes order) := by
  induction outputs with
  | nil => rfl
  | cons output outputs ih =>
    rw [List.map_cons, toward_cons, toward_cons, ih, List.map_append]
    by_cases own : output.1 = handle
    · simp [encode, own]
    · simp [encode, own]

theorem bytesRead_eq_toward (ssl : Option Handle) (calls : List Call) : bytesRead ssl calls = toward ssl (packetsRead calls) := by
  unfold bytesRead toward packetsRead
  rw [List.filterMap_filterMap]
  apply List.filterMap_congr
  intro call _
  cases call with
  | sslRead handle result => cases result <;> rfl
  | _ => rfl

end Wire

/-- Every packet that is to be replied to gets exactly one reply, of its kind, and
the replies reach a session in the order in which its packets were read. -/
theorem every_request_replied (host : Host) (boot : Boot) (inputs : List Input) (config : Config)
    (ran : ServerRun host (fun input _ => WritesWhole input.ambient) boot inputs config) (handle : Handle) :
    List.Forall₂ AnsweredBy
      ((bytesRead (some handle) config.trace).filter fun packet => replyOpcodes packet ≠ [])
      ((toward (some handle) (packetsWritten config.trace)).filter fun reply => opcodeOf reply ∉ pushedOpcodes) := by
  obtain ⟨events, outputs, service, reacts, -, recounts⟩ := follows_of_run ran
  obtain ⟨written, means⟩ := recounts.explains
  have read : List.Forall₂ (Read host) (bytesRead (some handle) config.trace) (toward handle (asked events)) := by
    rw [bytesRead_eq_toward]
    refine toward_rel (means.imp fun packet ask meant => ⟨?_, meant.2⟩)
    rw [meant.1, Option.some.injEq]
  have requests : List.Forall₂ (Read host)
      ((bytesRead (some handle) config.trace).filter fun packet => replyOpcodes packet ≠ [])
      ((toward handle (asked events)).filter awaits) := by
    refine List.rel_filter ?_ read
    intro packet query read
    show decide (replyOpcodes packet ≠ []) = true ↔ awaits query = true
    rw [decide_eq_true_eq, awaits_iff, replyOpcodes_of_read read]
  have replies : (toward (some handle) (packetsWritten config.trace)).filter (fun reply => opcodeOf reply ∉ pushedOpcodes) =
      ((toward handle outputs).filter direct).map (Answer.bytes host.order) := by
    rw [written, toward_encode, List.filter_map]
    congr 1
    apply List.filter_congr
    intro answer _
    rw [Function.comp_apply, Bool.eq_iff_iff, decide_eq_true_eq, direct_iff host.order]
  rw [replies, List.forall₂_map_right_iff]
  refine forall₂_comp ?_ requests (replies_paired reacts handle)
  intro packet query answer read paired
  exact answeredBy_of_replies read paired host.order

/-- The pong answers the ping, the greeting nothing. -/
theorem every_request_replied_ping : List.Forall₂ AnsweredBy [opcodeBytes .cmsgPing] [opcodeBytes .smsgPong] := by
  obtain ⟨config, ran⟩ : ∃ config, run (step exampleHost) (askedOnce pingPacket) (exampleBoot []).config = .ok config :=
    ⟨_, rfl⟩
  have paired := every_request_replied exampleHost (exampleBoot []) (askedOnce pingPacket) config
    (Execution.of_run_permitted (askedOnce_whole pingPacket) ran) 0
  cases ran
  exact paired

end Communo.ServiceLaws
