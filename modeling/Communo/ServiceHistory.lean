import Communo.ServiceLaws

/-! What a session can tell from the packets it has been sent: it has all the
broadcasts since it came, and it knows the room that the server holds it in. -/

namespace Communo.ServiceHistory
open Lib.ByteCodec Lib.CheckedMemory Lib.Runs Lib.KeyedList Lib.Transducers Protocol NumParser Chat Session Handlers MainLoop
  Dispatch Transitions Survival Writes Framing RoomPassword SessionTable ClientList ChatService Refinement ServiceRuns ServiceLaws

def shout : Query → Option (List Byte)
  | .broadcast payload => some payload
  | _ => none

def shouted (events : List Event) : List (List Byte) := (asked events).filterMap fun ask => shout ask.2

def heard (answers : List Answer) : List (List Byte) :=
  answers.filterMap fun
    | .broadcast payload => some payload
    | _ => none

def entered (answers : List Answer) : List Byte :=
  answers.filterMap fun
    | .joined roomID => some roomID
    | _ => none

@[simp]
theorem shouted_append (first second : List Event) : shouted (first ++ second) = shouted first ++ shouted second := by
  simp only [shouted, asked_append, List.filterMap_append]

@[simp]
theorem heard_append (first second : List Answer) : heard (first ++ second) = heard first ++ heard second :=
  List.filterMap_append

@[simp]
theorem entered_append (first second : List Answer) : entered (first ++ second) = entered first ++ entered second :=
  List.filterMap_append

section Answers
variable {host : Host} {ambient : Ambient} {service : Service} {member : Member} {query : Query}

theorem outcome_of_answers {output : Handle × Answer} (sent : output ∈ service.answers host ambient member query) :
    (∃ answer, Replies query answer ∧ output = (member.handle, answer)) ∨ Pushes service member query output := by
  obtain ⟨replies, pushed, same, paired, pushes⟩ := repliedOnce_answers host ambient service member query
  rw [same, List.mem_append] at sent
  rcases sent with replied | later
  · obtain ⟨answer, inside, rfl⟩ := List.mem_map.mp replied
    refine Or.inl ⟨answer, ?_, rfl⟩
    cases waits : awaits query with
    | false =>
      rw [List.filter_cons_of_neg (by simp [waits]), List.filter_nil, List.forall₂_nil_left_iff] at paired
      simp [paired] at inside
    | true =>
      rw [List.filter_cons_of_pos waits, List.filter_nil] at paired
      cases paired with
      | cons here rest =>
        cases rest
        exact List.mem_singleton.mp inside ▸ here
  · exact Or.inr (pushes output later)

theorem toward_stranger (present : member ∈ service.members) {handle : Handle} (stranger : handle ∉ service.handles) :
    toward handle (service.answers host ambient member query) = [] := by
  rw [List.eq_nil_iff_forall_not_mem]
  intro answer received
  rcases outcome_of_answers (mem_toward.mp received) with ⟨reply, -, same⟩ | pushes
  · exact stranger ((Prod.mk.inj same).1 ▸ List.mem_map_of_mem present)
  · cases pushes with
    | broadcast _ other inside => exact stranger (List.mem_map_of_mem inside)
    | privateMessage _ other inside => exact stranger (List.mem_map_of_mem inside)
    | say _ other inside => exact stranger (List.mem_map_of_mem inside)

theorem heard_answers (handle : Handle) :
    heard (toward handle (service.answers host ambient member query)) =
      if handle ∈ service.handles then shouted [.asked member.handle query ambient] else [] := by
  by_cases broadcasts : ∃ payload, query = .broadcast payload
  · obtain ⟨payload, rfl⟩ := broadcasts
    rw [Service.answers, toward_map service.distinct]
    by_cases present : handle ∈ service.handles
    · rw [if_pos present]
      exact congrArg heard (if_pos present)
    · rw [if_neg present]
      exact congrArg heard (if_neg present)
  · have unshouted : shouted [.asked member.handle query ambient] = [] := by
      cases query with
      | broadcast payload => exact absurd ⟨payload, rfl⟩ broadcasts
      | _ => rfl
    rw [unshouted, ite_self]
    apply List.filterMap_eq_nil_iff.mpr
    intro answer received
    rcases outcome_of_answers (mem_toward.mp received) with ⟨reply, replies, same⟩ | pushes
    · obtain rfl := (Prod.mk.inj same).2
      cases replies <;> rfl
    · cases pushes with
      | broadcast payload => exact absurd ⟨payload, rfl⟩ broadcasts
      | _ => rfl

def admittedTo (ambient : Ambient) (service : Service) : Query → Option Byte
  | .join roomID hash => if service.verdict ambient roomID hash = .ok then some roomID else none
  | _ => none

theorem entered_answers (handle : Handle) :
    entered (toward handle (service.answers host ambient member query)) =
      if member.handle = handle then (admittedTo ambient service query).toList else [] := by
  by_cases joins : ∃ roomID hash, query = .join roomID hash
  · obtain ⟨roomID, hash, rfl⟩ := joins
    rw [Service.answers, toward_cons, toward_nil, List.append_nil]
    by_cases own : member.handle = handle
    · rw [if_pos own, if_pos own, admittedTo]
      split <;> rfl
    · rw [if_neg own, if_neg own]
      rfl
  · have nowhere : admittedTo ambient service query = none := by
      cases query with
      | join roomID hash => exact absurd ⟨roomID, hash, rfl⟩ joins
      | _ => rfl
    rw [nowhere, Option.toList_none, ite_self]
    apply List.filterMap_eq_nil_iff.mpr
    intro answer received
    rcases outcome_of_answers (mem_toward.mp received) with ⟨reply, replies, same⟩ | pushes
    · obtain rfl := (Prod.mk.inj same).2
      cases replies with
      | joined roomID hash => exact absurd ⟨roomID, hash, rfl⟩ joins
      | _ => rfl
    · cases pushes <;> rfl

theorem mem_update {later : Member} (present : later ∈ (service.update ambient member.handle query).members) :
    ∃ before ∈ service.members, before.handle = later.handle ∧ later.room =
      if member.handle = later.handle then (admittedTo ambient service query).or before.room else before.room := by
  by_cases joins : ∃ roomID hash, query = .join roomID hash ∧ service.verdict ambient roomID hash = .ok
  · obtain ⟨roomID, hash, rfl, accepted⟩ := joins
    rw [Service.update, Service.join_members, if_pos accepted] at present
    obtain ⟨before, inside, rfl⟩ := List.mem_map.mp present
    refine ⟨before, inside, (Member.enter_handle ..).symm, ?_⟩
    rw [Member.enter_handle, admittedTo, if_pos accepted, Member.enter]
    by_cases own : before.handle = member.handle
    · rw [if_pos own, if_pos own.symm]
      rfl
    · rw [if_neg own, if_neg fun same => own same.symm]
  · have nowhere : admittedTo ambient service query = none := by
      cases query with
      | join roomID hash => exact if_neg fun accepted => joins ⟨roomID, hash, rfl, accepted⟩
      | _ => rfl
    have kept : later ∈ service.members := by
      cases query with
      | join roomID hash =>
        rwa [Service.update, Service.join_members, if_neg fun accepted => joins ⟨roomID, hash, rfl, accepted⟩] at present
      | _ => exact present
    refine ⟨later, kept, rfl, ?_⟩
    rw [nowhere, Option.none_or, ite_self]

end Answers

section Reactions
variable {host : Host} {service next : Service} {event : Event} {outputs : List (Handle × Answer)}
  (accepted : react host service event = some (next, outputs))
include accepted

theorem bound_le_of_react : service.bound ≤ next.bound := by
  cases event with
  | arrived handle greeted =>
    obtain ⟨fresh, rfl, -⟩ := react_arrived_eq_some accepted
    exact fresh.trans (Nat.le_succ handle)
  | refused =>
    cases accepted
    exact le_rfl
  | left handle =>
    obtain ⟨rfl, -⟩ := react_left_eq_some accepted
    exact le_rfl
  | asked handle query ambient =>
    obtain ⟨member, -, -, rfl, -⟩ := react_asked_eq_some accepted
    exact (Service.update_bound ..).ge
  | ended =>
    cases accepted
    exact le_rfl

theorem mem_handles_of_react {handle : Handle} (old : handle < service.bound) (remains : handle ∈ next.handles) :
    handle ∈ service.handles := by
  cases event with
  | arrived newcomer greeted =>
    obtain ⟨fresh, rfl, -⟩ := react_arrived_eq_some accepted
    rw [Service.handles, Service.welcome_members, List.map_append, List.mem_append] at remains
    rcases remains with before | new
    · exact before
    · rw [List.map_cons, List.map_nil, List.mem_singleton] at new
      exact absurd (lt_of_lt_of_le old fresh) (new ▸ lt_irrefl newcomer)
  | refused =>
    cases accepted
    exact remains
  | left leaver =>
    obtain ⟨rfl, -⟩ := react_left_eq_some accepted
    exact List.filter_sublist.map Member.handle |>.subset remains
  | asked asker query ambient =>
    obtain ⟨member, -, -, rfl, -⟩ := react_asked_eq_some accepted
    rwa [Service.update_handles] at remains
  | ended =>
    cases accepted
    exact absurd remains List.not_mem_nil

theorem heard_of_react {handle : Handle} (present : handle ∈ service.handles) :
    heard (toward handle outputs) = shouted [event] := by
  cases event with
  | arrived newcomer greeted =>
    obtain ⟨-, -, rfl⟩ := react_arrived_eq_some accepted
    split
    · by_cases own : newcomer = handle <;> simp [own, heard, shouted, asked]
    · rfl
  | refused =>
    cases accepted
    rfl
  | left leaver =>
    obtain ⟨-, rfl⟩ := react_left_eq_some accepted
    rfl
  | asked asker query ambient =>
    obtain ⟨member, -, rfl, -, rfl⟩ := react_asked_eq_some accepted
    rw [heard_answers, if_pos present]
  | ended =>
    cases accepted
    rfl

/-- How a member came to the room it is in after an event. -/
inductive Lodges (service : Service) (event : Event) (outputs : List (Handle × Answer)) (later : Member) : Prop where
  | newcomer (fresh : service.bound ≤ later.handle) (room : later.room = none)
      (untold : entered (toward later.handle outputs) = [])
  | stays (before : Member) (present : before ∈ service.members) (handle : before.handle = later.handle)
      (room : later.room = before.room) (untold : entered (toward later.handle outputs) = [])
  | moves (roomID : Byte) (hash : List Byte) (ambient : Ambient)
      (asks : event = .asked later.handle (.join roomID hash) ambient)
      (admitted : service.verdict ambient roomID hash = .ok) (room : later.room = some roomID)
      (told : entered (toward later.handle outputs) = [roomID])

theorem lodges_of_react {later : Member} (present : later ∈ next.members) : Lodges service event outputs later := by
  cases event with
  | arrived newcomer greeted =>
    obtain ⟨fresh, rfl, rfl⟩ := react_arrived_eq_some accepted
    have untold : entered (toward later.handle (if greeted then [(newcomer, Answer.motd)] else [])) = [] := by
      split
      · by_cases own : newcomer = later.handle <;> simp [own, entered]
      · rfl
    rw [Service.welcome_members, List.mem_append, List.mem_singleton] at present
    rcases present with old | new
    · exact .stays later old rfl rfl untold
    · exact .newcomer (new ▸ fresh) (new ▸ rfl) untold
  | refused =>
    cases accepted
    exact .stays later present rfl rfl rfl
  | left leaver =>
    obtain ⟨rfl, rfl⟩ := react_left_eq_some accepted
    exact .stays later (List.mem_of_mem_filter present) rfl rfl rfl
  | asked asker query ambient =>
    obtain ⟨member, -, rfl, rfl, rfl⟩ := react_asked_eq_some accepted
    obtain ⟨before, inside, same, room⟩ := mem_update present
    by_cases own : member.handle = later.handle
    · rw [if_pos own] at room
      cases lets : admittedTo ambient service query with
      | none =>
        refine .stays before inside same (by simpa [lets] using room) ?_
        rw [entered_answers, if_pos own, lets, Option.toList_none]
      | some roomID =>
        cases query with
        | join wanted hash =>
          by_cases admitted : service.verdict ambient wanted hash = .ok
          · refine .moves wanted hash ambient (own ▸ rfl) admitted ?_ ?_
            · rw [room, admittedTo, if_pos admitted, Option.some_or]
            · rw [entered_answers, if_pos own, admittedTo, if_pos admitted, Option.toList_some]
          · rw [admittedTo, if_neg admitted] at lets
            cases lets
        | _ => cases lets
    · rw [if_neg own] at room
      refine .stays before inside same room ?_
      rw [entered_answers, if_neg own]
  | ended =>
    cases accepted
    exact absurd present List.not_mem_nil

theorem toward_fresh {handle : Handle} (fresh : next.bound ≤ handle) : toward handle outputs = [] := by
  cases event with
  | arrived newcomer greeted =>
    obtain ⟨_, rfl, rfl⟩ := react_arrived_eq_some accepted
    have apart : newcomer ≠ handle := Nat.ne_of_lt fresh
    split
    · simp [apart]
    · rfl
  | refused =>
    cases accepted
    rfl
  | left leaver =>
    obtain ⟨-, rfl⟩ := react_left_eq_some accepted
    rfl
  | asked asker query ambient =>
    obtain ⟨member, present, rfl, rfl, rfl⟩ := react_asked_eq_some accepted
    rw [Service.update_bound] at fresh
    refine toward_stranger present fun inside => ?_
    obtain ⟨other, old, rfl⟩ := List.mem_map.mp inside
    exact absurd (service.spent other old) (not_lt.mpr fresh)
  | ended =>
    cases accepted
    rfl

theorem lookup_of_react {roomID : Byte} {room : ChatRoom} (found : service.rooms.lookup roomID = some room) :
    next.rooms.lookup roomID = some room := by
  have visited (other : Byte) : (service.visit other).rooms.lookup roomID = some room := by
    rw [Service.visit_rooms, lookup_index]
    split
    · next same => rw [← same, found, Option.getD_some]
    · exact found
  cases event with
  | arrived newcomer greeted =>
    obtain ⟨fresh, rfl, -⟩ := react_arrived_eq_some accepted
    exact found
  | refused =>
    cases accepted
    exact found
  | left leaver =>
    obtain ⟨rfl, -⟩ := react_left_eq_some accepted
    exact found
  | asked asker query ambient =>
    obtain ⟨member, -, -, rfl, -⟩ := react_asked_eq_some accepted
    cases query with
    | join other hash =>
      rw [Service.update, Service.join]
      split
      · exact visited other
      · exact visited other
    | _ => exact found
  | ended =>
    cases accepted
    exact found

end Reactions

section Runs
variable {host : Host} {origin service : Service} {events : List Event} {outputs : List (Handle × Answer)}

theorem bound_le_of_reacts (reacts : Reacts (react host) origin events outputs service) :
    origin.bound ≤ service.bound :=
  reacts.invariant (I := fun later => origin.bound ≤ later.bound)
    (fun _ _ _ _ reached accepted => reached.trans (bound_le_of_react accepted)) le_rfl

/-- Whoever is a member at the end and not a newcomer has heard all that was shouted, once and in order. -/
theorem heard_of_reacts (reacts : Reacts (react host) origin events outputs service) {handle : Handle}
    (old : handle < origin.bound) (remains : handle ∈ service.handles) :
    heard (toward handle outputs) = shouted events := by
  induction reacts with
  | nil => rfl
  | snoc before accepted ih =>
    have present := mem_handles_of_react accepted (lt_of_lt_of_le old (bound_le_of_reacts before)) remains
    rw [toward_append, heard_append, shouted_append, ih present, heard_of_react accepted present]

theorem toward_unborn (reacts : Reacts (react host) origin events outputs service) {handle : Handle}
    (fresh : service.bound ≤ handle) : toward handle outputs = [] := by
  induction reacts with
  | nil => rfl
  | snoc before accepted ih =>
    rw [toward_append, ih ((bound_le_of_react accepted).trans fresh), toward_fresh accepted fresh, List.append_nil]

theorem lookup_of_reacts (reacts : Reacts (react host) origin events outputs service) {roomID : Byte} {room : ChatRoom}
    (found : origin.rooms.lookup roomID = some room) : service.rooms.lookup roomID = some room :=
  reacts.invariant (I := fun later => later.rooms.lookup roomID = some room)
    (fun _ _ _ _ reached accepted => lookup_of_react accepted reached) found

/-- A member is in the room it was told last that it is in. -/
theorem housed_of_reacts {rooms : ChatRooms} (reacts : Reacts (react host) (.opening rooms) events outputs service) :
    ∀ member ∈ service.members, member.room = (entered (toward member.handle outputs)).getLast? := by
  induction reacts with
  | nil => simp [Service.opening]
  | snoc before accepted ih =>
    intro member present
    rw [toward_append, entered_append]
    cases lodges_of_react accepted present with
    | newcomer fresh room untold => rw [untold, toward_unborn before fresh, room]; rfl
    | stays old inside same room untold => rw [untold, List.append_nil, room, ih old inside, same]
    | moves roomID hash ambient asks admitted room told => rw [told, List.getLast?_concat, room]

/-- A digest that lets somebody into a room with a row is the one in the row, unless the loader cuts that short. -/
theorem hash_of_verdict {rows : List Row} {row : Row} (schema : Schema rows) (member : row ∈ rows) {stored hash : List Byte}
    (column : row.passwordHash = some stored) (clean : 0 ∉ stored.take 31) {ambient : Ambient}
    (found : service.rooms.lookup row.roomID = some row.room)
    (admitted : service.verdict ambient row.roomID hash = .ok) : hash = stored := by
  have size : stored.length = digestLength := schema.hashed row member stored column
  have loaded : row.room.passwordHash = cString stored := by simp [Row.room, columnText, column]
  have locked : cString stored ≠ [] := by
    have reaches := (le_length_cString_iff stored 31).mpr ⟨by simp only [size, digestLength]; omega, clean⟩
    rw [← List.length_pos_iff]
    omega
  have compared : Service.comparedHash ambient row.roomID (cString stored) = stored := by
    have read := readBytes_hashMemory ((physicalView ambient fun _ => 0).behindHash row.roomID) size clean
    rw [hashMemory_physical, readBytes_total] at read
    simpa only [Service.comparedHash, Nat.zero_add] using Except.ok.inj read
  simp only [Service.verdict, found, loaded, compared, locked, false_or] at admitted
  split at admitted
  · next same => exact same.symm
  · cases admitted

theorem entitled_of_reacts {rows : List Row} (schema : Schema rows)
    (reacts : Reacts (react host) (.opening (loadRooms rows)) events outputs service) :
    ∀ member ∈ service.members, ∀ roomID, member.room = some roomID →
      ∃ hash, (member.handle, Query.join roomID hash) ∈ asked events ∧
        ∀ row ∈ rows, row.roomID = roomID → ∀ stored, row.passwordHash = some stored → 0 ∉ stored.take 31 → hash = stored := by
  induction reacts with
  | nil => simp [Service.opening]
  | snoc before accepted ih =>
    intro member present roomID inside
    rw [asked_append]
    cases lodges_of_react accepted present with
    | newcomer _ room => exact absurd (room.symm.trans inside) (by simp)
    | stays old kept same room =>
      obtain ⟨hash, wanted, fits⟩ := ih old kept roomID (room ▸ inside)
      exact ⟨hash, List.mem_append_left _ (same ▸ wanted), fits⟩
    | moves other hash ambient asks admitted room =>
      obtain rfl := Option.some.inj (room.symm.trans inside)
      refine ⟨hash, List.mem_append_right _ ?_, ?_⟩
      · rw [asks]
        exact List.mem_singleton_self _
      · rintro row listed rfl stored column clean
        have found := lookup_of_reacts before (lookup_loadRooms schema listed)
        exact hash_of_verdict schema listed column clean found admitted

end Runs

section Trace
variable {host : Host} {calls : List Call} {events : List Event} {outputs : List (Handle × Answer)}

def broadcastsRead (calls : List Call) : List (List Byte) :=
  (packetsRead calls).filterMap fun read =>
    if 2 ≤ read.2.length ∧ opcodeOf read.2 = some .cmsgBroadcastMessage then some (read.2.drop 2) else none

/-- The texts that were handed to `SSL_write` as broadcasts to a handle, in order. -/
def broadcastsWritten (ssl : Option Handle) (calls : List Call) : List (List Byte) :=
  (toward ssl (packetsWritten calls)).filterMap fun packet =>
    if opcodeOf packet = some .smsgBroadcast then some (packet.drop 2) else none

/-- The rooms whose confirmations were handed to `SSL_write` for a handle, in order. -/
def roomsConfirmed (ssl : Option Handle) (calls : List Call) : List Byte :=
  (toward ssl (packetsWritten calls)).filterMap fun packet =>
    if opcodeOf packet = some .smsgJoinChatRoomOk then packet[2]? else none

theorem filterMap_toward_written {β : Type} (explains : Explains host calls events outputs) (handle : Handle)
    (onWire : List Byte → Option β) (ofAnswer : Answer → Option β)
    (agree : ∀ answer, onWire (answer.bytes host.order) = ofAnswer answer) :
    (toward (some handle) (packetsWritten calls)).filterMap onWire = (toward handle outputs).filterMap ofAnswer := by
  rw [explains.1, toward_encode, List.filterMap_map]
  exact List.filterMap_congr fun answer _ => agree answer

theorem broadcastsWritten_eq (explains : Explains host calls events outputs) (handle : Handle) :
    broadcastsWritten (some handle) calls = heard (toward handle outputs) := by
  refine filterMap_toward_written explains handle _ _ fun answer => ?_
  cases answer <;> simp [Answer.bytes, opcodeOf_invalid, opcodeOf_motdPacket]

theorem roomsConfirmed_eq (explains : Explains host calls events outputs) (handle : Handle) :
    roomsConfirmed (some handle) calls = entered (toward handle outputs) := by
  refine filterMap_toward_written explains handle _ _ fun answer => ?_
  cases answer with
  | joined roomID =>
    rw [Answer.bytes, opcodeOf_append, if_pos rfl, List.getElem?_append_right (by rw [opcodeBytes_length])]
    rw [opcodeBytes_length]
    rfl
  | _ => simp [Answer.bytes, opcodeOf_invalid, opcodeOf_motdPacket]

theorem shout_of_read {packet : List Byte} {query : Query} (read : Read host packet query) :
    (if 2 ≤ packet.length ∧ opcodeOf packet = some .cmsgBroadcastMessage then some (packet.drop 2) else none) =
      shout query := by
  obtain ⟨short, rfl⟩ | ⟨long, asks⟩ := asks_of_read read
  · exact if_neg fun long => not_lt.mpr long.1 short
  · cases asks with
    | broadcast is => exact if_pos ⟨long, is⟩
    | unknown other => exact if_neg fun shouts => other _ (by decide) shouts.2
    | _ => simp [*, shout]

theorem broadcastsRead_eq (explains : Explains host calls events outputs) : broadcastsRead calls = shouted events := by
  apply filterMap_eq_of_forall₂
  exact explains.2.imp fun _ _ meant => shout_of_read meant.2

theorem code_of_ofCode {code : Nat} {opcode : Opcode} (named : Opcode.ofCode code = some opcode) : opcode.code = code := by
  unfold Opcode.ofCode at named
  split at named <;> cases named <;> rfl

theorem eq_opcodeBytes_append {packet : List Byte} {opcode : Opcode} (long : 2 ≤ packet.length)
    (is : opcodeOf packet = some opcode) : packet = opcodeBytes opcode ++ packet.drop 2 := by
  have size : (packet.take 2).length = 2 := by simpa using long
  have front := toBytes_ofBytes .big (packet.take 2)
  rw [size, ← code_of_ofCode is] at front
  rw [opcodeBytes, front, List.take_append_drop]

theorem joinPacket_of_read {packet : List Byte} {roomID : Byte} {hash : List Byte}
    (read : Read host packet (.join roomID hash)) : packet = joinPacket roomID hash ∧ hash.length = digestLength := by
  obtain ⟨short, same⟩ | ⟨long, asks⟩ := asks_of_read read
  · cases same
  · cases asks with
    | join is size =>
      refine ⟨(eq_opcodeBytes_append long is).trans ?_, by simp [size, digestLength]⟩
      rw [joinPacket, List.drop_eq_getElem_cons (by omega), List.getElem?_eq_getElem (by omega)]
      rfl

theorem member_of_session {config : Config} {service : Service} (tracks : Tracks config service)
    {session : ClientSocket} (present : session ∈ config.server.clientSockets) :
    session.ssl = some (memberOf session).handle ∧ memberOf session ∈ service.members := by
  refine ⟨ssl_eq tracks.represents present, ?_⟩
  rw [tracks.represents.members]
  exact List.mem_map_of_mem present

theorem mem_handles_of_ssl {config : Config} {service : Service} (tracks : Tracks config service) {handle : Handle}
    (present : some handle ∈ config.server.clientSockets.map ClientSocket.ssl) : handle ∈ service.handles := by
  obtain ⟨session, inside, held⟩ := List.mem_map.mp present
  obtain ⟨named, member⟩ := member_of_session tracks inside
  rw [named] at held
  exact Option.some.inj held ▸ List.mem_map_of_mem member

end Trace

def hiPacket : Received := { bytes := opcodeBytes .cmsgBroadcastMessage ++ text "hi", nonempty := by decide, fits := by decide }

def staffPacket : Received := { bytes := joinPacket 2 (List.replicate 32 0x5e), nonempty := by decide, fits := by decide }

/-- Between two moments at which a client is connected `SSL_write` is handed for it the broadcasts
that the server reads in between, from whomever, each once and in the order of the reads. -/
theorem broadcasts_sent_to_connected (host : Host) (boot : Boot) (early late : List Input) (middle config : Config)
    (ran : ServerRun host (fun input _ => WritesWhole input.ambient) boot early middle)
    (later : Execution (step host) (fun input _ => WritesWhole input.ambient) middle late config) (handle : Handle)
    (present : some handle ∈ middle.server.clientSockets.map ClientSocket.ssl)
    (remains : some handle ∈ config.server.clientSockets.map ClientSocket.ssl) :
    ∃ calls, config.trace = middle.trace ++ calls ∧ broadcastsWritten (some handle) calls = broadcastsRead calls := by
  obtain ⟨-, -, service, -, tracks, -⟩ := follows_of_run ran
  obtain ⟨calls, grown, events, outputs, final, reacts, here, recounts⟩ := follows_of_execution tracks later
  have explains := recounts.explains
  obtain ⟨member, inside, named⟩ := List.mem_map.mp (mem_handles_of_ssl tracks present)
  refine ⟨calls, grown, ?_⟩
  rw [broadcastsWritten_eq explains, broadcastsRead_eq explains]
  exact heard_of_reacts reacts (named ▸ service.spent member inside) (mem_handles_of_ssl here remains)

/-- Somebody who connected first and says "hi" hears it. -/
theorem broadcasts_sent_to_connected_hi :
    ∃ (middle config : Config) (calls : List Call), config.trace = middle.trace ++ calls ∧
      broadcastsWritten (some 0) calls = broadcastsRead calls ∧ broadcastsRead calls = [text "hi"] := by
  obtain ⟨middle, ran⟩ : ∃ middle, run (step exampleHost) untilRead (exampleBoot []).config = .ok middle := ⟨_, rfl⟩
  obtain ⟨config, later⟩ : ∃ config, run (step exampleHost) [deliver hiPacket] middle = .ok config := by
    cases ran
    exact ⟨_, rfl⟩
  have whole := askedOnce_whole hiPacket
  obtain ⟨calls, grown, same⟩ := broadcasts_sent_to_connected exampleHost (exampleBoot []) untilRead [deliver hiPacket]
    middle config (Execution.of_run_permitted (fun input member => whole input (List.mem_append_left _ member)) ran)
    (Execution.of_run_permitted (fun input member => whole input (List.mem_append_right _ member)) later) 0
    (by cases ran; decide) (by cases ran; cases later; decide)
  refine ⟨middle, config, calls, grown, same, ?_⟩
  cases ran
  cases later
  obtain rfl := List.append_cancel_left grown
  rfl

def staffSession : ClientSocket where
  socket := 4
  ssl := some 0
  sslEnabled := true
  chatRoomJoined := true
  joinedChatRoomID := 2

theorem joinedStaff_run :
    ∃ config, ServerRun exampleHost (fun input _ => WritesWhole input.ambient) (exampleBoot sampleRows)
      (askedOnce staffPacket) config ∧ staffSession ∈ config.server.clientSockets := by
  obtain ⟨config, ran⟩ : ∃ config, run (step exampleHost) (askedOnce staffPacket) (exampleBoot sampleRows).config =
      .ok config := ⟨_, rfl⟩
  refine ⟨config, Execution.of_run_permitted (askedOnce_whole staffPacket) ran, ?_⟩
  cases ran
  decide

/-- The server holds a session in the room whose confirmation it handed to `SSL_write` last. -/
theorem room_confirmed_last (host : Host) (boot : Boot) (inputs : List Input) (config : Config)
    (ran : ServerRun host (fun input _ => WritesWhole input.ambient) boot inputs config) (session : ClientSocket)
    (present : session ∈ config.server.clientSockets) :
    (if session.chatRoomJoined then some session.joinedChatRoomID else none) =
      (roomsConfirmed session.ssl config.trace).getLast? := by
  obtain ⟨events, outputs, service, reacts, tracks, recounts⟩ := follows_of_run ran
  have explains := recounts.explains
  obtain ⟨named, member⟩ := member_of_session tracks present
  rw [named, roomsConfirmed_eq explains]
  exact housed_of_reacts reacts (memberOf session) member

theorem room_confirmed_last_staff :
    ∃ (config : Config), some 2 = (roomsConfirmed (some 0) config.trace).getLast? := by
  obtain ⟨config, ran, present⟩ := joinedStaff_run
  exact ⟨config, room_confirmed_last exampleHost (exampleBoot sampleRows) _ config ran staffSession present⟩

/-- Nobody is in a room without having asked for it, and nobody is in one that has a password without having sent that:
the bytes of the row, unless one of the first 31 is a NUL. -/
theorem room_asked_for (host : Host) (boot : Boot) (schema : Schema boot.rows) (inputs : List Input) (config : Config)
    (ran : ServerRun host (fun input _ => WritesWhole input.ambient) boot inputs config) (session : ClientSocket)
    (present : session ∈ config.server.clientSockets) (joined : session.chatRoomJoined = true) :
    ∃ hash, hash.length = digestLength ∧ joinPacket session.joinedChatRoomID hash ∈ bytesRead session.ssl config.trace ∧
      ∀ row ∈ boot.rows, row.roomID = session.joinedChatRoomID →
        ∀ stored, row.passwordHash = some stored → 0 ∉ stored.take 31 → hash = stored := by
  obtain ⟨events, outputs, service, reacts, tracks, recounts⟩ := follows_of_run ran
  obtain ⟨named, member⟩ := member_of_session tracks present
  obtain ⟨hash, wanted, fits⟩ := entitled_of_reacts schema reacts (memberOf session) member session.joinedChatRoomID
    (by simp [memberOf, joined])
  obtain ⟨read, made, sender, meant⟩ := exists_left_of_forall₂ recounts.explains.2 wanted
  obtain ⟨same, size⟩ := joinPacket_of_read meant
  refine ⟨hash, size, ?_, fits⟩
  rw [bytesRead_eq_toward, mem_toward, named, ← same, ← sender]
  exact made

/-- The session in the room of the staff has sent the password of the staff. -/
theorem room_asked_for_staff :
    ∃ (config : Config), staffSession ∈ config.server.clientSockets ∧
      joinPacket 2 (List.replicate 32 0x5e) ∈ bytesRead (some 0) config.trace := by
  obtain ⟨config, ran, present⟩ := joinedStaff_run
  obtain ⟨hash, size, asked, same⟩ :=
    room_asked_for exampleHost (exampleBoot sampleRows) sampleRows_schema _ config ran staffSession present rfl
  have password := same { id := 2, name := some (text "Staff"), passwordHash := some (List.replicate 32 0x5e) } (by decide)
    (by decide) _ rfl (by decide)
  exact ⟨config, present, password ▸ asked⟩

end Communo.ServiceHistory
