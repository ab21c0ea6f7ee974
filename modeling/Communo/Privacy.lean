import Communo.PacketLocality
import Communo.ServiceHistory

/-! What a session cannot tell. Whatever the others ask for themselves or send
to somebody else might as well not have happened. -/

namespace Communo.Privacy
open Lib.ByteCodec Lib.CheckedMemory Lib.Runs Lib.KeyedList Lib.Transducers Protocol NumParser Chat Session Handlers MainLoop
  Dispatch Addition Transitions Faults Survival Writes Framing RoomPassword SessionTable PacketLocality ChatService
  Refinement ServiceRuns ServiceLaws ServiceHistory

/-- A query is of concern to a member with this ID who has not sent it. Whoever joins a
room may have created it, and is heard there. -/
def concerns (clientID : BitVec 64) : Query → Bool
  | .broadcast _ | .increment | .join _ _ | .say _ => true
  | .tell requested _ => requested = clientID
  | _ => false

/-- Comings and goings show in the list of clients. -/
def matters (handle : Handle) (clientID : BitVec 64) : Event → Bool
  | .asked asker query _ => asker = handle || concerns clientID query
  | _ => true

def Identified (handle : Handle) (clientID : BitVec 64) (service : Service) : Prop :=
  (∃ member ∈ service.members, member.handle = handle ∧ member.clientID = clientID) ∨ service.bound ≤ handle

theorem asked_filter (handle : Handle) (clientID : BitVec 64) (events : List Event) :
    asked (events.filter (matters handle clientID)) =
      (asked events).filter fun ask => ask.1 = handle || concerns clientID ask.2 := by
  unfold asked
  rw [List.filterMap_filter, List.filter_filterMap]
  apply List.filterMap_congr
  intro event _
  cases event with
  | asked asker query ambient => rfl
  | _ => simp [matters]

section Reactions
variable {host : Host} {service next : Service} {event : Event} {outputs : List (Handle × Answer)} {handle : Handle}
  {clientID : BitVec 64}

theorem clientID_of_identified (identified : Identified handle clientID service) {other : Member}
    (present : other ∈ service.members) (own : other.handle = handle) : other.clientID = clientID := by
  rcases identified with ⟨member, inside, held, named⟩ | unborn
  · obtain rfl := List.inj_on_of_nodup_map service.distinct present inside (own.trans held.symm)
    exact named
  · exact absurd (own ▸ service.spent other present) (not_lt.mpr unborn)

theorem identity_of_update {ambient : Ambient} {asker : Handle} {query : Query} {later : Member}
    (present : later ∈ (service.update ambient asker query).members) :
    ∃ before ∈ service.members, before.handle = later.handle ∧ before.clientID = later.clientID := by
  cases query with
  | join roomID hash =>
    rw [Service.update, Service.join_members] at present
    split at present
    · obtain ⟨before, inside, rfl⟩ := List.mem_map.mp present
      refine ⟨before, inside, (Member.enter_handle ..).symm, ?_⟩
      unfold Member.enter
      split <;> rfl
    · exact ⟨later, present, rfl, rfl⟩
  | _ => exact ⟨later, present, rfl, rfl⟩

/-- Who somebody is can be told backwards: IDs are kept, and handles are not given out again. -/
theorem identified_of_react (accepted : react host service event = some (next, outputs))
    (identified : Identified handle clientID next) : Identified handle clientID service := by
  rcases identified with ⟨member, present, held, named⟩ | unborn
  · cases event with
    | arrived newcomer greeted =>
      obtain ⟨fresh, rfl, -⟩ := react_arrived_eq_some accepted
      rw [Service.welcome_members, List.mem_append, List.mem_singleton] at present
      rcases present with old | new
      · exact Or.inl ⟨member, old, held, named⟩
      · right
        rw [← held, new]
        exact fresh
    | refused =>
      cases accepted
      exact Or.inl ⟨member, present, held, named⟩
    | left leaver =>
      obtain ⟨rfl, -⟩ := react_left_eq_some accepted
      exact Or.inl ⟨member, List.mem_of_mem_filter present, held, named⟩
    | asked asker query ambient =>
      obtain ⟨sender, -, -, rfl, -⟩ := react_asked_eq_some accepted
      obtain ⟨before, inside, sameHandle, sameID⟩ := identity_of_update present
      exact Or.inl ⟨before, inside, sameHandle.trans held, sameID.trans named⟩
    | ended =>
      cases accepted
      exact absurd present List.not_mem_nil
  · exact Or.inr ((bound_le_of_react accepted).trans unborn)

theorem update_of_unconcerned {ambient : Ambient} {asker : Handle} {query : Query}
    (unconcerned : concerns clientID query = false) : service.update ambient asker query = service := by
  cases query <;> first | rfl | cases unconcerned

theorem toward_of_unconcerned {ambient : Ambient} {sender : Member} {query : Query}
    (identified : Identified handle clientID service) (apart : sender.handle ≠ handle)
    (unconcerned : concerns clientID query = false) :
    toward handle (service.answers host ambient sender query) = [] := by
  rw [List.eq_nil_iff_forall_not_mem]
  intro answer received
  rcases outcome_of_answers (mem_toward.mp received) with ⟨reply, -, same⟩ | pushes
  · exact apart (Prod.mk.inj same).1.symm
  · cases pushes with
    | broadcast payload other => cases unconcerned
    | privateMessage message other inside =>
      have named := clientID_of_identified identified inside rfl
      simp [concerns, named] at unconcerned
    | say payload other => cases unconcerned

theorem idle_of_unconcerned (identified : Identified handle clientID service)
    (accepted : react host service event = some (next, outputs)) (nothing : matters handle clientID event = false) :
    next = service ∧ toward handle outputs = [] := by
  cases event with
  | asked asker query ambient =>
    obtain ⟨sender, -, rfl, rfl, rfl⟩ := react_asked_eq_some accepted
    simp only [matters, Bool.or_eq_false_iff, decide_eq_false_iff_not] at nothing
    exact ⟨update_of_unconcerned nothing.2, toward_of_unconcerned identified nothing.1 nothing.2⟩
  | _ => cases nothing

end Reactions

section Spoken
variable {host : Host} {packet : List Byte} {query : Query}

/-- What a packet asks for when only zeros lie behind it. -/
def spoken (host : Host) (packet : List Byte) : Query :=
  (understood host (physicalView exampleAmbient (receive (fun _ => 0) packet)) packet).toOption.getD .malformed

def AddressedTo (host : Host) (clientID : BitVec 64) (packet : List Byte) : Prop :=
  opcodeOf packet = some .cmsgSendMsgToClient ∧ 10 ≤ packet.length ∧ requestedID host packet = clientID

/-- The query that is asked is what the packet that is read asks for by itself. -/
def Speaks (host : Host) (read : Option Handle × List Byte) (ask : Handle × Query) : Prop :=
  read.1 = some ask.1 ∧ ask.2 = spoken host read.2

theorem ask_of_speaks {handle : Handle} {ask : Handle × Query} (speaks : Speaks host (some handle, packet) ask) :
    ask = (handle, spoken host packet) :=
  Prod.ext (Option.some.inj speaks.1).symm speaks.2

/-- The same query up to what comes from behind the packet. -/
inductive Echoes (host : Host) (packet : List Byte) : Query → Query → Prop where
  | same (query : Query) : Echoes host packet query query
  | told (message other : List Byte) (addressed : AddressedTo host (requestedID host packet) packet) :
      Echoes host packet (.tell (requestedID host packet) message) (.tell (requestedID host packet) other)
  | added (numbers others : List Number) (cuts : CutsNumberShort packet) : Echoes host packet (.add numbers) (.add others)

theorem addition_of_complete {ambient : Ambient} {buffer : Nat → Byte} {received : Received} (host : Host)
    (complete : Complete (received.bytes.drop 2)) (other : Ambient) (stale : Nat → Byte) :
    addLoop host (physicalView other (receive stale received.bytes)).buffer received.bytes.length
        (received.bytes.length - 2) (.start 2) =
      addLoop host (physicalView ambient (receive buffer received.bytes)).buffer received.bytes.length
        (received.bytes.length - 2) (.start 2) := by
  have first := physicalView_delivers ambient buffer received
  have second := physicalView_delivers other stale received
  refine (local_addLoop host received.bytes.length (received.bytes.length - 2) (.start 2)).eq_of_truncate
    (fun address inside => (first address inside).trans (second address inside).symm) ?_
  have alone : ∀ address < received.bytes.length,
      truncate received.bytes.length (physicalView ambient (receive buffer received.bytes)).buffer address =
        received.bytes[address]? :=
    fun address inside => (if_pos inside).trans (first address inside)
  obtain ⟨later, finished⟩ := addLoop_complete alone host (.start 2) complete le_rfl
  exact fun strayed => absurd (finished.symm.trans strayed) (by simp)

/-- A packet is taken for what it asks for by itself, but for two kinds. -/
theorem echoes_of_understood {ambient : Ambient} {buffer : Nat → Byte} {received : Received}
    (means : understood host (physicalView ambient (receive buffer received.bytes)) received.bytes = .ok query) :
    Echoes host received.bytes query (spoken host received.bytes) := by
  have delivers := physicalView_delivers ambient buffer received
  have alone := physicalView_delivers exampleAmbient (fun _ => 0) received
  by_cases short : received.bytes.length < 2
  · simp only [spoken, understood, if_pos short, Except.ok.injEq] at means ⊢
    exact means ▸ .same _
  · simp only [spoken, understood, if_neg short] at means ⊢
    split at means
    case h_2 is =>
      by_cases large : 6 ≤ received.bytes.length
      · simp only [large, Nat.reduceMul, Nat.reduceAdd, if_true] at means ⊢
        obtain ⟨state, decoded, same⟩ := bind_eq_ok.mp means
        cases same
        rcases walk_cases (received.bytes.drop 2) with complete | truncated | unknown
        · rw [addition_of_complete host complete exampleAmbient fun _ => 0, decoded]
          exact .same _
        · obtain ⟨later, finished⟩ : ∃ later, addLoop host (physicalView exampleAmbient (receive (fun _ => 0)
              received.bytes)).buffer received.bytes.length (received.bytes.length - 2) (.start 2) = .ok later :=
            addLoop_truncated_total alone host (.start 2) truncated le_rfl
          rw [finished]
          exact .added _ _ ⟨is, large, truncated⟩
        · cases decoded.symm.trans (addLoop_unknownTag delivers host (.start 2) unknown le_rfl)
      · simp only [large, Nat.reduceMul, Nat.reduceAdd, if_false, Except.ok.injEq] at means ⊢
        exact means ▸ .same _
    case h_5 is =>
      by_cases large : 10 ≤ received.bytes.length
      · simp only [large, Nat.reduceAdd, if_true] at means ⊢
        obtain ⟨message, copied, same⟩ := bind_eq_ok.mp means
        cases same
        obtain ⟨other, alike⟩ : ∃ other, (readBytes (physicalView exampleAmbient (receive (fun _ => 0)
            received.bytes)).buffer 10 received.bytes.length : Checked Exn (List Byte)) = .ok other :=
          ⟨_, readBytes_total _ 10 received.bytes.length⟩
        rw [alike]
        exact .told _ _ ⟨is, large, rfl⟩
      · simp only [large, Nat.reduceAdd, if_false, Except.ok.injEq] at means ⊢
        exact means ▸ .same _
    case h_12 is =>
      by_cases size : 2 + 1 + digestLength = received.bytes.length
      · simp only [if_pos size, Except.ok.injEq] at means ⊢
        exact means ▸ .same _
      · simp only [if_neg size, Except.ok.injEq] at means ⊢
        exact means ▸ .same _
    all_goals exact Except.ok.inj means ▸ .same _

end Spoken

/-- Events that a session cannot tell apart: of its own message it sees no text, and of others' sums nothing. -/
inductive Alike (handle : Handle) (clientID : BitVec 64) : Event → Event → Prop where
  | same (event : Event) : Alike handle clientID event event
  | told (asker : Handle) (ambient : Ambient) (requested : BitVec 64) (message other : List Byte)
      (apart : asker = handle ∨ requested ≠ clientID) :
      Alike handle clientID (.asked asker (.tell requested message) ambient) (.asked asker (.tell requested other) ambient)
  | added (asker : Handle) (ambient : Ambient) (numbers others : List Number) (apart : asker ≠ handle) :
      Alike handle clientID (.asked asker (.add numbers) ambient) (.asked asker (.add others) ambient)

section Replacing
variable {host : Host} {handle : Handle} {clientID : BitVec 64} {event other : Event}

theorem matters_of_alike (alike : Alike handle clientID event other) :
    matters handle clientID other = matters handle clientID event := by
  cases alike <;> rfl

theorem toward_tell {ambient : Ambient} {service : Service} {sender : Member} (present : sender ∈ service.members)
    (requested : BitVec 64) (message other : List Byte) :
    toward sender.handle (service.answers host ambient sender (.tell requested message)) =
      toward sender.handle (service.answers host ambient sender (.tell requested other)) := by
  simp only [Service.answers]
  split
  · rfl
  · next apart =>
    split
    · rfl
    · next recipient found =>
      have named := List.find?_some found
      simp only [decide_eq_true_eq] at named
      have elsewhere : recipient.handle ≠ sender.handle := by
        intro same
        have equal := List.inj_on_of_nodup_map service.distinct (List.mem_of_find?_eq_some found) present same
        exact apart (named.symm.trans (congrArg Member.clientID equal))
      simp [elsewhere]

theorem react_of_alike {service next : Service} {outputs : List (Handle × Answer)}
    (accepted : react host service event = some (next, outputs)) (shown : matters handle clientID event = true)
    (alike : Alike handle clientID event other) :
    ∃ rest, react host service other = some (next, rest) ∧ toward handle rest = toward handle outputs := by
  cases alike with
  | same => exact ⟨outputs, accepted, rfl⟩
  | told asker ambient requested message text apart =>
    have own : asker = handle := by
      rcases apart with own | elsewhere
      · exact own
      · simpa [matters, concerns, elsewhere] using shown
    subst own
    obtain ⟨sender, present, rfl, rfl, rfl⟩ := react_asked_eq_some accepted
    refine ⟨_, ?_, toward_tell present requested text message⟩
    rw [react, Service.find?, find?_key next.distinct present]
    rfl
  | added asker ambient numbers others apart => simp [matters, concerns, apart] at shown

/-- The events of a run with each query replaced by what its packet asks for by itself. -/
theorem exists_spoken {first last : Nat → Byte} {reads : List (Option Handle × List Byte)} {events : List Event}
    (taken : Understood host first last reads (asked events))
    (direct : ∀ read ∈ reads, read.1 ≠ some handle → ¬AddressedTo host clientID read.2)
    (whole : ∀ read ∈ reads, read.1 = some handle → ¬CutsNumberShort read.2) :
    ∃ others, List.Forall₂ (Alike handle clientID) events others ∧ List.Forall₂ (Speaks host) reads (asked others) ∧
      ambients others = ambients events := by
  induction events generalizing first reads with
  | nil =>
    cases taken
    exact ⟨[], .nil, .nil, rfl⟩
  | cons event events ih =>
    cases event with
    | asked asker query ambient =>
      cases taken with
      | cons _ received _ moment means rest =>
        obtain ⟨others, alike, speaks, moments⟩ := ih rest (fun read later => direct read (List.mem_cons_of_mem _ later))
          (fun read later => whole read (List.mem_cons_of_mem _ later))
        refine ⟨.asked asker (spoken host received.bytes) ambient :: others, .cons ?_ alike, .cons ⟨rfl, rfl⟩ speaks,
          congrArg (ambient :: ·) moments⟩
        have here := direct _ List.mem_cons_self
        have uncut := whole _ List.mem_cons_self
        have echoes := echoes_of_understood means
        generalize spoken host received.bytes = heard at echoes ⊢
        cases echoes with
        | same => exact .same _
        | told message text addressed =>
          refine .told asker ambient _ message text ?_
          by_cases own : asker = handle
          · exact Or.inl own
          · exact Or.inr fun same => here (fun equal => own (Option.some.inj equal)) (same ▸ addressed)
        | added numbers others cuts => exact .added asker ambient numbers others fun own => uncut (own ▸ rfl) cuts
    | _ =>
      obtain ⟨others, alike, speaks, moments⟩ := ih taken direct whole
      exact ⟨_ :: others, .cons (.same _) alike, speaks, moments⟩

end Replacing

/-- A session that nobody sends private messages cannot tell what others ask for themselves or
send each other: it is sent just what the service answers it when only the events that matter to
it take place, each query being what its packet alone asks for. -/
theorem private_traffic_unseen (host : Host) (boot : Boot) (inputs : List Input) (config : Config)
    (ran : ServerRun host (fun input _ => WritesWhole input.ambient) boot inputs config) (session : ClientSocket)
    (present : session ∈ config.server.clientSockets)
    (direct : ∀ read ∈ packetsRead config.trace, read.1 ≠ session.ssl → ¬AddressedTo host session.clientID read.2)
    (whole : ∀ read ∈ packetsRead config.trace, read.1 = session.ssl → ¬CutsNumberShort read.2) :
    ∃ events outputs service, List.Forall₂ (Speaks host) (packetsRead config.trace) (asked events) ∧
      (ambients events).Sublist (inputs.map Input.ambient) ∧
      Reacts (react host) (.opening (loadRooms boot.rows))
        (events.filter (matters (memberOf session).handle session.clientID)) outputs service ∧
      Represents config.server service ∧
      toward session.ssl (packetsWritten config.trace) =
        (toward (memberOf session).handle outputs).map (Answer.bytes host.order) := by
  obtain ⟨events, outputs, service, reacts, tracks, recounts⟩ := follows_of_run ran
  obtain ⟨named, member⟩ := member_of_session tracks present
  rw [named] at direct whole
  have identified : Identified (memberOf session).handle session.clientID service := Or.inl ⟨_, member, rfl, rfl⟩
  obtain ⟨others, alike, speaks, moments⟩ := exists_spoken recounts.understood direct whole
  obtain ⟨rest, purged, same⟩ : ∃ rest, Reacts (react host) (.opening (loadRooms boot.rows))
      (others.filter (matters (memberOf session).handle session.clientID)) rest service ∧
        toward (memberOf session).handle rest = toward (memberOf session).handle outputs := by
    refine Reacts.purged ?_ ?_ ?_ ?_ reacts identified alike
    · exact fun _ _ _ _ accepted next => identified_of_react accepted next
    · exact fun _ _ _ _ here accepted nothing => idle_of_unconcerned here accepted nothing
    · exact fun _ _ => matters_of_alike
    · exact fun _ _ _ _ _ accepted shown => react_of_alike accepted shown
  refine ⟨others, rest, service, speaks, moments ▸ recounts.ambients, purged, tracks.represents, ?_⟩
  rw [named, recounts.written, toward_encode]
  exact congrArg (List.map (Answer.bytes host.order)) same.symm

def secretPacket : Received :=
  { bytes := opcodeBytes .cmsgEchoRequest ++ text "secret", nonempty := by decide, fits := by decide }

def pingingSession : ClientSocket where
  socket := 4
  ssl := some 0
  sslEnabled := true

/-- The second client has a secret echoed, and the first, who pings, is sent the same without it. -/
theorem private_traffic_unseen_secret :
    ∃ (config : Config) (events : List Event) (outputs : List (Handle × Answer)) (service : Service),
      asked events = [(0, .ping), (1, .echo (text "secret"))] ∧ asked (events.filter (matters 0 0)) = [(0, .ping)] ∧
      Reacts (react exampleHost) (.opening (loadRooms [])) (events.filter (matters 0 0)) outputs service ∧
      toward (some 0) (packetsWritten config.trace) = (toward 0 outputs).map (Answer.bytes .little) ∧
      toward (some 0) (packetsWritten config.trace) = [motdPacket, opcodeBytes .smsgPong] := by
  obtain ⟨config, ran⟩ : ∃ config, run (step exampleHost) (passWith (arrive 4) [idle] ++ passWith (arrive 5) [idle, idle] ++
    passWith (ready [4, 5]) [deliver pingPacket, deliver secretPacket]) (exampleBoot []).config = .ok config := ⟨_, rfl⟩
  have reads : packetsRead config.trace = [(some 0, pingPacket.bytes), (some 1, secretPacket.bytes)] := by
    cases ran
    rfl
  have written : toward (some 0) (packetsWritten config.trace) = [motdPacket, opcodeBytes .smsgPong] := by
    cases ran
    rfl
  have present : pingingSession ∈ config.server.clientSockets := by
    cases ran
    decide
  obtain ⟨events, outputs, service, speaks, -, reacts, -, seen⟩ :=
    private_traffic_unseen exampleHost (exampleBoot []) _ config
      (Execution.of_run_permitted (writesWhole_of_example rfl) ran) pingingSession present
      (by rw [reads]; simp [pingPacket, secretPacket, AddressedTo])
      (by rw [reads]; simp [pingPacket, secretPacket, CutsNumberShort])
  have queries : asked events = [(0, .ping), (1, .echo (text "secret"))] := by
    rw [reads] at speaks
    generalize asked events = asks at speaks
    obtain ⟨first, later, here, others, rfl⟩ := List.forall₂_cons_left_iff.mp speaks
    obtain ⟨second, rest, there, nobody, rfl⟩ := List.forall₂_cons_left_iff.mp others
    obtain rfl := List.forall₂_nil_left_iff.mp nobody
    rw [ask_of_speaks here, ask_of_speaks there]
    decide
  refine ⟨config, events, outputs, service, queries, ?_, reacts, seen, written⟩
  rw [asked_filter, queries]
  rfl

end Communo.Privacy
