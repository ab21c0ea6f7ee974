import Communo.Lib.GroupLog
import Communo.SessionTable

/-! Room messages along whole runs. The calls of a run are read as one log of
rooms joined, left and spoken in, and every session is shown to be sent exactly
what that log makes it hear. -/

namespace Communo.RoomMessages
open Lib.ByteCodec Lib.CheckedMemory Lib.GroupLog Lib.KeyedList Lib.Runs Protocol NumParser Chat Session Handlers MainLoop
  Dispatch Transitions SessionTable

abbrev RoomEvent := GroupEvent Handle Byte (List Byte)

/-- What a call says about rooms, after the latest dispatch: a freed handle has
left, an accepted join request has joined, and a say request answered with
`SMSG_SAY_OK` has spoken. -/
def eventsOf (latest : Option Handle × List Byte) : Call → List RoomEvent
  | .sslFree (some handle) => [.left handle]
  | .sslWrite (some handle) reply =>
      match opcodeOf reply, reply.drop 2 with
      | some .smsgJoinChatRoomOk, [roomID] => [.joined handle roomID]
      | some .smsgSayOk, _ =>
          if latest.1 = some handle ∧ opcodeOf latest.2 = some .cmsgSay then [.said handle (latest.2.drop 2)] else []
      | _, _ => []
  | _ => []

def latestDispatch (latest : Option Handle × List Byte) : Call → Option Handle × List Byte
  | .callHandler ssl packet => (ssl, packet)
  | _ => latest

def roomEvents : Option Handle × List Byte → List Call → List RoomEvent
  | _, [] => []
  | latest, call :: rest => eventsOf latest call ++ roomEvents (latestDispatch latest call) rest

/-- The log of a run, read off its calls alone. -/
def roomLog (trace : List Call) : List RoomEvent := roomEvents (none, []) trace

def sayMessages (handle : Handle) (calls : List Call) : List (List Byte) :=
  calls.filterMap fun
    | .sslWrite ssl packet =>
        if ssl = some handle ∧ opcodeOf packet = some .smsgSay then some (packet.drop 2) else none
    | _ => none

def freed (calls : List Call) : List Handle :=
  calls.filterMap fun
    | .sslFree ssl => ssl
    | _ => none

section Observers

theorem roomEvents_append (latest : Option Handle × List Byte) (first second : List Call) :
    roomEvents latest (first ++ second) =
      roomEvents latest first ++ roomEvents (first.foldl latestDispatch latest) second := by
  induction first generalizing latest with
  | nil => rfl
  | cons call first ih => rw [List.cons_append, roomEvents, roomEvents, ih, List.append_assoc, List.foldl_cons]

@[simp]
theorem sayMessages_append (handle : Handle) (first second : List Call) :
    sayMessages handle (first ++ second) = sayMessages handle first ++ sayMessages handle second :=
  List.filterMap_append

@[simp]
theorem freed_append (first second : List Call) : freed (first ++ second) = freed first ++ freed second :=
  List.filterMap_append

def Backstage : Call → Prop
  | .sslWrite _ packet => opcodeOf packet ≠ some .smsgSay ∧ opcodeOf packet ≠ some .smsgSayOk ∧
      opcodeOf packet ≠ some .smsgJoinChatRoomOk
  | _ => True

theorem Backstage.of_plainReply {call : Call} (plain : PlainReply call) : Backstage call := by
  cases call <;> first | exact plain | exact plain.elim

theorem Backstage.of_quiet {call : Call} (quiet : Quiet call) : Backstage call := by
  cases call <;> first | exact quiet.elim | trivial

theorem Backstage.of_releases {fd : Int} {ssl : Option Handle} {call : Call} (releases : Releases fd ssl call) :
    Backstage call := by
  cases call <;> first | exact releases.elim | trivial

theorem eventsOf_backstage {call : Call} (backstage : Backstage call) (latest : Option Handle × List Byte) :
    eventsOf latest call = (freed [call]).map .left := by
  cases call with
  | sslFree ssl => cases ssl <;> rfl
  | sslWrite ssl packet =>
    obtain ⟨-, notSayOk, notJoinOk⟩ := backstage
    cases ssl with
    | none => rfl
    | some handle =>
      simp only [eventsOf]
      split
      · next joined _ => exact absurd joined notJoinOk
      · next said => exact absurd said notSayOk
      · rfl
  | _ => rfl

theorem roomEvents_backstage {calls : List Call} (backstage : ∀ call ∈ calls, Backstage call)
    (latest : Option Handle × List Byte) : roomEvents latest calls = (freed calls).map .left := by
  induction calls generalizing latest with
  | nil => rfl
  | cons call calls ih =>
    have first := eventsOf_backstage (backstage call (by simp)) latest
    have rest := ih (fun later member => backstage later (by simp [member])) (latestDispatch latest call)
    rw [roomEvents, first, rest, ← List.map_append, ← freed_append, List.singleton_append]

theorem sayMessages_backstage {calls : List Call} (backstage : ∀ call ∈ calls, Backstage call) (handle : Handle) :
    sayMessages handle calls = [] := by
  apply List.filterMap_eq_nil_iff.mpr
  intro call member
  have silent := backstage call member
  cases call with
  | sslWrite ssl packet => exact if_neg fun said => silent.1 said.2
  | _ => rfl

theorem freed_of_untouched {calls : List Call} (untouched : ∀ call ∈ calls, Untouched call) : freed calls = [] := by
  apply List.filterMap_eq_nil_iff.mpr
  intro call member
  have harmless := untouched call member
  cases call <;> first | rfl | exact harmless.elim

theorem freed_of_releases {fd : Int} {ssl : Option Handle} {calls : List Call}
    (released : ∀ call ∈ calls, Releases fd ssl call) {handle : Handle} (member : handle ∈ freed calls) :
    ssl = some handle := by
  obtain ⟨call, made, found⟩ := List.mem_filterMap.mp member
  rcases (released call made).cases with rfl | rfl | quiet
  · simp at found
  · exact found
  · cases call <;> first | exact quiet.elim | simp at found

theorem freed_erase (sockets : List ClientSocket) (it : Fin sockets.length) :
    freed (erase sockets it).2 = (sockets.get it).ssl.toList := by
  have split : sockets.drop it = sockets.get it :: sockets.drop (it + 1) := List.drop_eq_getElem_cons it.isLt
  simp only [erase, split]
  generalize sockets.get it = hole
  cases sockets.drop (it + 1) with
  | nil => cases held : hole.ssl <;> simp [shiftDown, ClientSocket.destroy, freed, held]
  | cons next later =>
    have moved : (hole.moveAssign next).2.2 = ClientSocket.movedFrom := rfl
    simp only [shiftDown, moved, shiftDown_movedFrom, List.append_nil]
    cases held : hole.ssl with
    | none => by_cases bound : hole.socket = invalidSocket <;> simp [ClientSocket.moveAssign, freed, held, bound]
    | some handle => by_cases bound : hole.socket = invalidSocket <;> simp [ClientSocket.moveAssign, freed, held, bound]

theorem roomEvents_dispatch (latest : Option Handle × List Byte) (fd : Int) (ssl : Option Handle) (result : ReadResult)
    (packet : List Byte) (replies : List Call) :
    roomEvents latest ([Call.fdIsSet fd, .sslRead ssl result, .callHandler ssl packet] ++ replies) =
      roomEvents (ssl, packet) replies :=
  rfl

theorem sayMessages_dispatch (handle : Handle) (fd : Int) (ssl : Option Handle) (result : ReadResult)
    (packet : List Byte) (replies : List Call) :
    sayMessages handle ([Call.fdIsSet fd, .sslRead ssl result, .callHandler ssl packet] ++ replies) =
      sayMessages handle replies :=
  rfl

theorem roomEvents_send (latest : Option Handle × List Byte) (view : View) (client : ClientSocket)
    (packet : List Byte) :
    roomEvents latest (sendSSLPacketToClientSocket view client packet) = eventsOf latest (.sslWrite client.ssl packet) := by
  unfold sendSSLPacketToClientSocket
  split
  · simp [roomEvents, eventsOf]
  · simp [roomEvents]

theorem sayMessages_send (handle : Handle) (view : View) (client : ClientSocket) (packet : List Byte) :
    sayMessages handle (sendSSLPacketToClientSocket view client packet) =
      if client.ssl = some handle ∧ opcodeOf packet = some .smsgSay then [packet.drop 2] else [] := by
  unfold sendSSLPacketToClientSocket
  by_cases said : client.ssl = some handle ∧ opcodeOf packet = some .smsgSay
  · split <;> simp [sayMessages, said]
  · split <;> simp [sayMessages, said]

end Observers

def InRoom (sockets : List ClientSocket) (handle : Handle) (roomID : Byte) : Prop :=
  ∃ client ∈ sockets, client.ssl = some handle ∧ client.chatRoomJoined = true ∧ client.joinedChatRoomID = roomID

instance (sockets : List ClientSocket) (handle : Handle) (roomID : Byte) : Decidable (InRoom sockets handle roomID) :=
  inferInstanceAs (Decidable (∃ client ∈ sockets, _))

theorem inRoom_set {sockets : List ClientSocket} (distinct : (sockets.map ClientSocket.ssl).Nodup)
    (it : Fin sockets.length) {handle : Handle} (held : (sockets.get it).ssl = some handle) (roomID : Byte)
    (other : Handle) (room : Byte) :
    InRoom (sockets.set it { sockets.get it with joinedChatRoomID := roomID, chatRoomJoined := true }) other room ↔
      if handle = other then roomID = room else InRoom sockets other room := by
  have member := mem_set_iff distinct it
    (rfl : ({ sockets.get it with joinedChatRoomID := roomID, chatRoomJoined := true } : ClientSocket).ssl = _)
  have named : ({ sockets.get it with joinedChatRoomID := roomID, chatRoomJoined := true } : ClientSocket).ssl =
      some handle := held
  unfold InRoom
  by_cases own : handle = other
  · subst own
    rw [if_pos rfl]
    constructor
    · rintro ⟨client, present, same, -, inside⟩
      rcases (member client).mp present with rfl | ⟨-, different⟩
      · exact inside
      · exact absurd (same.trans named.symm) different
    · intro same
      exact ⟨_, (member _).mpr (Or.inl rfl), named, rfl, same⟩
  · rw [if_neg own]
    constructor
    · rintro ⟨client, present, same, inside⟩
      rcases (member client).mp present with rfl | ⟨still, -⟩
      · exact absurd (Option.some.inj (named.symm.trans same)) own
      · exact ⟨client, still, same, inside⟩
    · rintro ⟨client, present, same, inside⟩
      refine ⟨client, (member client).mpr (Or.inr ⟨present, fun equal => own ?_⟩), same, inside⟩
      exact Option.some.inj (named.symm.trans (equal.symm.trans same))

def relayed (view : View) (sockets : List ClientSocket) (client : ClientSocket) (message : List Byte) : List Call :=
  sockets.flatMap fun other =>
    if !other.sslEnabled then []
    else if other.joinedChatRoomID ≠ client.joinedChatRoomID ∨ other.chatRoomJoined = false then []
    else sendSSLPacketToClientSocket view other (opcodeBytes .smsgSay ++ message)

section Relaying
variable (view : View) {sockets : List ClientSocket} (client : ClientSocket) (message : List Byte)

theorem roomEvents_relayed (latest : Option Handle × List Byte) :
    roomEvents latest (relayed view sockets client message) = [] := by
  unfold relayed
  induction sockets generalizing latest with
  | nil => rfl
  | cons other sockets ih =>
    rw [List.flatMap_cons, roomEvents_append, ih, List.append_nil]
    split
    · rfl
    · split
      · rfl
      · rw [roomEvents_send]
        cases other.ssl with
        | none => rfl
        | some handle => simp [eventsOf]

theorem sayMessages_relayed (distinct : (sockets.map ClientSocket.ssl).Nodup)
    (enabled : ∀ other ∈ sockets, other.sslEnabled = true) (handle : Handle) :
    sayMessages handle (relayed view sockets client message) =
      if InRoom sockets handle client.joinedChatRoomID then [message] else [] := by
  let accepts : ClientSocket → Bool := fun other =>
    decide (other.chatRoomJoined = true ∧ other.joinedChatRoomID = client.joinedChatRoomID)
  have each : ∀ other ∈ sockets,
      (sayMessages handle (if !other.sslEnabled then []
        else if other.joinedChatRoomID ≠ client.joinedChatRoomID ∨ other.chatRoomJoined = false then []
        else sendSSLPacketToClientSocket view other (opcodeBytes .smsgSay ++ message))) =
      if other.ssl = some handle ∧ accepts other = true then [message] else [] := by
    intro other member
    rw [enabled other member, Bool.not_true, if_neg (by simp)]
    by_cases shared : accepts other = true
    · have together := decide_eq_true_eq.mp shared
      rw [if_neg (by simp [together]), sayMessages_send, opcodeOf_append]
      simp [shared, List.drop_left']
    · have apart : other.joinedChatRoomID ≠ client.joinedChatRoomID ∨ other.chatRoomJoined = false := by
        by_contra both
        push Not at both
        exact shared (decide_eq_true ⟨by simpa using both.2, both.1⟩)
      rw [if_pos apart, if_neg fun heard => shared heard.2]
      rfl
  have everyone : sayMessages handle (relayed view sockets client message) =
      sockets.flatMap fun other => if other.ssl = some handle ∧ accepts other = true then [message] else [] := by
    unfold relayed
    rw [sayMessages, List.filterMap_flatMap]
    exact List.flatMap_congr each
  rw [everyone, flatMap_key distinct (some handle) accepts message]
  simp only [accepts, decide_eq_true_eq]
  rfl

end Relaying

/-- What a step can do about rooms: let sessions go without a word, take one into a room, or pass one message on. -/
inductive RoomStep (sockets : List ClientSocket) : List ClientSocket → List Call → Prop where
  | aside {left : List ClientSocket} {calls : List Call} (backstage : ∀ call ∈ calls, Backstage call)
      (table : ∀ handle roomID, InRoom left handle roomID ↔ handle ∉ freed calls ∧ InRoom sockets handle roomID) :
      RoomStep sockets left calls
  | joined {moved : List ClientSocket} {calls : List Call} (handle : Handle) (roomID : Byte)
      (events : ∀ latest, roomEvents latest calls = [.joined handle roomID])
      (silent : ∀ listener, sayMessages listener calls = [])
      (table : ∀ other room, InRoom moved other room ↔
        if handle = other then roomID = room else InRoom sockets other room) :
      RoomStep sockets moved calls
  | said {calls : List Call} (speaker : Handle) (room : Byte) (message : List Byte)
      (inside : InRoom sockets speaker room) (events : ∀ latest, roomEvents latest calls = [.said speaker message])
      (relayed : ∀ listener, sayMessages listener calls = if InRoom sockets listener room then [message] else []) :
      RoomStep sockets sockets calls

namespace RoomStep
variable {sockets : List ClientSocket} {calls : List Call}

theorem unmoved (silent : ∀ call ∈ calls, Backstage call) (free : freed calls = [])
    {same : List ClientSocket} (table : ∀ handle roomID, InRoom same handle roomID ↔ InRoom sockets handle roomID) :
    RoomStep sockets same calls := by
  apply RoomStep.aside silent
  intro handle roomID
  simp only [free, List.not_mem_nil, not_false_eq_true, true_and]
  exact table handle roomID

theorem erased (distinct : (sockets.map ClientSocket.ssl).Nodup) (it : Fin sockets.length)
    (silent : ∀ call ∈ calls, Backstage call) (free : freed calls = []) :
    RoomStep sockets (erase sockets it).1 (calls ++ (erase sockets it).2) := by
  apply RoomStep.aside
  · intro call made
    rcases List.mem_append.mp made with early | moved
    · exact silent call early
    · exact .of_releases (releases_erase sockets it call moved)
  · intro handle roomID
    have kept := mem_eraseIdx_iff distinct it
    rw [freed_append, free, freed_erase, List.nil_append, erase_fst]
    constructor
    · rintro ⟨client, member, named, joined⟩
      obtain ⟨still, different⟩ := (kept client).mp member
      refine ⟨fun gone => different ?_, client, still, named, joined⟩
      exact named.trans (Option.mem_toList.mp gone).symm
    · rintro ⟨other, client, member, named, joined⟩
      refine ⟨client, (kept client).mpr ⟨member, fun same => other ?_⟩, named, joined⟩
      exact Option.mem_toList.mpr (same.symm.trans named)

end RoomStep

section Step
variable {view : View} {input : Input} {config next : Config} {calls : List Call}

theorem roomStep_of_handled {server served : Server} {it : Fin server.clientSockets.length} {received : Received}
    {replies : List Call} {fresh : Handle} (effect : Handled view server it received.bytes served replies)
    (secured : Secured (server.clientSockets.map connection) fresh) (fd : Int) :
    RoomStep server.clientSockets served.clientSockets
      ([Call.fdIsSet fd, .sslRead (server.clientSockets.get it).ssl (.data received),
        .callHandler (server.clientSockets.get it).ssl received.bytes] ++ replies) := by
  have distinct := secured.distinct_ssl
  obtain ⟨handle, -, held⟩ := secured.ssl_of_mem (List.get_mem server.clientSockets it)
  have aside (plain : ∀ call ∈ replies, Backstage call) (same : served.clientSockets = server.clientSockets) :
      RoomStep server.clientSockets served.clientSockets
        ([Call.fdIsSet fd, .sslRead (server.clientSockets.get it).ssl (.data received),
          .callHandler (server.clientSockets.get it).ssl received.bytes] ++ replies) := by
    apply RoomStep.unmoved
    · exact List.forall_mem_append.mpr ⟨by simp [Backstage], plain⟩
    · rw [freed_append, freed_of_untouched fun call made => .of_isReply (effect.isReply call made)]
      rfl
    · intro handle roomID
      rw [same]
  cases effect with
  | plain _ _ replies => exact aside (fun call made => .of_plainReply (replies call made)) rfl
  | counted => exact aside (by simp) rfl
  | refused _ error =>
    refine aside (fun call made => .of_plainReply (plainReply_send view _ ?_ call made)) rfl
    exact plainReply_append _ (by decide)
  | joined roomID =>
    refine .joined handle roomID (fun latest => ?_) (fun listener => ?_) (inRoom_set distinct it held roomID)
    · rw [roomEvents_dispatch, roomEvents_send, held]
      simp [eventsOf]
    · rw [sayMessages_dispatch, sayMessages_send, opcodeOf_append]
      simp
  | said isSay =>
    by_cases confirmed : (checkRoomID server.chatRooms (server.clientSockets.get it).joinedChatRoomID &&
        (server.clientSockets.get it).chatRoomJoined) = true
    · have inside := (Bool.and_eq_true_iff.mp confirmed).2
      rw [callHandlerSay, if_pos confirmed]
      refine .said handle (server.clientSockets.get it).joinedChatRoomID (received.bytes.drop 2)
        ⟨_, List.get_mem _ _, held, inside, rfl⟩ (fun latest => ?_) (fun listener => ?_)
      · rw [← relayed, roomEvents_dispatch, roomEvents_append, roomEvents_send, roomEvents_relayed, held]
        simp [eventsOf, isSay]
      · rw [← relayed, sayMessages_dispatch, sayMessages_append, sayMessages_send,
          sayMessages_relayed _ _ _ distinct fun _ member => secured.sslEnabled_of_mem member]
        simp
    · rw [callHandlerSay, if_neg confirmed] at aside ⊢
      refine aside (fun call made => .of_plainReply (plainReply_send view _ ?_ call made)) rfl
      exact plainReply_append _ (by decide)

theorem roomStep_of_visited {server served : Server} {it : Fin server.clientSockets.length} {position : Nat}
    {fresh : Handle} (secured : Secured (server.clientSockets.map connection) fresh)
    (effect : Visited input server it served position calls) :
    RoomStep server.clientSockets served.clientSockets calls := by
  have distinct := secured.distinct_ssl
  cases effect with
  | closing => exact .erased distinct it (fun call made => .of_releases (releases_close _ none call made)) rfl
  | lost => exact .erased distinct it (by simp [ClientSocket.close, Backstage]) rfl
  | handled _ _ _ _ _ _ _ effect => exact roomStep_of_handled effect secured _
  | idle => exact .unmoved (by simp [Backstage]) rfl (fun _ _ => Iff.rfl)
  | short _ _ received _ _ calls replies =>
    apply RoomStep.unmoved
    · exact List.forall_mem_append.mpr
        ⟨by simp [Backstage], fun call made => Backstage.of_plainReply (replies call made)⟩
    · rw [freed_append, freed_of_untouched fun call made => .of_isReply (isReply_of_plainReply (replies call made))]
      rfl
    · exact fun _ _ => Iff.rfl

theorem inRoom_lt_fresh {sockets : List ClientSocket} {fresh handle : Handle} {roomID : Byte}
    (secured : Secured (sockets.map connection) fresh) (inside : InRoom sockets handle roomID) : handle < fresh := by
  obtain ⟨client, member, named, -⟩ := inside
  obtain ⟨other, early, held⟩ := secured.ssl_of_mem member
  have same : handle = other := Option.some.inj (named.symm.trans held)
  exact same ▸ early

/-- Every step of the main loop is one of the three. -/
theorem roomStep_of_stepped (secured : Secured (config.server.clientSockets.map connection) config.fresh)
    (stepped : Stepped input config next calls) :
    RoomStep config.server.clientSockets next.server.clientSockets calls := by
  cases stepped with
  | polled _ _ _ quiet =>
    exact .unmoved (fun call made => .of_quiet (quiet call made))
      (freed_of_untouched fun call made => .of_quiet (quiet call made)) (fun _ _ => Iff.rfl)
  | unanswered _ _ quiet =>
    exact .unmoved (fun call made => .of_quiet (quiet call made))
      (freed_of_untouched fun call made => .of_quiet (quiet call made)) (fun _ _ => Iff.rfl)
  | refused _ calls _ _ _ _ released =>
    apply RoomStep.aside
    · intro call made
      rcases List.mem_append.mp made with early | last
      · rcases List.mem_append.mp early with opening | within
        · simp only [List.mem_cons, List.not_mem_nil, or_false] at opening
          rcases opening with rfl | rfl | rfl <;> trivial
        · exact .of_releases (released call within)
      · rw [List.mem_singleton.mp last]
        trivial
    · intro handle roomID
      have only (gone : handle ∈ freed ([Call.fdIsSet config.server.masterSocket, .accept input.acceptedFd,
          .clientID config.server.uniqueClientCounter] ++ calls ++ [Call.close input.acceptedFd])) :
          config.fresh = handle := by
        rw [freed_append, freed_append] at gone
        exact Option.some.inj (freed_of_releases released (by simpa [freed] using gone))
      constructor
      · intro inside
        exact ⟨fun gone => absurd (only gone) (inRoom_lt_fresh secured inside).ne', inside⟩
      · exact And.right
  | admitted calls greeting _ _ _ quiet greets =>
    apply RoomStep.unmoved
    · intro call made
      rcases List.mem_append.mp made with early | greeted
      · rcases List.mem_append.mp early with opening | negotiated
        · simp only [List.mem_cons, List.not_mem_nil, or_false] at opening
          rcases opening with rfl | rfl | rfl <;> trivial
        · exact .of_quiet (quiet call negotiated)
      · exact .of_plainReply (greets call greeted)
    · rw [freed_append, freed_append, freed_of_untouched fun call made => .of_quiet (quiet call made),
        freed_of_untouched fun call made => .of_isReply (isReply_of_plainReply (greets call made))]
      rfl
    · intro handle roomID
      simp [InRoom, or_and_right, exists_or]
  | visited it present reached server position calls effect => exact roomStep_of_visited secured effect
  | closed =>
    apply RoomStep.aside
    · intro call made
      obtain ⟨client, -, closed⟩ := List.mem_flatMap.mp made
      exact .of_releases (releases_close client none call closed)
    · intro handle roomID
      have kept : freed (config.server.clientSockets.flatMap ClientSocket.close) = [] := by
        rw [freed, List.filterMap_flatMap]
        exact List.flatMap_eq_nil_iff.mpr fun client _ => rfl
      simp [kept]
  | returned =>
    apply RoomStep.aside
    · intro call made
      obtain ⟨client, -, destroyed⟩ := List.mem_flatMap.mp made
      exact .of_releases (releases_destroy client call destroyed)
    · intro handle roomID
      constructor
      · rintro ⟨client, member, -⟩
        simp at member
      · rintro ⟨kept, client, member, named, -⟩
        refine absurd ?_ kept
        refine List.mem_filterMap.mpr ⟨.sslFree client.ssl, List.mem_flatMap.mpr ⟨client, member, ?_⟩, named⟩
        simp [ClientSocket.destroy, named]
  | _ => exact .unmoved (by simp) rfl (fun _ _ => Iff.rfl)

end Step

/-- The table agrees with the log about who is where, and everyone was sent what the log makes them hear. -/
structure InStep (sockets : List ClientSocket) (trace : List Call) : Prop where
  rooms : ∀ handle roomID, groupOf (roomLog trace) handle = some roomID ↔ InRoom sockets handle roomID
  messages : ∀ handle, sayMessages handle trace = heard (roomLog trace) handle

def confirmed (calls : List Call) : List (Handle × List Byte) :=
  (roomLog calls).filterMap fun
    | .said speaker message => some (speaker, message)
    | _ => none

def SameRoom (sockets : List ClientSocket) (speaker listener : Handle) : Prop :=
  ∃ client ∈ sockets, client.ssl = some speaker ∧ client.chatRoomJoined = true ∧
    InRoom sockets listener client.joinedChatRoomID

instance (sockets : List ClientSocket) (speaker listener : Handle) : Decidable (SameRoom sockets speaker listener) :=
  inferInstanceAs (Decidable (∃ client ∈ sockets, _))

namespace InStep
variable {sockets next : List ClientSocket} {trace calls : List Call} (inStep : InStep sockets trace)
include inStep

theorem of_roomStep (effect : RoomStep sockets next calls) : InStep next (trace ++ calls) := by
  cases effect with
  | aside backstage table =>
    have grown : roomLog (trace ++ calls) = roomLog trace ++ (freed calls).map .left := by
      rw [roomLog, roomEvents_append, roomEvents_backstage backstage]
      rfl
    constructor
    · intro handle roomID
      rw [grown, groupOf_left, table, ← inStep.rooms]
      by_cases gone : handle ∈ freed calls
      · simp [gone]
      · simp [gone]
    · intro handle
      rw [grown, heard_left, sayMessages_append, sayMessages_backstage backstage, List.append_nil]
      exact inStep.messages handle
  | joined handle roomID events silent table =>
    have grown : roomLog (trace ++ calls) = roomLog trace ++ [.joined handle roomID] := by
      rw [roomLog, roomEvents_append, events]
      rfl
    constructor
    · intro other room
      rw [grown, groupOf_joined, table]
      by_cases own : handle = other
      · simp [own]
      · simpa only [if_neg own] using inStep.rooms other room
    · intro other
      rw [grown, heard_joined, sayMessages_append, silent, List.append_nil]
      exact inStep.messages other
  | said speaker room message inside events relayed =>
    have grown : roomLog (trace ++ calls) = roomLog trace ++ [.said speaker message] := by
      rw [roomLog, roomEvents_append, events]
      rfl
    have speaking : groupOf (roomLog trace) speaker = some room := (inStep.rooms speaker room).mpr inside
    constructor
    · intro other roomID
      rw [grown, groupOf_said]
      exact inStep.rooms other roomID
    · intro other
      have listens : Hears (roomLog trace) speaker other ↔ InRoom sockets other room := by
        rw [← inStep.rooms, Hears, speaking]
        simp [eq_comm]
      rw [grown, heard_said, sayMessages_append, relayed, inStep.messages other]
      simp only [listens]

theorem sameRoom_iff {speaker : Handle} {room : Byte} (inside : InRoom sockets speaker room) (listener : Handle) :
    SameRoom sockets speaker listener ↔ InRoom sockets listener room := by
  constructor
  · rintro ⟨client, member, named, joined, together⟩
    have first := (inStep.rooms speaker room).mpr inside
    have second := (inStep.rooms speaker client.joinedChatRoomID).mpr ⟨client, member, named, joined, rfl⟩
    rw [Option.some.inj (first.symm.trans second)]
    exact together
  · intro together
    obtain ⟨client, member, named, joined, rfl⟩ := inside
    exact ⟨client, member, named, joined, together⟩

/-- A step sends a session the confirmed texts of those who are in its room when the step begins. -/
theorem sayMessages_of_roomStep (effect : RoomStep sockets next calls) (listener : Handle) :
    sayMessages listener calls = (confirmed calls).filterMap fun said =>
      if SameRoom sockets said.1 listener then some said.2 else none := by
  cases effect with
  | aside backstage =>
    have nobody : confirmed calls = [] := by
      rw [confirmed, roomLog, roomEvents_backstage backstage, List.filterMap_map]
      exact List.filterMap_eq_nil_iff.mpr fun _ _ => rfl
    rw [sayMessages_backstage backstage, nobody, List.filterMap_nil]
  | joined handle roomID events silent =>
    rw [silent, confirmed, roomLog, events]
    rfl
  | said speaker room message inside events relayed =>
    have spoken : confirmed calls = [(speaker, message)] := by
      rw [confirmed, roomLog, events]
      rfl
    rw [relayed, spoken]
    by_cases together : InRoom sockets listener room
    · simp [together, inStep.sameRoom_iff inside]
    · simp [together, inStep.sameRoom_iff inside]

end InStep

theorem inStep_of_run {host : Host} {allowed : Input → Config → Prop} {boot : Boot} {inputs : List Input}
    {config : Config} (ran : ServerRun host allowed boot inputs config) :
    InStep config.server.clientSockets config.trace := by
  have initial : ServerRun host allowed boot [] boot.config := .nil
  have together : Secured (config.server.clientSockets.map connection) config.fresh ∧
      InStep config.server.clientSockets config.trace := by
    refine ran.invariant (I := fun config => Secured (config.server.clientSockets.map connection) config.fresh ∧
      InStep config.server.clientSockets config.trace) ⟨secured_of_run initial, ?_⟩ ?_
    · constructor
      · intro handle roomID
        simp [Boot.config, roomLog, roomEvents, InRoom]
      · intro handle
        rfl
    · rintro input config next ⟨secured, inStep⟩ _ stepped
      obtain ⟨calls, effect⟩ := stepped_of_step stepped
      rw [effect.trace_eq]
      exact ⟨secured_of_stepped secured effect, inStep.of_roomStep (roomStep_of_stepped secured effect)⟩
  exact together.2

/-- Every session is sent the texts spoken in its room while it was in it, each once and in
the order of the log; the log agrees with the table about who is where, and every further step
sends a session the confirmed texts of those in its room at that moment and no others. A session
that never is in a room is sent nothing, and two sessions get what they share in the same order. -/
theorem room_messages_delivered (host : Host) (boot : Boot) (inputs : List Input) (config : Config)
    (ran : ServerRun host (fun _ _ => True) boot inputs config) :
    (∀ handle, sayMessages handle config.trace = heard (roomLog config.trace) handle ∧
      sayMessages handle config.trace =
        (positionsHeard (roomLog config.trace) handle).filterMap (messageAt (roomLog config.trace))) ∧
    (∀ handle roomID, groupOf (roomLog config.trace) handle = some roomID ↔
      InRoom config.server.clientSockets handle roomID) ∧
    (∀ input next, step host input config = .ok next → ∀ listener,
      sayMessages listener next.trace = sayMessages listener config.trace ++
        (confirmed (next.trace.drop config.trace.length)).filterMap fun said =>
          if SameRoom config.server.clientSockets said.1 listener then some said.2 else none) ∧
    (∀ handle, (∀ position, groupOf ((roomLog config.trace).take position) handle = none) →
      sayMessages handle config.trace = []) ∧
    ∀ first second, (positionsHeard (roomLog config.trace) first).filter
        (· ∈ positionsHeard (roomLog config.trace) second) =
      (positionsHeard (roomLog config.trace) second).filter (· ∈ positionsHeard (roomLog config.trace) first) := by
  have inStep := inStep_of_run ran
  refine ⟨fun handle => ⟨inStep.messages handle, ?_⟩, inStep.rooms, fun input next stepped listener => ?_,
    fun handle never => ?_, positionsHeard_shared _⟩
  · rw [inStep.messages handle, heard_eq_positions]
  · obtain ⟨calls, effect⟩ := stepped_of_step stepped
    have sent := inStep.sayMessages_of_roomStep (roomStep_of_stepped (secured_of_run ran) effect) listener
    rw [effect.trace_eq, List.drop_left, sayMessages_append, sent]
  · rw [inStep.messages handle, heard_of_never _ _ never]

def joinOne : Received := { bytes := [0, 12, 1] ++ List.replicate 32 0, nonempty := by decide, fits := by decide }

def sayHi : Received := { bytes := [0, 13, 0x68, 0x69], nonempty := by decide, fits := by decide }

def speakInOne : List Input :=
  passWith (arrive 4) [idle] ++ passWith (arrive 5) [idle, idle] ++ passWith (arrive 6) [idle, idle, idle] ++
    passWith (ready [4, 5]) [deliver joinOne, deliver joinOne, idle] ++ passWith (ready [4]) [deliver sayHi, idle, idle]

/-- The two in the room hear it, and the outsider does not. -/
theorem room_messages_two_members :
    ∃ config, ServerRun exampleHost (fun _ _ => True)
        (exampleBoot [{ id := 1, name := some [0x47], passwordHash := none }]) speakInOne config ∧
      sayMessages 0 config.trace = [[0x68, 0x69]] ∧ sayMessages 1 config.trace = [[0x68, 0x69]] ∧
      sayMessages 2 config.trace = [] := by
  obtain ⟨config, ran⟩ : ∃ config, run (step exampleHost) speakInOne
    (exampleBoot [{ id := 1, name := some [0x47], passwordHash := none }]).config = .ok config := ⟨_, rfl⟩
  have execution := Execution.of_run .nil ran
  have delivered := (room_messages_delivered exampleHost _ _ config execution).1
  refine ⟨config, execution, ?_⟩
  rw [(delivered 0).1, (delivered 1).1, (delivered 2).1]
  cases ran
  exact ⟨rfl, rfl, rfl⟩

end Communo.RoomMessages
