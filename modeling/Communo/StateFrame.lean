import Communo.Lib.Logs
import Communo.Framing
import Communo.ReplyDecoding

/-! What a dispatch leaves alone, and what that means for the counter: along
every interleaving of the clients' packets a counter reply tells how many
increments were dispatched before it. -/

namespace Communo.StateFrame
open Lib.ByteCodec Lib.CheckedMemory Lib.Logs Lib.Runs Protocol NumParser Chat Session Handlers MainLoop Client Dispatch Transitions
  Survival Writes Framing ReplyDecoding

def AnsweredOk (ssl : Option Handle) (packet : List Byte) (calls : List Call) : Prop :=
  opcodeOf packet = some .cmsgJoinRoom ∧
    ∃ reply, (ssl, reply) ∈ packetsWritten calls ∧ opcodeOf reply = some .smsgJoinChatRoomOk

def roomOf (session : ClientSocket) : Bool × Byte := (session.chatRoomJoined, session.joinedChatRoomID)

/-- What the dispatch of a packet from `client` does to the sessions and to the two counters. -/
structure Framed (server next : Server) (client : Fin server.clientSockets.length) (packet : List Byte)
    (calls : List Call) : Prop where
  size : next.clientSockets.length = server.clientSockets.length
  others : ∀ other, other ≠ client.val → next.clientSockets[other]? = server.clientSockets[other]?
  own : ∃ session, next.clientSockets[client.val]? = some session ∧
    session.socket = (server.clientSockets.get client).socket ∧
    session.ssl = (server.clientSockets.get client).ssl ∧
    session.sslEnabled = (server.clientSockets.get client).sslEnabled ∧
    session.clientID = (server.clientSockets.get client).clientID ∧
    session.clientUsername = (server.clientSockets.get client).clientUsername ∧
    (AnsweredOk session.ssl packet calls → ∃ roomID, packet[2]? = some roomID ∧ roomOf session = (true, roomID)) ∧
    (¬AnsweredOk session.ssl packet calls → roomOf session = roomOf (server.clientSockets.get client))
  issued : next.uniqueClientCounter = server.uniqueClientCounter
  counter : next.counter =
    if opcodeOf packet = some .cmsgIncrementCounter then server.counter + 1 else server.counter

section Dispatching
variable {host : Host} {view : View} {server next : Server} {client : Fin server.clientSockets.length}
  {packet : List Byte} {calls : List Call}

theorem mem_packetsWritten {ssl : Option Handle} {reply : List Byte} :
    (ssl, reply) ∈ packetsWritten calls ↔ .sslWrite ssl reply ∈ calls := by
  unfold packetsWritten
  rw [List.mem_filterMap]
  constructor
  · rintro ⟨call, made, written⟩
    cases call <;> simp only [reduceCtorEq, Option.some.injEq, Prod.mk.injEq] at written
    obtain ⟨rfl, rfl⟩ := written
    exact made
  · intro made
    exact ⟨_, made, rfl⟩

theorem framed_of_same (sockets : next.clientSockets = server.clientSockets)
    (issued : next.uniqueClientCounter = server.uniqueClientCounter)
    (counter : next.counter =
      if opcodeOf packet = some .cmsgIncrementCounter then server.counter + 1 else server.counter)
    (refused : ¬AnsweredOk (server.clientSockets.get client).ssl packet calls) :
    Framed server next client packet calls := by
  refine ⟨by rw [sockets], fun _ _ => by rw [sockets], ?_, issued, counter⟩
  refine ⟨server.clientSockets.get client, ?_, rfl, rfl, rfl, rfl, rfl, fun ok => absurd ok refused, fun _ => rfl⟩
  rw [sockets]
  exact List.getElem?_eq_getElem client.isLt

theorem not_answeredOk_of_plain {ssl : Option Handle} (plain : ∀ call ∈ calls, PlainReply call) :
    ¬AnsweredOk ssl packet calls := by
  rintro ⟨-, reply, made, confirmed⟩
  have written := plain _ (mem_packetsWritten.mp made)
  exact written.2.2 confirmed

theorem callHandler_increment (delivers : Delivers view packet) (long : 2 ≤ packet.length)
    (isIncrement : opcodeOf packet = some .cmsgIncrementCounter) :
    callHandler host view server client packet.length = .ok ({ server with counter := server.counter + 1 }, []) := by
  rw [callHandler_delivered delivers long, isIncrement]
  rfl

theorem framed_of_callHandler (delivers : Delivers view packet) (long : 2 ≤ packet.length)
    (handled : callHandler host view server client packet.length = .ok (next, calls)) :
    Framed server next client packet calls := by
  by_cases isIncrement : opcodeOf packet = some .cmsgIncrementCounter
  · rw [callHandler_increment delivers long isIncrement] at handled
    cases Except.ok.inj handled
    exact framed_of_same rfl rfl (if_pos isIncrement).symm (not_answeredOk_of_plain (by simp))
  · have still : server.counter =
        if opcodeOf packet = some .cmsgIncrementCounter then server.counter + 1 else server.counter := by
      rw [if_neg isIncrement]
    cases handled_of_callHandler delivers long handled with
    | plain _ _ replies => exact framed_of_same rfl rfl still (not_answeredOk_of_plain replies)
    | counted increments => exact absurd increments isIncrement
    | said isSay =>
      refine framed_of_same rfl rfl still fun ok => ?_
      exact absurd (isSay.symm.trans ok.1) (by decide)
    | refused roomID error =>
      refine framed_of_same rfl rfl still ?_
      exact not_answeredOk_of_plain (plainReply_send view _ (plainReply_append _ (by decide)))
    | joined roomID chatRooms isJoin size named =>
      refine ⟨by simp, fun other apart => ?_, ?_, rfl, still⟩
      · exact List.getElem?_set_ne apart.symm
      · refine ⟨_, List.getElem?_set_self client.isLt, rfl, rfl, rfl, rfl, rfl, fun _ => ⟨roomID, named, rfl⟩, ?_⟩
        intro refused
        refine absurd ⟨isJoin, opcodeBytes .smsgJoinChatRoomOk ++ [roomID], ?_, opcodeOf_append _ _⟩ refused
        rw [packetsWritten_send]
        exact List.mem_singleton.mpr rfl

end Dispatching

def increments (calls : List Call) : Nat :=
  calls.countP fun
    | .callHandler _ packet => opcodeOf packet = some .cmsgIncrementCounter
    | _ => false

section Counting
variable {host : Host} {input : Input} {config next : Config}

theorem increments_append (first second : List Call) :
    increments (first ++ second) = increments first + increments second :=
  List.countP_append

theorem increments_eq_zero {calls : List Call} (silent : ∀ ssl packet, .callHandler ssl packet ∉ calls) :
    increments calls = 0 := by
  apply List.countP_eq_zero.mpr
  intro call member
  cases call with
  | callHandler ssl packet => exact absurd member (silent ssl packet)
  | _ => simp

theorem increments_of_served {received : Received} {it : Fin config.server.clientSockets.length} {calls : List Call}
    (served : Served host input config next received it calls) (long : 2 ≤ received.bytes.length) :
    increments next.trace = increments config.trace +
      if opcodeOf received.bytes = some .cmsgIncrementCounter then 1 else 0 := by
  have replies : increments calls = 0 := increments_eq_zero fun _ _ made => (served.effect long).isReply _ made
  rw [served.trace, increments_append, increments_append, replies]
  by_cases isIncrement : opcodeOf received.bytes = some .cmsgIncrementCounter
  · simp [increments, isIncrement]
  · simp [increments, isIncrement]

theorem receives_of_callHandler {calls : List Call} (stepped : Stepped input config next calls) {ssl : Option Handle}
    {packet : List Byte} (made : .callHandler ssl packet ∈ calls) :
    ∃ received, Receives input config received ∧ 2 ≤ received.bytes.length := by
  cases stepped with
  | polled _ _ _ quiet => exact (quiet _ made).elim
  | unanswered _ _ quiet => exact (quiet _ made).elim
  | refused _ calls _ _ _ _ released =>
    simp only [List.mem_append, List.mem_cons, reduceCtorEq, List.not_mem_nil, or_self, false_or, or_false] at made
    exact (released _ made).elim
  | admitted calls greeting _ _ _ quiet greets =>
    simp only [List.mem_append, List.mem_cons, reduceCtorEq, List.not_mem_nil, or_self, false_or] at made
    exact made.elim (fun early => (quiet _ early).elim) (fun greeted => (greets _ greeted).elim)
  | visited it present reached server position calls effect =>
    cases effect with
    | closing =>
      rcases List.mem_append.mp made with closed | moved
      · exact (releases_close _ none _ closed).elim
      · exact (releases_erase _ ⟨it, present⟩ _ moved).elim
    | idle => simp at made
    | lost =>
      simp only [ClientSocket.close, List.mem_append, List.mem_cons, reduceCtorEq, List.not_mem_nil, or_self,
        false_or] at made
      exact (releases_erase _ ⟨it, present⟩ _ made).elim
    | short _ _ received _ _ calls replies =>
      simp only [List.mem_append, List.mem_cons, reduceCtorEq, List.not_mem_nil, or_self, false_or] at made
      exact (replies _ made).elim
    | handled isOpen ready received data long =>
      exact ⟨received, ⟨it, present, reached, isOpen, ready, data⟩, long⟩
  | closed =>
    obtain ⟨client, -, closed⟩ := List.mem_flatMap.mp made
    exact (releases_close client none _ closed).elim
  | returned =>
    obtain ⟨client, -, destroyed⟩ := List.mem_flatMap.mp made
    exact (releases_destroy client _ destroyed).elim
  | _ => simp at made

theorem counter_of_undispatched (silent : ∀ received, Receives input config received → received.bytes.length < 2)
    {calls : List Call} (stepped : Stepped input config next calls) :
    next.server.counter = config.server.counter := by
  cases stepped with
  | visited it present reached server position calls effect =>
    cases effect with
    | handled isOpen ready received data long =>
      exact absurd (silent received ⟨it, present, reached, isOpen, ready, data⟩) (not_lt.mpr long)
    | _ => rfl
  | _ => rfl

def Counted (config : Config) : Prop := config.server.counter = BitVec.ofNat 64 (increments config.trace)

theorem counted_of_step (counted : Counted config) (stepped : step host input config = .ok next) : Counted next := by
  by_cases dispatches : ∃ received, Receives input config received ∧ 2 ≤ received.bytes.length
  · obtain ⟨received, receives, long⟩ := dispatches
    obtain ⟨it, calls, served⟩ := served_of_receives receives long stepped
    have framed := framed_of_callHandler (handlerView_delivers input config received) long served.handled
    have before : (loaded config received).counter = BitVec.ofNat 64 (increments config.trace) := counted
    rw [Counted, framed.counter, before, increments_of_served served long]
    split
    · rw [BitVec.ofNat_add]
      rfl
    · rfl
  · obtain ⟨calls, effect⟩ := stepped_of_step stepped
    have silent : increments calls = 0 := increments_eq_zero fun _ _ made =>
      dispatches (receives_of_callHandler effect made)
    have kept := counter_of_undispatched (fun received receives => not_le.mp fun long =>
      dispatches ⟨received, receives, long⟩) effect
    rw [Counted, effect.trace_eq, increments_append, silent, Nat.add_zero, kept]
    exact counted

theorem counterReply_of_written {ssl : Option Handle} {reply : List Byte} (written : Written host input config ssl reply)
    (isCounter : opcodeOf reply = some .smsgCounter) :
    ∃ received, Receives input config received ∧ 2 ≤ received.bytes.length ∧
      opcodeOf received.bytes = some .cmsgGetCounter ∧
      reply = opcodeBytes .smsgCounter ++ toBytes host.order 8 config.server.counter.toNat := by
  cases written with
  | reply received it reached receives long session reply sent =>
    cases sent with
    | counter isGetCounter => exact ⟨received, receives, long, isGetCounter, rfl⟩
    | clientList =>
      simp only [clientListPacket] at isCounter
      split at isCounter <;> simp at isCounter
    | _ => simp at isCounter
  | invalid =>
    have unlabelled : opcodeOf (text "Invalid packet.") = none := by decide
    exact absurd (unlabelled.symm.trans isCounter) (by simp)
  | greeting _ start =>
    have starts := opcodeOf_motd start
    rw [isCounter] at starts
    exact absurd starts (by decide)

/-- Every counter reply in the trace carries the number of increments dispatched before it. -/
def CounterReplies (order : ByteOrder) (trace : List Call) : Prop :=
  ∀ before ssl reply after, trace = before ++ .sslWrite ssl reply :: after → opcodeOf reply = some .smsgCounter →
    reply = opcodeBytes .smsgCounter ++ toBytes order 8 (BitVec.ofNat 64 (increments before)).toNat

theorem counterReplies_of_step (counted : Counted config) (replies : CounterReplies host.order config.trace)
    (stepped : step host input config = .ok next) : CounterReplies host.order next.trace := by
  intro before ssl reply after split isCounter
  obtain ⟨calls, effect⟩ := stepped_of_step stepped
  rw [effect.trace_eq] at split
  rcases split_append split with ⟨rest, earlier⟩ | ⟨first, early, late⟩
  · exact replies before ssl reply rest earlier isCounter
  · have made : .sslWrite ssl reply ∈ next.trace.drop config.trace.length := by
      rw [effect.trace_eq, List.drop_left, late]
      simp
    obtain ⟨received, receives, long, isGetCounter, same⟩ :=
      counterReply_of_written (written_of_step stepped made) isCounter
    obtain ⟨it, calls, served⟩ := served_of_receives receives long stepped
    have whole := increments_of_served served long
    have none : ¬some Opcode.cmsgGetCounter = some .cmsgIncrementCounter := by decide
    rw [isGetCounter, if_neg none, effect.trace_eq, late, increments_append, increments_append] at whole
    have silent : increments first = 0 := by omega
    have value : config.server.counter = BitVec.ofNat 64 (increments before) := by
      rw [early, increments_append, silent, Nat.add_zero]
      exact counted
    rw [same, value]

end Counting

theorem processReply_counter (order : ByteOrder) {memory : List Byte → Mem} (held : Holds memory) (value : BitVec 64) :
    processReplyFromServerIfAny order memory (opcodeBytes .smsgCounter ++ toBytes order 8 value.toNat) =
      .ok (.counter value) := by
  have labelled : Opcode.ofCode (ofBytes .big (opcodeBytes .smsgCounter)) = some .smsgCounter := by decide
  rw [processReplyFromServerIfAny, if_pos (by simp), List.drop_left' (opcodeBytes_length _),
    List.take_left' (opcodeBytes_length _)]
  simp only [switchReply, labelled]
  rw [readWord_inside (held _) order (by simp), List.take_of_length_le (by simp), bind_ok,
    ofNat_ofBytes_toBytes order 8 value (by decide)]

/-- A dispatch touches nothing but what its opcode is for, and so a counter reply
shows its reader how many increments were dispatched before it, by whomever. -/
theorem state_frame (host : Host) (boot : Boot) (inputs : List Input) (config : Config)
    (ran : ServerRun host (fun _ _ => True) boot inputs config) :
    (∀ (client : Fin config.server.clientSockets.length) (received : Received) (input : Input) (next : Server)
      (calls : List Call), 2 ≤ received.bytes.length →
      callHandler host (handlerView input config received) (loaded config received) client received.bytes.length =
        .ok (next, calls) →
      Framed config.server next client received.bytes calls) ∧
    ∀ before ssl reply after, config.trace = before ++ .sslWrite ssl reply :: after →
      opcodeOf reply = some .smsgCounter → ∀ memory, Holds memory →
        processReplyFromServerIfAny host.order memory reply =
          .ok (.counter (BitVec.ofNat 64 (increments before))) := by
  constructor
  · intro client received input next calls long handled
    have framed := framed_of_callHandler (handlerView_delivers input config received) long handled
    exact ⟨framed.size, framed.others, framed.own, framed.issued, framed.counter⟩
  · have kept : Counted config ∧ CounterReplies host.order config.trace := by
      refine ran.invariant (I := fun config => Counted config ∧ CounterReplies host.order config.trace) ⟨?_, ?_⟩ ?_
      · rfl
      · intro before ssl reply after split
        simp [Boot.config] at split
      · rintro input config next ⟨counted, replies⟩ - stepped
        exact ⟨counted_of_step counted stepped, counterReplies_of_step counted replies stepped⟩
    intro before ssl reply after split isCounter memory held
    rw [kept.2 before ssl reply after split isCounter]
    exact processReply_counter host.order held _

def getCounterPacket : Received := { bytes := [0, 9], nonempty := by decide, fits := by decide }

/-- After one increment the client is shown a one. -/
theorem state_frame_one_increment :
    ∃ config before reply, ServerRun exampleHost (fun _ _ => True) (exampleBoot [])
        (untilRead ++ [deliver incrementPacket, idle, idle, deliver getCounterPacket, idle, deliver getCounterPacket])
        config ∧
      config.trace = before ++ [Call.sslWrite (some 0) reply] ∧ opcodeOf reply = some .smsgCounter ∧
      increments before = 1 ∧ processReplyFromServerIfAny .little holding reply = .ok (.counter 1) := by
  obtain ⟨config, ran⟩ : ∃ config, run (step exampleHost)
      (untilRead ++ [deliver incrementPacket, idle, idle, deliver getCounterPacket, idle, deliver getCounterPacket])
      (exampleBoot []).config = .ok config := ⟨_, rfl⟩
  have execution : ServerRun exampleHost (fun _ _ => True) (exampleBoot []) _ config := Execution.of_run .nil ran
  have split : config.trace = config.trace.dropLast ++ .sslWrite (some 0) [0x10, 0x09, 1, 0, 0, 0, 0, 0, 0, 0] :: [] := by
    cases ran
    rfl
  have count : increments config.trace.dropLast = 1 := by
    cases ran
    decide
  have shown := (state_frame exampleHost (exampleBoot []) _ config execution).2 _ _ _ _ split (by decide) holding
    holds_holding
  rw [count] at shown
  exact ⟨config, _, _, execution, split, by decide, count, shown⟩

end Communo.StateFrame
