import Communo.Lib.Records
import Communo.Survival
import Communo.Transitions

/-! From the client's send functions to the server's dispatch. The protocol has
no length field, so what the server takes for a packet is what one `SSL_read`
happens to return. -/

namespace Communo.Framing
open Lib.ByteCodec Lib.CheckedMemory Lib.Records Lib.Runs Protocol NumParser Session Handlers MainLoop Client Dispatch
  Transitions Addition Survival

/-- The most plaintext a TLS record holds. -/
def recordSize : Nat := 16384

def packets (order : ByteOrder) (sha256 : Sha256) (requests : List Request) : List (List Byte) :=
  requests.filterMap (Request.packet order sha256)

/-- What `SSL_read` returns on the server, read by read, for the client's calls. -/
def transmitted (order : ByteOrder) (sha256 : Sha256) (requests : List Request) : List (List Byte) :=
  ((packets order sha256 requests).filterMap sendSSLPacketToServer).flatMap (reads recordSize bufferSize)

def bytesRead (ssl : Option Handle) (trace : List Call) : List (List Byte) :=
  trace.filterMap fun
    | .sslRead handle (.data received) => if handle = ssl then some received.bytes else none
    | _ => none

def dispatched (ssl : Option Handle) (trace : List Call) : List (List Byte) :=
  trace.filterMap fun
    | .callHandler handle packet => if handle = ssl then some packet else none
    | _ => none

section Observers

@[simp]
theorem bytesRead_append (ssl : Option Handle) (first second : List Call) :
    bytesRead ssl (first ++ second) = bytesRead ssl first ++ bytesRead ssl second :=
  List.filterMap_append

@[simp]
theorem dispatched_append (ssl : Option Handle) (first second : List Call) :
    dispatched ssl (first ++ second) = dispatched ssl first ++ dispatched ssl second :=
  List.filterMap_append

def Mute : Call → Prop
  | .sslRead _ _ | .callHandler _ _ => False
  | _ => True

theorem Mute.of_quiet {call : Call} (quiet : Quiet call) : Mute call := by
  cases call <;> first | exact quiet.elim | trivial

theorem Mute.of_isReply {call : Call} (reply : IsReply call) : Mute call := by
  cases call <;> first | exact reply.elim | trivial

theorem Mute.of_releases {fd : Int} {ssl : Option Handle} {call : Call} (releases : Releases fd ssl call) :
    Mute call := by
  cases call <;> first | exact releases.elim | trivial

theorem bytesRead_of_mute (ssl : Option Handle) {calls : List Call} (mute : ∀ call ∈ calls, Mute call) :
    bytesRead ssl calls = [] := by
  apply List.filterMap_eq_nil_iff.mpr
  intro call member
  have silent := mute call member
  cases call <;> first | rfl | exact silent.elim

theorem dispatched_of_mute (ssl : Option Handle) {calls : List Call} (mute : ∀ call ∈ calls, Mute call) :
    dispatched ssl calls = [] := by
  apply List.filterMap_eq_nil_iff.mpr
  intro call member
  have silent := mute call member
  cases call <;> first | rfl | exact silent.elim

end Observers

/-- The reads of a session that are long enough to hold an opcode are the ones that are dispatched. -/
def DispatchesReads (ssl : Option Handle) (calls : List Call) : Prop :=
  dispatched ssl calls = (bytesRead ssl calls).filter fun bytes => 2 ≤ bytes.length

section DispatchesReads
variable {ssl : Option Handle} {calls : List Call}

theorem DispatchesReads.append {later : List Call} (first : DispatchesReads ssl calls)
    (second : DispatchesReads ssl later) : DispatchesReads ssl (calls ++ later) := by
  unfold DispatchesReads at *
  rw [dispatched_append, bytesRead_append, List.filter_append, first, second]

theorem dispatchesReads_of_mute (mute : ∀ call ∈ calls, Mute call) : DispatchesReads ssl calls := by
  rw [DispatchesReads, dispatched_of_mute ssl mute, bytesRead_of_mute ssl mute]
  rfl

/-- Each round of the loop reads at most once and dispatches what it read. -/
theorem dispatchesReads_of_visited {input : Input} {server next : Server} {it : Fin server.clientSockets.length}
    {position : Nat} (visited : Visited input server it next position calls) : DispatchesReads ssl calls := by
  cases visited with
  | closing =>
    apply dispatchesReads_of_mute
    intro call made
    rcases List.mem_append.mp made with closed | moved
    · exact .of_releases (releases_close _ none call closed)
    · exact .of_releases (releases_erase _ it call moved)
  | idle => exact dispatchesReads_of_mute (by simp [Mute])
  | lost _ _ lost =>
    refine DispatchesReads.append (DispatchesReads.append ?_ ?_) ?_
    · cases read : input.read with
      | data received => exact absurd read (lost received)
      | _ => rfl
    · exact dispatchesReads_of_mute fun call closed => .of_releases (releases_close _ none call closed)
    · exact dispatchesReads_of_mute fun call moved => .of_releases (releases_erase _ it call moved)
  | short _ _ received _ single _ replies =>
    refine DispatchesReads.append ?_ (dispatchesReads_of_mute fun call replied =>
      .of_isReply (isReply_of_plainReply (replies call replied)))
    by_cases own : (server.clientSockets.get it).ssl = ssl
    · simp only [DispatchesReads, dispatched, bytesRead, List.filterMap_cons, if_pos own, List.filterMap_nil]
      simp only [List.filter_cons, List.filter_nil, decide_eq_true_eq, if_neg (not_le.mpr single)]
    · simp only [DispatchesReads, dispatched, bytesRead, List.filterMap_cons, if_neg own, List.filterMap_nil,
        List.filter_nil]
  | handled _ _ received _ long _ _ effect =>
    refine DispatchesReads.append ?_ (dispatchesReads_of_mute fun call replied =>
      .of_isReply (effect.isReply call replied))
    by_cases own : (server.clientSockets.get it).ssl = ssl
    · simp only [DispatchesReads, dispatched, bytesRead, List.filterMap_cons, if_pos own, List.filterMap_nil]
      simp only [List.filter_cons, List.filter_nil, decide_eq_true_eq, if_pos long]
    · simp only [DispatchesReads, dispatched, bytesRead, List.filterMap_cons, if_neg own, List.filterMap_nil,
        List.filter_nil]

theorem dispatchesReads_of_stepped {input : Input} {config next : Config}
    (stepped : Stepped input config next calls) : DispatchesReads ssl calls := by
  cases stepped with
  | polled _ _ _ quiet => exact dispatchesReads_of_mute fun call made => .of_quiet (quiet call made)
  | unanswered _ _ quiet => exact dispatchesReads_of_mute fun call made => .of_quiet (quiet call made)
  | refused _ _ _ _ _ _ released =>
    refine DispatchesReads.append (DispatchesReads.append rfl ?_) rfl
    exact dispatchesReads_of_mute fun call made => .of_releases (released call made)
  | admitted _ _ _ _ _ quiet greets =>
    refine DispatchesReads.append (DispatchesReads.append rfl ?_) ?_
    · exact dispatchesReads_of_mute fun call made => .of_quiet (quiet call made)
    · exact dispatchesReads_of_mute fun call made => .of_isReply (isReply_of_plainReply (greets call made))
  | visited _ _ _ _ _ _ effect => exact dispatchesReads_of_visited effect
  | closed =>
    apply dispatchesReads_of_mute
    intro call made
    obtain ⟨client, -, closed⟩ := List.mem_flatMap.mp made
    exact .of_releases (releases_close client none call closed)
  | returned =>
    apply dispatchesReads_of_mute
    intro call made
    obtain ⟨client, -, destroyed⟩ := List.mem_flatMap.mp made
    exact .of_releases (releases_destroy client call destroyed)
  | _ => rfl

end DispatchesReads

theorem dispatchesReads_of_run {host : Host} {allowed : Input → Config → Prop} {boot : Boot} {inputs : List Input}
    {config : Config} (ran : ServerRun host allowed boot inputs config) (ssl : Option Handle) :
    DispatchesReads ssl config.trace := by
  have initial : DispatchesReads ssl boot.config.trace := rfl
  refine ran.invariant (I := fun config => DispatchesReads ssl config.trace) initial ?_
  intro input config next before _ stepped
  obtain ⟨calls, effect⟩ := stepped_of_step stepped
  rw [effect.trace_eq]
  exact before.append (dispatchesReads_of_stepped effect)

/-- The calls whose text leaves room for the opcode, and for the recipient of a private message. -/
def Fits : Request → Prop
  | .echo msg | .broadcast msg | .chatSay msg => msg.length ≤ 4094
  | .clientMessage _ msg => msg.length ≤ 4086
  | _ => True

section Packets
variable {order : ByteOrder} {sha256 : Sha256}

theorem length_packet {request : Request} {packet : List Byte} (built : request.packet order sha256 = some packet) :
    2 ≤ packet.length ∧ (packet.length ≤ bufferSize ↔ Fits request) := by
  cases request with
  | addition numbers =>
    rw [Request.packet, sendAdditionRequest_eq] at built
    split at built
    · simp at built
    · next accepted =>
      obtain rfl := Option.some.inj built
      have long := additionPacket_length order numbers
      push Not at accepted
      exact ⟨by omega, iff_of_true accepted.2 trivial⟩
  | joinRoom roomID password =>
    obtain rfl := Option.some.inj built
    have digest : (sha256 password).toList.length = 32 := (sha256 password).toList_length
    have size : (sendJoinRoomRequest sha256 roomID password).length = 35 := by
      rw [sendJoinRoomRequest, List.length_append, List.length_cons, digest, opcodeBytes_length]
    rw [size]
    exact ⟨by decide, iff_of_true (by decide) trivial⟩
  | _ =>
    obtain rfl := Option.some.inj built
    simp [Fits, bufferSize, sendEchoRequest, sendBroadcast, sendChatSay, sendClientMessage, sendSSLOpcodeToServer] <;>
      omega

theorem sendSSLPacketToServer_of_fits {packet : List Byte} (long : 2 ≤ packet.length)
    (fits : packet.length ≤ bufferSize) : sendSSLPacketToServer packet = some packet := by
  have small : packet.length ≤ 4096 := fits
  exact sendSSLPacketToServer_eq_some (List.length_pos_iff.mp (by omega)) (by omega)

theorem transmitted_of_fits {requests : List Request} (fits : ∀ request ∈ requests, Fits request) :
    transmitted order sha256 requests = packets order sha256 requests := by
  have each : ∀ packet ∈ packets order sha256 requests, 2 ≤ packet.length ∧ packet.length ≤ bufferSize := by
    intro packet member
    obtain ⟨request, asked, built⟩ := List.mem_filterMap.mp member
    have size := length_packet built
    exact ⟨size.1, size.2.mpr (fits request asked)⟩
  unfold transmitted
  generalize packets order sha256 requests = built at each
  induction built with
  | nil => rfl
  | cons packet built ih =>
    obtain ⟨long, small⟩ := each packet (by simp)
    have inRecord : packet.length ≤ recordSize := small.trans (by decide)
    have nonempty : packet ≠ [] := List.ne_nil_of_length_pos (by omega)
    rw [List.filterMap_cons_some (sendSSLPacketToServer_of_fits long small), List.flatMap_cons,
      reads_of_fits nonempty inRecord small, ih fun other member => each other (by simp [member])]
    rfl

end Packets

theorem length_le_of_mem_bytesRead {ssl : Option Handle} {trace : List Call} {bytes : List Byte}
    (member : bytes ∈ bytesRead ssl trace) : bytes.length ≤ bufferSize := by
  obtain ⟨call, -, found⟩ := List.mem_filterMap.mp member
  split at found
  · next received =>
    split at found
    · obtain rfl := Option.some.inj found
      exact received.fits
    · simp at found
  · simp at found

/-- Once everything a client sent has been read, the dispatches are its packets exactly
when every text fits; and while they fit, at no moment anything else is dispatched. -/
theorem framing_iff (host : Host) (boot : Boot) (inputs : List Input) (config : Config) (ssl : Option Handle)
    (order : ByteOrder) (sha256 : Sha256) (requests : List Request)
    (ran : ServerRun host (fun _ _ => True) boot inputs config)
    (delivered : bytesRead ssl config.trace <+: transmitted order sha256 requests) :
    ((∀ request ∈ requests, Fits request) → dispatched ssl config.trace <+: packets order sha256 requests) ∧
    (bytesRead ssl config.trace = transmitted order sha256 requests →
      (dispatched ssl config.trace = packets order sha256 requests ↔ ∀ request ∈ requests, Fits request)) := by
  have served : dispatched ssl config.trace = _ := dispatchesReads_of_run ran ssl
  have whole (fits : ∀ request ∈ requests, Fits request) : dispatched ssl config.trace = bytesRead ssl config.trace := by
    rw [transmitted_of_fits fits] at delivered
    rw [served, List.filter_eq_self]
    intro bytes member
    obtain ⟨request, -, built⟩ := List.mem_filterMap.mp (delivered.subset member)
    exact decide_eq_true (length_packet built).1
  refine ⟨fun fits => ?_, fun complete => ⟨fun same request asked => ?_, fun fits => ?_⟩⟩
  · rw [whole fits, ← transmitted_of_fits fits]
    exact delivered
  · cases built : request.packet order sha256 with
    | none =>
      cases request with
      | addition => trivial
      | _ => simp [Request.packet] at built
    | some packet =>
      have member : packet ∈ packets order sha256 requests := List.mem_filterMap.mpr ⟨request, asked, built⟩
      rw [← same, served] at member
      exact (length_packet built).2.mp (length_le_of_mem_bytesRead (List.mem_of_mem_filter member))
  · rw [whole fits, complete, transmitted_of_fits fits]

def exampleSha256 : Sha256 := fun _ => List.Vector.replicate digestLength 0

def helloRequests : List Request := [.echo (text "hello"), .clientMessage 1 (text "psst"), .ping]

def helloPackets : List Received := [
  { bytes := sendEchoRequest (text "hello"), nonempty := by decide, fits := by decide },
  { bytes := sendClientMessage .little 1 (text "psst"), nonempty := by decide, fits := by decide },
  pingPacket]

theorem framing_hello :
    ∃ (inputs : List Input) (config : Config), ServerRun exampleHost (fun _ _ => True) (exampleBoot []) inputs config ∧
      dispatched (some 0) config.trace = packets .little exampleSha256 helloRequests ∧
      dispatched (some 0) config.trace = helloPackets.map Received.bytes := by
  obtain ⟨config, ran⟩ : ∃ config, run (step exampleHost) (passWith (arrive 4) [idle] ++ passWith (arrive 5) [idle, idle] ++
    helloPackets.flatMap fun received => passWith (ready [4]) [deliver received, idle]) (exampleBoot []).config =
    .ok config := ⟨_, rfl⟩
  have execution : ServerRun exampleHost (fun _ _ => True) (exampleBoot []) _ config := Execution.of_run .nil ran
  have fits : ∀ request ∈ helloRequests, Fits request := by simp [helloRequests, Fits, text]
  have complete : bytesRead (some 0) config.trace = transmitted .little exampleSha256 helloRequests := by
    rw [transmitted_of_fits fits]
    cases ran
    rfl
  refine ⟨_, config, execution, ?_, ?_⟩
  · exact ((framing_iff exampleHost (exampleBoot []) _ config (some 0) .little exampleSha256 helloRequests execution
      (complete ▸ List.prefix_rfl)).2 complete).mpr fits
  · cases ran
    rfl

theorem step_echo {host : Host} {input : Input} {config : Config} {it : Nat} {received : Received}
    (present : it < config.server.clientSockets.length) (reached : config.pc = .processRequests it)
    (isOpen : config.server.serverState ≠ .closing)
    (ready : config.server.readfds (config.server.clientSockets.get ⟨it, present⟩).socket = true)
    (data : input.read = .data received) (long : 2 ≤ received.bytes.length)
    (isEcho : opcodeOf received.bytes = some .cmsgEchoRequest) :
    step host input config = .ok { config with
      server := { config.server with buffer := receive config.server.buffer received.bytes },
      pc := .processRequests (it + 1),
      trace := config.trace ++
        ([.fdIsSet (config.server.clientSockets.get ⟨it, present⟩).socket,
          .sslRead (config.server.clientSockets.get ⟨it, present⟩).ssl (.data received),
          .callHandler (config.server.clientSockets.get ⟨it, present⟩).ssl received.bytes] ++
          callHandlerEcho (physicalView input.ambient (receive config.server.buffer received.bytes))
            (config.server.clientSockets.get ⟨it, present⟩) (received.bytes.drop 2)) } := by
  have delivers := physicalView_delivers input.ambient config.server.buffer received
  simp only [step, reached, dif_pos present, visit_data isOpen ready data, if_pos long,
    callHandler_delivered delivers long, isEcho, switchOpcode, readBytes_payload delivers long, bind_ok]

def soleClient : ClientSocket := { socket := 4, ssl := some 0, sslEnabled := true }

def serving (readfds : Int → Bool) (buffer : Nat → Byte) (it : Nat) (trace : List Call) : Config where
  server := {
    clientSockets := [soleClient],
    uniqueClientCounter := 1,
    chatRooms := Chat.loadRooms [],
    counter := 0,
    buffer := buffer,
    readfds := readfds,
    serverState := .started,
    masterSocket := 3,
    sendHelloMsg := true }
  pc := .processRequests it
  fresh := 1
  trace := trace

theorem serving_reached :
    ∃ readfds trace, ServerRun exampleHost (fun _ _ => True) (exampleBoot []) untilRead
        (serving readfds (fun _ => 0) 0 trace) ∧ readfds 4 = true ∧ bytesRead (some 0) trace = [] :=
  ⟨_, _, Execution.of_run .nil rfl, rfl, rfl⟩

theorem serving_increment (readfds : Int → Bool) (buffer : Nat → Byte) (trace : List Call) :
    ∃ config, run (step exampleHost) [idle, idle, deliver incrementPacket, idle, deliver incrementPacket]
        (serving readfds buffer 1 trace) = .ok config ∧ config.server.counter = 1 ∧
      bytesRead (some 0) config.trace = bytesRead (some 0) trace ++ [[0, 8]] := by
  refine ⟨_, rfl, rfl, ?_⟩
  simp only [serving, bytesRead_append, List.append_assoc]
  rfl

theorem run_echo_increment (received : Received) (long : 2 ≤ received.bytes.length)
    (isEcho : opcodeOf received.bytes = some .cmsgEchoRequest) :
    ∃ (inputs : List Input) (config : Config),
      ServerRun exampleHost (fun _ _ => True) (exampleBoot []) inputs config ∧ config.server.counter = 1 ∧
      bytesRead (some 0) config.trace = [received.bytes, [0, 8]] := by
  obtain ⟨readfds, trace, connected, ready, unread⟩ := serving_reached
  let echo : List Call := callHandlerEcho (physicalView exampleAmbient (receive (fun _ => 0) received.bytes)) soleClient
    (received.bytes.drop 2)
  have stepped : step exampleHost (deliver received) (serving readfds (fun _ => 0) 0 trace) =
      .ok (serving readfds (receive (fun _ => 0) received.bytes) 1 (trace ++
        ([.fdIsSet 4, .sslRead (some 0) (.data received), .callHandler (some 0) received.bytes] ++ echo))) :=
    step_echo (Nat.zero_lt_succ 0) rfl ServerState.noConfusion ready rfl long isEcho
  have answered : bytesRead (some 0) echo = [] :=
    bytesRead_of_mute (some 0) fun call replied => .of_isReply (isReply_send _ _ _ call replied)
  obtain ⟨config, rest, counted, read⟩ := serving_increment readfds _ _
  refine ⟨_, config, (connected.snoc trivial stepped).of_run rest, counted, ?_⟩
  rw [read, bytesRead_append, bytesRead_append, unread, answered]
  rfl

/-- A text that fills the buffer behind the opcode and goes on with two bytes more. -/
theorem overrun_forges_increment (filler : List Byte) (full : filler.length = 4094) :
    ∃ (inputs : List Input) (config : Config),
      ServerRun exampleHost (fun _ _ => True) (exampleBoot []) inputs config ∧
      bytesRead (some 0) config.trace = transmitted .little exampleSha256 [.echo (filler ++ [0, 8])] ∧
      [0, 8] ∈ dispatched (some 0) config.trace ∧ config.server.counter = 1 ∧
      dispatched (some 0) config.trace ≠ packets .little exampleSha256 [.echo (filler ++ [0, 8])] := by
  have front : (opcodeBytes .cmsgEchoRequest ++ filler).length = bufferSize := by
    rw [List.length_append, opcodeBytes_length, full]
    rfl
  let firstRead : Received := ⟨opcodeBytes .cmsgEchoRequest ++ filler, by rw [front]; decide, front.le⟩
  have whole : sendEchoRequest (filler ++ [0, 8]) = firstRead.bytes ++ [0, 8] := (List.append_assoc _ _ _).symm
  have size : (sendEchoRequest (filler ++ [0, 8])).length = 4098 := by
    rw [whole, List.length_append, front]
    rfl
  have leaves : sendSSLPacketToServer (sendEchoRequest (filler ++ [0, 8])) =
      some (sendEchoRequest (filler ++ [0, 8])) := by
    rw [sendSSLPacketToServer, size]
    exact congrArg some (List.take_of_length_le size.le)
  have split : reads recordSize bufferSize (sendEchoRequest (filler ++ [0, 8])) = [firstRead.bytes, [0, 8]] := by
    rw [reads_of_overrun (by decide) (by rw [size]; decide) (by rw [size]; decide) (by rw [size]; decide), whole,
      List.take_left' front, List.drop_left' front]
  obtain ⟨inputs, config, ran, counted, read⟩ :=
    run_echo_increment firstRead (by rw [front]; decide) (opcodeOf_append _ _)
  have served : dispatched (some 0) config.trace = [firstRead.bytes, [0, 8]] := by
    have filtered : dispatched (some 0) config.trace = _ := dispatchesReads_of_run ran (some 0)
    rw [filtered, read, List.filter_eq_self]
    intro bytes member
    simp only [List.mem_cons, List.not_mem_nil, or_false] at member
    rcases member with rfl | rfl
    · rw [front]
      rfl
    · rfl
  refine ⟨inputs, config, ran, ?_, by simp [served], counted, ?_⟩
  · rw [read, transmitted, packets]
    simp only [List.filterMap_cons, List.filterMap_nil, Request.packet, leaves, List.flatMap_singleton, split]
  · intro same
    have count := congrArg List.length same
    rw [served] at count
    simp [packets, Request.packet] at count

/-- The last two bytes of an echoed text are dispatched as a request of their own, and the server obeys. -/
theorem echo_text_forges_increment :
    ∃ (inputs : List Input) (config : Config),
      ServerRun exampleHost (fun _ _ => True) (exampleBoot []) inputs config ∧
      bytesRead (some 0) config.trace =
        transmitted .little exampleSha256 [.echo (List.replicate 4094 0x61 ++ [0, 8])] ∧
      [0, 8] ∈ dispatched (some 0) config.trace ∧ config.server.counter = 1 ∧
      dispatched (some 0) config.trace ≠
        packets .little exampleSha256 [.echo (List.replicate 4094 0x61 ++ [0, 8])] :=
  overrun_forges_increment (List.replicate 4094 0x61) List.length_replicate

end Communo.Framing
