import Communo.Literals
import Communo.PacketLocality
import Communo.RoomTable
import Communo.PrivateMessages

/-! How long the packets are that the server writes. The client reads 4096 bytes
at a time, and only the client list is measured before it is sent. -/

namespace Communo.ReplySizes
open Lib.ByteCodec Lib.CheckedMemory Lib.Runs Protocol NumParser Literals Chat Session Handlers MainLoop Dispatch Transitions
  Survival Faults PacketLocality RoomTable Writes StateFrame PrivateMessages

section Texts

theorem decimal_length_le {value count : Nat} (positive : 0 < count) (small : value < 10 ^ count) :
    (decimal value).length ≤ count := by
  rw [decimal, text, List.length_map, Nat.toString_eq_repr, Nat.toList_repr]
  exact (Nat.length_toDigits_le_iff (by decide) positive).mpr small

theorem zero_notMem_decimal (value : Nat) : 0 ∉ decimal value :=
  (decimal_decimal value).notMem 0 (by decide)

theorem cString_length_le (bytes : List Byte) : (cString bytes).length ≤ bytes.length :=
  (List.takeWhile_sublist _).length_le

end Texts

def lineSize (roomID : Byte) (room : ChatRoom) : Nat :=
  3 + (decimal roomID.toNat).length + room.name.length + if room.passwordHash.isEmpty then 7 else 12

/-- The size of the list of rooms, one line break between two rooms. -/
def roomListSize (chatRooms : ChatRooms) : Nat :=
  (chatRooms.entries.map fun entry => lineSize entry.1 entry.2 + 1).sum - 1

section RoomList

theorem roomLine_length (roomID : Byte) (room : ChatRoom) : (roomLine roomID room).length = lineSize roomID room := by
  have opening : (text "[").length = 1 := by decide
  have closing : (text "] ").length = 2 := by decide
  have isOpen : (text " (open)").length = 7 := by decide
  have isProtected : (text " (protected)").length = 12 := by decide
  unfold roomLine lineSize
  split
  · simp only [List.length_append, opening, closing, isOpen]
    omega
  · simp only [List.length_append, opening, closing, isProtected]
    omega

theorem roomLines_length (entries : List (Sigma fun _ : Byte => ChatRoom)) :
    (roomLines entries).length = (entries.map fun entry => lineSize entry.1 entry.2 + 1).sum - 1 := by
  have newline : (text "\n").length = 1 := by decide
  induction entries with
  | nil => rfl
  | cons entry rest ih =>
    cases rest with
    | nil => simp [roomLines, roomLine_length]
    | cons next rest =>
      have unfolded : roomLines (entry :: next :: rest) =
          roomLine entry.1 entry.2 ++ text "\n" ++ roomLines (next :: rest) := rfl
      rw [unfolded, List.length_append, List.length_append, roomLine_length, newline, ih]
      simp only [List.map_cons, List.sum_cons]
      omega

theorem getChatRoomsStr_length (traversal : Traversal) (chatRooms : ChatRooms) :
    (getChatRoomsStr traversal chatRooms).length = roomListSize chatRooms := by
  have sums := ((traversal.complete chatRooms.entries).map fun entry => lineSize entry.1 entry.2 + 1).sum_eq
  rw [getChatRoomsStr, roomLines_length, sums, roomListSize]

def CleanNames (chatRooms : ChatRooms) : Prop := ∀ roomID room, chatRooms.lookup roomID = some room → 0 ∉ room.name

theorem zero_notMem_roomLine {roomID : Byte} {room : ChatRoom} (clean : 0 ∉ room.name) : 0 ∉ roomLine roomID room := by
  have opening : (0 : Byte) ∉ text "[" := by decide
  have closing : (0 : Byte) ∉ text "] " := by decide
  have isOpen : (0 : Byte) ∉ text " (open)" := by decide
  have isProtected : (0 : Byte) ∉ text " (protected)" := by decide
  unfold roomLine
  split
  · simp only [List.mem_append, not_or]
    exact ⟨⟨⟨⟨opening, zero_notMem_decimal _⟩, closing⟩, clean⟩, isOpen⟩
  · simp only [List.mem_append, not_or]
    exact ⟨⟨⟨⟨opening, zero_notMem_decimal _⟩, closing⟩, clean⟩, isProtected⟩

theorem zero_notMem_roomLines {entries : List (Sigma fun _ : Byte => ChatRoom)}
    (clean : ∀ entry ∈ entries, 0 ∉ entry.2.name) : 0 ∉ roomLines entries := by
  have newline : (0 : Byte) ∉ text "\n" := by decide
  induction entries with
  | nil => simp [roomLines]
  | cons entry rest ih =>
    have here := @zero_notMem_roomLine entry.1 entry.2 (clean entry (by simp))
    cases rest with
    | nil => exact here
    | cons next rest =>
      have unfolded : roomLines (entry :: next :: rest) =
          roomLine entry.1 entry.2 ++ text "\n" ++ roomLines (next :: rest) := rfl
      rw [unfolded, List.mem_append, List.mem_append, not_or, not_or]
      exact ⟨⟨here, newline⟩, ih fun later member => clean later (List.mem_cons_of_mem _ member)⟩

theorem cString_getChatRoomsStr (traversal : Traversal) {chatRooms : ChatRooms} (clean : CleanNames chatRooms) :
    cString (getChatRoomsStr traversal chatRooms) = getChatRoomsStr traversal chatRooms := by
  apply cString_eq_self
  apply zero_notMem_roomLines
  intro entry member
  exact clean entry.1 entry.2 (AList.mem_lookup_iff.mpr ((traversal.complete _).mem_iff.mp member))

theorem zero_notMem_columnText (value : Option (List Byte)) : 0 ∉ columnText value := by
  cases value with
  | none => simp [columnText]
  | some bytes =>
    intro member
    have different := List.mem_takeWhile_imp member
    simp at different

theorem cleanNames_loadRooms (rows : List Row) : CleanNames (loadRooms rows) := by
  have kept (chatRooms : ChatRooms) (clean : CleanNames chatRooms) :
      CleanNames (rows.foldl (fun chatRooms row => emplace chatRooms row.roomID row.room) chatRooms) := by
    induction rows generalizing chatRooms with
    | nil => exact clean
    | cons row rows ih =>
      rw [List.foldl_cons]
      apply ih
      intro roomID room found
      rw [lookup_emplace] at found
      split at found
      · cases old : chatRooms.lookup row.roomID with
        | none =>
          simp only [old, Option.getD_none, Option.some.injEq] at found
          exact found ▸ zero_notMem_columnText row.name
        | some stored =>
          simp only [old, Option.getD_some, Option.some.injEq] at found
          exact found ▸ clean _ stored old
      · exact clean roomID room found
  exact kept ∅ (by simp [CleanNames])

theorem cleanNames_index {chatRooms : ChatRooms} (clean : CleanNames chatRooms) (roomID : Byte) :
    CleanNames (index chatRooms roomID).2 := by
  intro other room found
  rw [lookup_index] at found
  split at found
  · cases old : chatRooms.lookup roomID with
    | none =>
      simp only [old, Option.getD_none, Option.some.injEq] at found
      simp [← found]
    | some stored =>
      simp only [old, Option.getD_some, Option.some.injEq] at found
      exact found ▸ clean _ stored old
  · exact clean other room found

theorem cleanNames_of_run {host : Host} {allowed : Input → Config → Prop} {boot : Boot} {inputs : List Input}
    {config : Config} (ran : ServerRun host allowed boot inputs config) : CleanNames config.server.chatRooms := by
  refine ran.invariant (I := fun config => CleanNames config.server.chatRooms) (cleanNames_loadRooms boot.rows) ?_
  intro input config next clean _ stepped
  rcases table_cases stepped with ⟨kept, -⟩ | ⟨roomID, -, looked⟩
  · rw [kept]
    exact clean
  · rw [looked]
    exact cleanNames_index clean roomID

end RoomList

/-- The three kinds of packets with an answer that may be longer than the client's buffer. -/
def TooLarge (host : Host) (server : Server) (client : ClientSocket) (packet : List Byte) : Prop :=
  (ForwardsPrivateMessage host server client packet ∧ 4086 < packet.length) ∨
  (opcodeOf packet = some .cmsgGetChatRooms ∧ 4094 < roomListSize server.chatRooms) ∨
  (opcodeOf packet = some .cmsgGetRoomInfo ∧ client.chatRoomJoined = true ∧
    ∃ room, server.chatRooms.lookup client.joinedChatRoomID = some room ∧ 4086 < room.name.length)

section Replies
variable {host : Host} {view : View} {server : Server} {client session : ClientSocket} {packet reply : List Byte}

theorem uptimeText_length_le (seconds : Fin (2 ^ 63)) : (uptimeText seconds).length ≤ 40 := by
  have word : (text "Uptime: ").length = 8 := by decide
  have hours : (text "h ").length = 2 := by decide
  have minutes : (text "m ").length = 2 := by decide
  have last : (text "s").length = 1 := by decide
  have bound : seconds.val < 2 ^ 63 := seconds.isLt
  have first := @decimal_length_le (seconds.val / 3600) 16 (by decide) (by omega)
  have second := @decimal_length_le (seconds.val % 3600 / 60) 2 (by decide) (by omega)
  have third := @decimal_length_le (seconds.val % 3600 % 60) 2 (by decide) (by omega)
  simp only [uptimeText, List.length_append, word, hours, minutes, last]
  omega

theorem clientListPacket_length_le (server : Server) (client : ClientSocket) :
    (clientListPacket server client).length ≤ 4096 := by
  simp only [clientListPacket]
  split
  · simp only [List.length_append, opcodeBytes_length, List.length_cons]
    omega
  · simp

/-- Every other answer fits, whatever the packet. -/
theorem reply_length_le (delivers : Delivers view packet) (fits : packet.length ≤ 4096) (long : 2 ≤ packet.length)
    (small : ¬TooLarge host server client packet)
    (sent : Reply host view server client packet session reply) : reply.length ≤ 4096 := by
  have short (literal : List Byte) (few : literal.length ≤ 100) :
      (opcodeBytes .smsgMessage ++ cString literal).length ≤ 4096 := by
    have cut := cString_length_le literal
    rw [List.length_append, opcodeBytes_length]
    omega
  cases sent with
  | echo | broadcast | say =>
    rw [List.length_append, opcodeBytes_length, List.length_drop]
    omega
  | clientList => exact clientListPacket_length_le server _
  | privateMessage isPrivate large found raw message read recipient copied =>
    have size := ((readBytes_eq_ok_iff _ _ _ _).mp copied).1
    have slice := (read.symm.trans (readBytes_slice delivers (by omega : 2 + 8 ≤ packet.length)))
    obtain rfl := Except.ok.inj slice
    obtain ⟨apart, named⟩ := findRecipient_eq_some_iff.mp recipient
    have bounded : packet.length ≤ 4086 := by
      by_contra larger
      refine small (Or.inl ⟨⟨isPrivate, large, apart, ?_⟩, not_le.mp larger⟩)
      exact ⟨session, List.mem_of_find?_eq_some named, by simpa [requestedID] using List.find?_some named⟩
    simp only [List.length_append, opcodeBytes_length, toBytes_length, size]
    omega
  | uptime =>
    have few := uptimeText_length_le view.seconds
    rw [List.length_append, opcodeBytes_length]
    omega
  | chatRooms isGetChatRooms =>
    have cut := cString_length_le (getChatRoomsStr host.traversal server.chatRooms)
    rw [getChatRoomsStr_length] at cut
    have bounded : roomListSize server.chatRooms ≤ 4094 := by
      by_contra larger
      exact small (Or.inr (Or.inl ⟨isGetChatRooms, not_le.mp larger⟩))
    rw [List.length_append, opcodeBytes_length]
    omega
  | roomInfo isGetRoomInfo name joined named =>
    have cut := cString_length_le (text "Joined: " ++ name)
    have word : (text "Joined: ").length = 8 := by decide
    rw [List.length_append, word] at cut
    have bounded : name.length ≤ 4086 := by
      by_contra larger
      refine small (Or.inr (Or.inr ⟨isGetRoomInfo, joined, ?_⟩))
      unfold getRoomName at named
      split at named
      · next room found =>
        cases Except.ok.inj named
        exact ⟨room, found, not_le.mp larger⟩
      · simp at named
    rw [List.length_append, opcodeBytes_length]
    omega
  | notice literal known =>
    simp only [List.mem_cons, List.not_mem_nil, or_false] at known
    rcases known with rfl | rfl | rfl
    · exact short _ (by decide)
    · exact short _ (by decide)
    · exact short _ (by decide)
  | sum | counter => simp
  | privateMsgErr | joinOk | joinErr | sayErr => simp
  | pong | sayOk => simp

end Replies

theorem exists_long_reply (host : Host) (server : Server) (client : Fin server.clientSockets.length)
    {ambient : Ambient} {buffer : Nat → Byte} {packet : List Byte} (long : 2 ≤ packet.length)
    (delivers : Delivers (physicalView ambient buffer) packet) (clean : CleanNames server.chatRooms)
    (large : TooLarge host server (server.clientSockets.get client) packet) :
    ∃ calls ssl reply, callHandler host (physicalView ambient buffer) server client packet.length =
        .ok (server, calls) ∧ .sslWrite ssl reply ∈ calls ∧ 4096 < reply.length := by
  rcases large with ⟨⟨isPrivate, enough, apart, other, present, named⟩, size⟩ | ⟨isGetChatRooms, size⟩ |
    ⟨isGetRoomInfo, joined, room, found, size⟩
  · obtain ⟨message, length, answered⟩ := callHandler_private host server client delivers isPrivate enough
    have fine := (recipientError_eq_ok_iff server (server.clientSockets.get client) (requestedID host packet)).mpr
      ⟨apart, other, present, named⟩
    obtain ⟨recipient, found⟩ := Option.isSome_iff_exists.mp ((recipientError_eq_ok_iff_isSome _ _).mp fine)
    refine ⟨_, recipient.ssl, messageReply host.order (server.clientSockets.get client).clientID message, answered,
      mem_packetsWritten.mp ?_, ?_⟩
    · rw [packetsWritten_relay, found]
      simp
    · simp only [messageReply, List.length_append, opcodeBytes_length, toBytes_length]
      omega
  · refine ⟨callHandlerGetChatRooms host (physicalView ambient buffer) server (server.clientSockets.get client),
      (server.clientSockets.get client).ssl,
      opcodeBytes .smsgMessage ++ cString (getChatRoomsStr host.traversal server.chatRooms), ?_, List.mem_cons_self, ?_⟩
    · rw [callHandler_delivered delivers long, isGetChatRooms]
      rfl
    · rw [List.length_append, opcodeBytes_length, cString_getChatRoomsStr _ clean, getChatRoomsStr_length]
      omega
  · have word : (text "Joined: ").length = 8 := by decide
    have plain : (0 : Byte) ∉ text "Joined: " := by decide
    have whole : cString (text "Joined: " ++ room.name) = text "Joined: " ++ room.name := by
      apply cString_eq_self
      rw [List.mem_append, not_or]
      exact ⟨plain, clean _ room found⟩
    refine ⟨sendMsgToSocket (physicalView ambient buffer) (server.clientSockets.get client)
        (text "Joined: " ++ room.name), (server.clientSockets.get client).ssl,
      opcodeBytes .smsgMessage ++ cString (text "Joined: " ++ room.name), ?_, List.mem_cons_self, ?_⟩
    · rw [callHandler_delivered delivers long, isGetRoomInfo]
      simp only [switchOpcode, callHandlerGetRoominfo, joined, checkRoomID, getRoomName, found, bind_ok]
      rfl
    · rw [whole, List.length_append, List.length_append, opcodeBytes_length, word]
      omega

def WritesFit (host : Host) (input : Input) (config : Config) : Prop :=
  ∀ next, step host input config = .ok next → ∀ ssl packet,
    .sslWrite ssl packet ∈ next.trace.drop config.trace.length → packet.length ≤ bufferSize

def Overruns (host : Host) (input : Input) (config : Config) : Prop :=
  ∃ (received : Received) (it : Nat) (present : it < config.server.clientSockets.length),
    config.pc = .processRequests it ∧ Receives input config received ∧ 2 ≤ received.bytes.length ∧
    TooLarge host config.server (config.server.clientSockets.get ⟨it, present⟩) received.bytes

theorem writesFit_iff {host : Host} {allowed : Input → Config → Prop} {boot : Boot} {inputs : List Input}
    {config : Config} (ran : ServerRun host allowed boot inputs config) (input : Input) :
    WritesFit host input config ↔ ¬Overruns host input config := by
  constructor
  · rintro fit ⟨received, it, present, reached, receives, long, large⟩
    obtain ⟨it', present', reached', isOpen, ready, data⟩ := receives
    obtain rfl := Pc.processRequests.inj (reached.symm.trans reached')
    obtain ⟨calls, ssl, reply, answered, made, overrun⟩ := exists_long_reply host (loaded config received)
      ⟨it, present⟩ long (handlerView_delivers input config received) (cleanNames_of_run ran) large
    have stepped := @step_of_received host input config received it present reached isOpen ready data long
    rw [handlerView] at stepped
    rw [answered, bind_ok] at stepped
    have small := fit _ stepped ssl reply (by rw [List.drop_left]; exact List.mem_append_right _ made)
    exact absurd small (not_le.mpr overrun)
  · intro small next stepped ssl packet made
    cases written_of_step stepped made with
    | reply received it reached receives long session _ sent =>
      have fits := received.fits
      refine reply_length_le (handlerView_delivers input config received) fits long (fun large => ?_) sent
      exact small ⟨received, it, it.isLt, reached, receives, long, large⟩
    | invalid => decide
    | greeting _ start =>
      have size : motdPacket.length = 44 := by decide
      simp only [List.length_drop, size, bufferSize]
      omega

/-- The packets that a run writes all fit the client's buffer exactly when none of its steps dispatches a packet
of one of the three kinds. -/
theorem replies_fit_iff (host : Host) (boot : Boot) (inputs : List Input) (config : Config) :
    ServerRun host (WritesFit host) boot inputs config ↔
      ServerRun host (fun input config => ¬Overruns host input config) boot inputs config := by
  constructor
  · intro ran
    exact ran.weaken fun _ input _ before fit => (writesFit_iff before input).mp fit
  · intro ran
    exact ran.weaken fun _ input _ before small => (writesFit_iff before input).mpr small

def longNameRow (count : Nat) : Row := { id := 1, name := some (List.replicate count 0x61), passwordHash := none }

theorem schema_longNameRow (count : Nat) : Schema [longNameRow count] :=
  ⟨by simp [longNameRow], by simp, by simp [longNameRow], by simp [longNameRow]⟩

theorem roomListSize_longNameRow (count : Nat) : roomListSize (loadRooms [longNameRow count]) = count + 11 := by
  have name : columnText (longNameRow count).name = List.replicate count 0x61 :=
    cString_eq_self (by simp [List.mem_replicate])
  have digit : (decimal (1 : Byte).toNat).length = 1 := by decide
  have entries : (loadRooms [longNameRow count]).entries = [⟨1, { name := columnText (longNameRow count).name }⟩] := rfl
  simp only [roomListSize, entries, lineSize, name, List.map_cons, List.map_nil, List.sum_cons, List.sum_nil,
    List.length_replicate, List.isEmpty_nil, if_true, digit]
  omega

def getRoomsPacket : Received := { bytes := [0, 0x0A], nonempty := by decide, fits := by decide }

/-- With a room whose name has 4090 letters in the table, a client that asks for the rooms is sent 4103 bytes. -/
theorem longNameRow_overruns_client :
    Schema [longNameRow 4090] ∧ ∃ config,
      ServerRun exampleHost (fun _ _ => True) (exampleBoot [longNameRow 4090]) untilRead config ∧
      ∃ next ssl packet, step exampleHost (deliver getRoomsPacket) config = .ok next ∧
        .sslWrite ssl packet ∈ next.trace.drop config.trace.length ∧ bufferSize < packet.length := by
  refine ⟨schema_longNameRow 4090, ?_⟩
  obtain ⟨config, ran⟩ : ∃ config, run (step exampleHost) untilRead (exampleBoot [longNameRow 4090]).config = .ok config :=
    ⟨_, rfl⟩
  have execution : ServerRun exampleHost (fun _ _ => True) (exampleBoot [longNameRow 4090]) untilRead config :=
    Execution.of_run .nil ran
  have overruns : Overruns exampleHost (deliver getRoomsPacket) config := by
    have rooms : config.server.chatRooms = loadRooms [longNameRow 4090] := by
      cases ran
      rfl
    have large : 4094 < roomListSize config.server.chatRooms := by
      rw [rooms, roomListSize_longNameRow]
      decide
    have receives : Receives (deliver getRoomsPacket) config getRoomsPacket := by
      cases ran
      exact ⟨0, by decide, rfl, by decide, rfl, rfl⟩
    obtain ⟨it, present, reached, -⟩ := id receives
    exact ⟨getRoomsPacket, it, present, reached, receives, by decide, Or.inr (Or.inl ⟨by decide, large⟩)⟩
  have longer : ¬WritesFit exampleHost (deliver getRoomsPacket) config :=
    fun fit => (writesFit_iff execution _).mp fit overruns
  simp only [WritesFit, not_forall, not_le] at longer
  obtain ⟨next, stepped, ssl, packet, made, size⟩ := longer
  exact ⟨config, execution, next, ssl, packet, stepped, made, size⟩

end Communo.ReplySizes
