import Communo.Dispatch
import Communo.Logging

/-! What the system log records of the lines. A line is recorded as it is when
it has no percent sign, and only a payload can bring one in. -/

namespace Communo.LogRecords
open Lib.ByteCodec Lib.CheckedMemory Lib.Formats Lib.Numerals Protocol NumParser Literals Session Handlers MainLoop Dispatch
  Logging

section Plain

theorem percent_notMem_hexadecimal (value : Nat) : percent ∉ hexadecimal value := by
  intro member
  obtain ⟨character, written, same⟩ := List.mem_map.mp member
  obtain ⟨digit, small, rfl⟩ := exists_digit_of_mem_toDigits (by decide) written
  have others : ∀ digit < 16, char (Nat.digitChar digit).toUpper ≠ percent := by decide
  exact others digit small same

theorem percent_notMem_opcodeStr {name : String} (plain : percent ∉ text name) (code : Nat) :
    percent ∉ opcodeStr name code := by
  simp only [opcodeStr, List.mem_append, not_or, List.mem_replicate]
  exact ⟨⟨⟨⟨⟨by decide, plain⟩, by decide⟩, fun zero => absurd zero.2 (by decide)⟩, percent_notMem_hexadecimal code⟩,
    by decide⟩

theorem percent_notMem_opcodeName (opcode : Opcode) : percent ∉ text (opcodeName opcode) := by
  cases opcode <;> decide

theorem percent_notMem_opcodeOstr (opcode : Opcode) : percent ∉ opcodeOstr opcode := by
  simp only [opcodeOstr, List.mem_append, not_or]
  exact ⟨⟨⟨⟨by decide, percent_notMem_opcodeName opcode⟩, by decide⟩, percent_notMem_hexadecimal _⟩, by decide⟩

theorem percent_notMem_decimal (value : Nat) : percent ∉ decimal value :=
  (decimal_decimal value).notMem percent (by decide)

theorem percent_notMem_decimalInt (value : Int) : percent ∉ decimalInt value := by
  unfold decimalInt
  split_ifs
  · exact List.not_mem_cons_of_ne_of_not_mem (by decide) (percent_notMem_decimal _)
  · exact percent_notMem_decimal _

theorem percent_notMem_numberToString (wording : Wording) (number : Number) :
    percent ∉ numberToString wording.printing number := by
  cases number with
  | float bits => exact wording.plainFloat bits
  | double bits => exact wording.plainDouble bits
  | _ => exact percent_notMem_decimalInt _

def Plain (lines : List (List Byte)) : Prop := ∀ line ∈ lines, percent ∉ line

variable {wording : Wording} {host : Host} {view : View} {server : Server}

theorem Plain.nil : Plain [] := by simp [Plain]

theorem Plain.cons {line : List Byte} {lines : List (List Byte)} (first : percent ∉ line) (rest : Plain lines) :
    Plain (line :: lines) :=
  List.forall_mem_cons.mpr ⟨first, rest⟩

theorem Plain.append {first second : List (List Byte)} (before : Plain first) (after : Plain second) :
    Plain (first ++ second) :=
  List.forall_mem_append.mpr ⟨before, after⟩

theorem Plain.unlessThrown {α : Type} {result : Checked Exn α} {lines : α → List (List Byte)}
    (plain : ∀ value, Plain (lines value)) : Plain (unlessThrown result lines) := by
  cases result with
  | ok value => exact plain value
  | error fault => exact .nil

theorem plain_send (client : ClientSocket) (packet : List Byte) (opcode : Opcode) :
    Plain (sendSSLPacketToClientSocketLog wording view client packet (opcodeOstr opcode)) := by
  unfold sendSSLPacketToClientSocketLog
  refine .cons ?_ ?_
  · simp only [List.mem_append, not_or]
    exact ⟨⟨⟨⟨by decide, percent_notMem_opcodeOstr opcode⟩, by decide⟩, percent_notMem_decimal _⟩, by decide⟩
  · split_ifs
    · refine .cons ?_ .nil
      simp only [List.mem_append, not_or]
      exact ⟨⟨⟨by decide, percent_notMem_opcodeOstr opcode⟩, by decide⟩, percent_notMem_decimalInt _⟩
    · exact .nil

theorem plain_sendMsgToSocket (client : ClientSocket) (msg : List Byte) :
    Plain (sendMsgToSocketLog wording view client msg) :=
  (plain_send client _ .smsgMessage).append (.cons (by decide) .nil)

theorem plain_flatMap {lines : ClientSocket → List (List Byte)} (plain : ∀ client, Plain (lines client)) :
    Plain (server.clientSockets.flatMap lines) := by
  intro line member
  obtain ⟨client, -, logged⟩ := List.mem_flatMap.mp member
  exact plain client line logged

theorem plain_addLoop (mem : Mem) (payloadSize rounds offset : Nat) :
    Plain (addLoopLog wording host mem payloadSize rounds offset) := by
  induction rounds generalizing offset with
  | zero => exact .nil
  | succ rounds ih =>
    unfold addLoopLog
    split_ifs
    · refine .unlessThrown fun tag => .unlessThrown fun read => .cons ?_ (ih read.2)
      simp only [List.mem_append, not_or]
      exact ⟨⟨⟨by decide, percent_notMem_decimal _⟩, by decide⟩, percent_notMem_numberToString wording _⟩
    · exact .nil

theorem plain_callHandlerAdd (client : ClientSocket) (offset payloadSize : Nat) :
    Plain (callHandlerAddLog wording host view client offset payloadSize) := by
  refine (plain_addLoop _ _ _ _).append (.unlessThrown fun state => .cons ?_ (plain_send _ _ _))
  simp only [List.mem_append, not_or]
  exact ⟨by decide, wording.plainDouble _⟩

theorem plain_callHandlerBroadcast (stream : List Byte) : Plain (callHandlerBroadcastLog wording view server stream) := by
  refine .cons ?_ (plain_flatMap fun client => ?_)
  · simp only [List.mem_append, not_or]
    exact ⟨by decide, percent_notMem_decimal _⟩
  · split_ifs
    · exact .nil
    · exact plain_send _ _ _

theorem plain_callHandlerMsgToClient (client : ClientSocket) (offset payloadSize : Nat) :
    Plain (callHandlerMsgToClientLog wording host view server client offset payloadSize) := by
  refine .unlessThrown fun raw => .unlessThrown fun message => ?_
  unfold relayPrivateMessageLog
  refine (plain_send _ _ _).append ?_
  split
  · exact plain_send _ _ _
  · exact .nil

theorem plain_callHandlerGetRoominfo (client : ClientSocket) :
    Plain (callHandlerGetRoominfoLog wording view server client) := by
  unfold callHandlerGetRoominfoLog
  split_ifs
  · exact plain_sendMsgToSocket _ _
  · exact plain_sendMsgToSocket _ _
  · exact .unlessThrown fun name => plain_sendMsgToSocket _ _

theorem plain_callHandlerJoinRoom (client : ClientSocket) (offset : Nat) :
    Plain (callHandlerJoinRoomLog wording view server client offset) := by
  refine .unlessThrown fun roomID => .unlessThrown fun hash => .unlessThrown fun verdict => ?_
  split_ifs
  · exact plain_send _ _ _
  · exact plain_send _ _ _

theorem plain_callHandlerSay (client : ClientSocket) (message : List Byte) :
    Plain (callHandlerSayLog wording view server client message) := by
  unfold callHandlerSayLog
  split_ifs
  · refine (plain_send _ _ _).append (plain_flatMap fun other => ?_)
    split_ifs
    · exact .nil
    · exact .nil
    · exact plain_send _ _ _
  · exact plain_send _ _ _
  · exact plain_send _ _ _

theorem percent_notMem_receivedOpcode (opcode : Opcode) : percent ∉ receivedOpcode opcode := by
  simp only [receivedOpcode, List.mem_append, not_or]
  exact ⟨by decide, percent_notMem_opcodeStr (percent_notMem_opcodeName opcode) _⟩

end Plain

section Records

variable {logger : Logger} (debugging : logger.logLevelFilter &&& LogFlag.debug.bits ≠ 0)
  (toSystem : logger.logOutputFilter &&& logSystem ≠ 0)
include debugging toSystem

theorem filterMap_systemRecord_log (moment : Moment) (line : List Byte) :
    (logger.log moment .debug line).filterMap Output.systemRecord = [formatted moment.errorText (cString line)] := by
  unfold Logger.log Logger.toFile
  rw [if_pos debugging, if_pos toSystem]
  split_ifs <;> rfl

/-- The records are the lines themselves exactly when none of them has a percent sign before its first NUL. -/
theorem recorded_eq_iff (moments : Nat → Moment) (lines : List (List Byte)) :
    recorded logger moments lines = lines.map (fun line => some (cString line)) ↔ ∀ line ∈ lines, percent ∉ cString line := by
  have records : recorded logger moments lines =
      lines.zipIdx.map fun entry => formatted (moments entry.2).errorText (cString entry.1) := by
    simp only [recorded, filterMap_systemRecord_log debugging toSystem]
    exact List.flatMap_pure_eq_map _ _
  have given : lines.map (fun line => some (cString line)) = lines.zipIdx.map fun entry => some (cString entry.1) := by
    conv_lhs => rw [← List.zipIdx_map_fst 0 lines, List.map_map]
    rfl
  rw [records, given, List.map_inj_left]
  constructor
  · intro same line member
    obtain ⟨call, inside, rfl⟩ := List.mem_iff_getElem.mp member
    have entry : (lines[call], call) ∈ lines.zipIdx := by simp [List.mem_zipIdx_iff_getElem?]
    exact (formatted_eq_self_iff _ _).mp (same _ entry)
  · rintro plain ⟨line, call⟩ entry
    exact (formatted_eq_self_iff _ _).mpr (plain line (List.fst_mem_of_mem_zipIdx entry))

end Records

section Packets

/-- The labels of the switch that put the payload into the line. -/
def Quoting (opcode : Option Opcode) : Prop :=
  opcode = some .cmsgEchoRequest ∨ opcode = some .cmsgBroadcastMessage ∨ opcode = some .cmsgSay

instance (opcode : Option Opcode) : Decidable (Quoting opcode) :=
  inferInstanceAs (Decidable (_ ∨ _ ∨ _))

variable (wording : Wording) (host : Host) (ambient : Ambient)

theorem packetLog_eq (server : Server) (it : Fin server.clientSockets.length) {received : Received}
    (long : 2 ≤ received.bytes.length) :
    packetLog wording host ambient server it received = switchOpcodeLog wording host
      (physicalView ambient (receive server.buffer received.bytes))
      { server with buffer := receive server.buffer received.bytes } (server.clientSockets.get it) received.bytes.length
      (ofBytes .big (received.bytes.take 2)) := by
  simp only [packetLog, if_pos long, callHandlerLog]
  rw [readBytes_slice (physicalView_delivers ambient server.buffer received) (by omega), List.drop_zero]
  rfl

theorem plain_switchOpcodeLog (view : View) (server : Server) (client : ClientSocket) (payloadSize code : Nat)
    (unquoted : ¬Quoting (Opcode.ofCode code)) :
    Plain (switchOpcodeLog wording host view server client payloadSize code) := by
  have invalid {line : List Byte} (plain : percent ∉ line) : percent ∉ line ++ invalidLength :=
    fun member => (List.mem_append.mp member).elim plain (by decide)
  unfold switchOpcodeLog
  split
  · next isEcho => exact absurd (.inl isEcho) unquoted
  · split_ifs
    · exact .cons (percent_notMem_receivedOpcode _) (plain_callHandlerAdd _ _ _)
    · exact .cons (invalid (percent_notMem_receivedOpcode _)) .nil
  · next isBroadcast => exact absurd (.inr (.inl isBroadcast)) unquoted
  · exact .cons (percent_notMem_receivedOpcode _) (plain_send _ _ _)
  · split_ifs
    · exact .cons (percent_notMem_receivedOpcode _) (plain_callHandlerMsgToClient _ _ _)
    · exact .cons (invalid (percent_notMem_receivedOpcode _)) .nil
  · exact .cons (percent_notMem_receivedOpcode _) (plain_send _ _ _)
  · exact .cons (percent_notMem_receivedOpcode _) (plain_send _ _ _)
  · exact .cons (percent_notMem_receivedOpcode _) .nil
  · exact .cons (percent_notMem_receivedOpcode _) (plain_send _ _ _)
  · exact .cons (percent_notMem_receivedOpcode _) (plain_sendMsgToSocket _ _)
  · exact .cons (percent_notMem_receivedOpcode _) (plain_callHandlerGetRoominfo _)
  · split_ifs
    · exact .cons (by decide) (plain_callHandlerJoinRoom _ _)
    · exact .cons (by decide) .nil
  · next isSay => exact absurd (.inr (.inr isSay)) unquoted
  · refine .cons ?_ (plain_sendMsgToSocket _ _)
    simp only [List.mem_append, not_or]
    exact ⟨by decide, percent_notMem_opcodeStr (by decide) code⟩

/-- The first line of the three quoting labels ends with the payload, and the others are as plain as ever. -/
theorem switchOpcodeLog_quoting {view : View} {packet : List Byte} (delivers : Delivers view packet)
    (long : 2 ≤ packet.length) (server : Server) (client : ClientSocket) {code : Nat}
    (quoting : Quoting (Opcode.ofCode code)) :
    ∃ opcode lines, Opcode.ofCode code = some opcode ∧ Plain lines ∧
      switchOpcodeLog wording host view server client packet.length code =
        receivedPayload opcode (packet.drop 2) :: lines := by
  rcases quoting with isEcho | isBroadcast | isSay
  · refine ⟨_, callHandlerEchoLog wording view client (packet.drop 2), isEcho, plain_send _ _ _, ?_⟩
    simp only [switchOpcodeLog, isEcho, readBytes_payload delivers long, unlessThrown]
  · refine ⟨_, callHandlerBroadcastLog wording view server (packet.drop 2), isBroadcast, plain_callHandlerBroadcast _, ?_⟩
    simp only [switchOpcodeLog, isBroadcast, readBytes_payload delivers long, unlessThrown]
  · refine ⟨_, callHandlerSayLog wording view server client (packet.drop 2), isSay, plain_callHandlerSay _ _, ?_⟩
    simp only [switchOpcodeLog, isSay, readBytes_payload delivers long, unlessThrown]

theorem percent_mem_receivedPayload_iff {opcode : Opcode} (quoting : Quoting (some opcode)) (payload : List Byte) :
    percent ∈ cString (receivedPayload opcode payload) ↔ percent ∈ cString payload := by
  have named : 0 ∉ receivedOpcode opcode := by
    rcases quoting with same | same | same <;> cases same <;> decide
  have clean : 0 ∉ receivedPayload opcode payload := by
    simp only [receivedPayload, List.mem_append, not_or]
    exact ⟨⟨⟨named, by decide⟩, by decide⟩, zero_notMem_cString payload⟩
  rw [cString_eq_self clean]
  simp only [receivedPayload, List.mem_append, percent_notMem_receivedOpcode, false_or]
  exact ⟨fun member => member.resolve_left (by decide), .inr⟩

end Packets

/-- With debugging on and the system log selected, the records of a packet are
what was logged exactly when no payload that is quoted has a percent sign
before its first NUL. -/
theorem packet_recorded_iff (wording : Wording) (host : Host) (ambient : Ambient) (server : Server)
    (it : Fin server.clientSockets.length) (received : Received) {logger : Logger} (moments : Nat → Moment)
    (debugging : logger.logLevelFilter &&& LogFlag.debug.bits ≠ 0) (toSystem : logger.logOutputFilter &&& logSystem ≠ 0) :
    recorded logger moments (packetLog wording host ambient server it received) =
        (packetLog wording host ambient server it received).map (fun line => some (cString line)) ↔
      (Quoting (opcodeOf received.bytes) → percent ∉ cString (received.bytes.drop 2)) := by
  have cut {line : List Byte} (plain : percent ∉ line) : percent ∉ cString line :=
    fun member => plain ((List.takeWhile_sublist _).mem member)
  rw [recorded_eq_iff debugging toSystem]
  by_cases long : 2 ≤ received.bytes.length
  · rw [packetLog_eq wording host ambient server it long]
    by_cases quoting : Quoting (opcodeOf received.bytes)
    · obtain ⟨opcode, lines, named, plain, shape⟩ := switchOpcodeLog_quoting wording host
        (physicalView_delivers ambient server.buffer received) long
        { server with buffer := receive server.buffer received.bytes } (server.clientSockets.get it) quoting
      rw [shape, List.forall_mem_cons, percent_mem_receivedPayload_iff (named ▸ quoting)]
      exact ⟨fun clean _ => clean.1, fun clean => ⟨clean quoting, fun line member => cut (plain line member)⟩⟩
    · have plain := plain_switchOpcodeLog wording host (physicalView ambient (receive server.buffer received.bytes))
        { server with buffer := receive server.buffer received.bytes } (server.clientSockets.get it) received.bytes.length
        (ofBytes .big (received.bytes.take 2)) quoting
      exact ⟨fun _ quoted => absurd quoted quoting, fun _ line member => cut (plain line member)⟩
  · have nothing : received.bytes.drop 2 = [] := List.drop_eq_nil_of_le (by omega)
    simp [packetLog, if_neg long, nothing, cString]

def daemonLogger : Logger where
  logLevelFilter := logLevelDebug
  logOutputFilter := logSystem
  logOutputFile := []

def exampleMoment : Moment where
  opens := false
  writes := false
  errorText := ⟨text "Success", by decide⟩

def exampleWording : Wording where
  printing := { float _ := text "0.000000", double _ := text "0.000000" }
  sslError _ _ := 5
  plainFloat _ := show percent ∉ text "0.000000" by decide
  plainDouble _ := show percent ∉ text "0.000000" by decide

def oneSession : Server :=
  { (exampleBoot []).config.server with clientSockets := [{ socket := 4, ssl := some 0, sslEnabled := true }] }

def echoLog (payload : List Byte) (short : payload.length ≤ 8) : List (List Byte) :=
  packetLog exampleWording exampleHost exampleAmbient oneSession ⟨0, by decide⟩
    ⟨opcodeBytes .cmsgEchoRequest ++ payload, by simp, by simp [bufferSize]; omega⟩

theorem greeting_recorded :
    recorded daemonLogger (fun _ => exampleMoment) (echoLog (text "hi") (by decide)) =
      (echoLog (text "hi") (by decide)).map fun line => some (cString line) :=
  (packet_recorded_iff exampleWording exampleHost exampleAmbient oneSession ⟨0, by decide⟩ _ (fun _ => exampleMoment)
    (by decide) (by decide)).mpr (by decide)

/-- Two percent signs are recorded as one, and there is no defined record of a text that asks for an argument. -/
theorem percent_signs_not_recorded :
    recorded daemonLogger (fun _ => exampleMoment) (echoLog (text "%%") (by decide)) ≠
        ((echoLog (text "%%") (by decide)).map fun line => some (cString line)) ∧
      (echoLog (text "%%") (by decide)).head? =
        some (text "Received opcode: [CMSG_ECHO_REQUEST (0x0001)]\npayload: %%") ∧
      (recorded daemonLogger (fun _ => exampleMoment) (echoLog (text "%%") (by decide))).head? =
        some (some (text "Received opcode: [CMSG_ECHO_REQUEST (0x0001)]\npayload: %")) ∧
      (recorded daemonLogger (fun _ => exampleMoment) (echoLog (text "%s") (by decide))).head? = some none := by
  decide +kernel

end Communo.LogRecords
