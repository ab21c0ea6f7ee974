import Communo.Faults

/-! Whether a packet's effect depends on nothing but its own bytes. The receive
buffer is shared by all sessions and never cleared, so a read behind the packet
returns what an earlier packet left there. -/

namespace Communo.PacketLocality
open Lib.ByteCodec Lib.CheckedMemory Protocol NumParser Chat Session Handlers MainLoop Dispatch Addition Faults

def withBuffer (view : View) (buffer : Mem) : View := { view with buffer := buffer }

theorem local_addLoop (host : Host) (payloadSize rounds : Nat) (state : AddState) :
    Local (fun mem => addLoop host mem payloadSize rounds state) := by
  induction rounds generalizing state with
  | zero => exact local_const _
  | succ rounds ih =>
    by_cases more : state.offset < payloadSize
    · simp only [addLoop, if_pos more]
      exact (local_readByte state.offset).bind fun tag =>
        (local_readNumber host.order (state.offset + 1) (NumberType.ofByte tag)).bind fun _ => ih _
    · simp only [addLoop, if_neg more]
      exact local_const _

theorem local_callHandlerMsgToClient (host : Host) (view : View) (server : Server) (client : ClientSocket)
    (offset payloadSize : Nat) :
    Local (fun mem => callHandlerMsgToClient host (withBuffer view mem) server client offset payloadSize) := by
  refine (local_readBytes offset 8).bind fun raw => Local.bind ?_ fun _ => local_of_constant fun _ _ => rfl
  by_cases found : recipientError server client (BitVec.ofNat 64 (ofBytes host.order raw)) = .ok
  · simp only [if_pos found]
    exact local_readBytes (offset + 8) payloadSize
  · simp only [if_neg found]
    exact local_const _

theorem local_callHandlerJoinRoom (view : View) (server : Server) (client : Fin server.clientSockets.length)
    (offset : Nat) : Local (fun mem => callHandlerJoinRoom (withBuffer view mem) server client offset) :=
  (local_readByte offset).bind fun _ => (local_readBytes (offset + 1) digestLength).bind fun _ =>
    local_of_constant fun _ _ => rfl

theorem local_switchOpcode (host : Host) (view : View) (server : Server) (client : Fin server.clientSockets.length)
    (payloadSize : Nat) (opcode : Option Opcode) :
    Local (fun mem => switchOpcode host (withBuffer view mem) server client payloadSize opcode) := by
  rcases opcode with _ | opcode
  · exact local_of_constant fun _ _ => rfl
  · cases opcode
    case cmsgEchoRequest =>
      simp only [switchOpcode]
      exact (local_readBytes 2 (payloadSize - 2)).bind fun _ => local_of_constant fun _ _ => rfl
    case cmsgBroadcastMessage =>
      simp only [switchOpcode]
      exact (local_readBytes 2 (payloadSize - 2)).bind fun _ => local_of_constant fun _ _ => rfl
    case cmsgSay =>
      simp only [switchOpcode]
      exact (local_readBytes 2 (payloadSize - 2)).bind fun _ => local_of_constant fun _ _ => rfl
    case cmsgAdditionRequest =>
      simp only [switchOpcode]
      split
      · exact ((local_addLoop host payloadSize _ _).bind fun _ => local_of_constant fun _ _ => rfl).bind
          fun _ => local_const _
      · exact local_const _
    case cmsgSendMsgToClient =>
      simp only [switchOpcode]
      split
      · exact (local_callHandlerMsgToClient host view server _ 2 payloadSize).bind fun _ => local_const _
      · exact local_const _
    case cmsgJoinRoom =>
      simp only [switchOpcode]
      split
      · exact local_callHandlerJoinRoom view server client 2
      · exact local_const _
    all_goals exact local_of_constant fun _ _ => rfl

theorem local_callHandler (host : Host) (view : View) (server : Server) (client : Fin server.clientSockets.length)
    (payloadSize : Nat) : Local (fun mem => callHandler host (withBuffer view mem) server client payloadSize) :=
  (local_readBytes 0 2).bind fun raw =>
    local_switchOpcode host view server client payloadSize (Opcode.ofCode (ofBytes .big raw))

def packetOf (buffer : Nat → Byte) (payloadSize : Nat) : List Byte := (List.range payloadSize).map buffer

/-- The dispatch reads no byte behind the packet, and no change of those bytes changes what it does. -/
def DependsOnlyOnPacket (host : Host) (ambient : Ambient) (server : Server)
    (client : Fin server.clientSockets.length) (payloadSize : Nat) (buffer : Nat → Byte) : Prop :=
  callHandler host (withBuffer (physicalView ambient buffer)
    (truncate payloadSize (physicalView ambient buffer).buffer)) server client payloadSize ≠ .error .stray ∧
  ∀ other : Nat → Byte, (∀ address < payloadSize, other address = buffer address) →
    callHandler host (physicalView ambient other) server client payloadSize =
      callHandler host (physicalView ambient buffer) server client payloadSize

/-- The request is forwarded to a session other than the sender's. -/
def ForwardsPrivateMessage (host : Host) (server : Server) (client : ClientSocket) (packet : List Byte) : Prop :=
  opcodeOf packet = some .cmsgSendMsgToClient ∧ 10 ≤ packet.length ∧
    requestedID host packet ≠ client.clientID ∧
    ∃ other ∈ server.clientSockets, other.clientID = requestedID host packet

/-- The last number of the request is cut short by the end of the packet. -/
def CutsNumberShort (packet : List Byte) : Prop :=
  opcodeOf packet = some .cmsgAdditionRequest ∧ 6 ≤ packet.length ∧ Truncated (packet.drop 2)

/-- On the packet alone a dispatch strays in exactly two situations. -/
theorem callHandler_stray_iff (host : Host) (server : Server) (client : Fin server.clientSockets.length)
    {view : View} {packet : List Byte} (delivers : Delivers view packet)
    (alone : ∀ address, packet.length ≤ address → view.buffer address = none)
    (readable : ∀ roomID address, (view.behindHash roomID address).isSome) (long : 2 ≤ packet.length) :
    callHandler host view server client packet.length = .error .stray ↔
      ForwardsPrivateMessage host server (server.clientSockets.get client) packet ∨ CutsNumberShort packet := by
  have copied : (readBytes view.buffer 10 packet.length : Checked Exn (List Byte)) = .error .stray :=
    readBytes_stray (packet.length - 1) (by omega) (alone _ (by omega))
  have summed : addLoop host view.buffer packet.length (packet.length - 2) (.start 2) = .error .stray ↔
      Truncated (packet.drop 2) := by
    constructor
    · intro strayed
      rcases walk_cases (packet.drop 2) with complete | truncated | unknown
      · obtain ⟨later, finished⟩ := addLoop_complete delivers host (.start 2) complete le_rfl
        exact absurd (strayed.symm.trans finished) (by simp)
      · exact truncated
      · exact absurd (strayed.symm.trans (addLoop_unknownTag delivers host (.start 2) unknown le_rfl)) (by simp)
    · intro truncated
      exact addLoop_truncated delivers host (.start 2) truncated le_rfl (alone _ le_rfl)
  rw [callHandler_eq_error_iff delivers long readable, summed, copied, or_comm]
  simp only [ForwardsPrivateMessage, CutsNumberShort, recipientError_eq_ok_iff, and_true]

/-- A dispatch depends on its packet alone unless it forwards a private message
(the copy is as long as the packet but starts ten bytes into it) or decodes a
number that the packet cuts short. -/
theorem dependsOnlyOnPacket_iff (host : Host) (ambient : Ambient) (server : Server)
    (client : Fin server.clientSockets.length) (payloadSize : Nat) (buffer : Nat → Byte)
    (long : 2 ≤ payloadSize) (fits : payloadSize ≤ bufferSize) :
    DependsOnlyOnPacket host ambient server client payloadSize buffer ↔
      ¬ForwardsPrivateMessage host server (server.clientSockets.get client) (packetOf buffer payloadSize) ∧
        ¬CutsNumberShort (packetOf buffer payloadSize) := by
  have size : (packetOf buffer payloadSize).length = payloadSize := by simp [packetOf]
  have delivers : Delivers (withBuffer (physicalView ambient buffer)
      (truncate payloadSize (physicalView ambient buffer).buffer)) (packetOf buffer payloadSize) := by
    intro address inside
    rw [size] at inside
    simp [withBuffer, truncate, physicalView, packetOf, inside, lt_of_lt_of_le inside fits]
  have alone : ∀ address, (packetOf buffer payloadSize).length ≤ address →
      (withBuffer (physicalView ambient buffer)
        (truncate payloadSize (physicalView ambient buffer).buffer)).buffer address = none := by
    intro address behind
    rw [size] at behind
    simp [withBuffer, truncate, behind]
  have confined := callHandler_stray_iff host server client delivers alone (fun _ _ => rfl) (by omega)
  rw [size] at confined
  rw [← not_or, ← confined]
  constructor
  · exact fun holds => holds.1
  · refine fun settled => ⟨settled, fun other same => ?_⟩
    refine (local_callHandler host (physicalView ambient buffer) server client payloadSize).eq_of_truncate
      (fun address inside => ?_) settled
    simp only [if_pos (lt_of_lt_of_le inside fits), same address inside]

def sumBuffer : Nat → Byte := fun address => (additionPacket .little [.int8 2, .uint16 300]).getD address 0xff

theorem dependsOnlyOnPacket_sum :
    DependsOnlyOnPacket exampleHost exampleAmbient exampleServer ⟨0, by decide⟩ 7 sumBuffer := by
  refine (dependsOnlyOnPacket_iff exampleHost exampleAmbient exampleServer ⟨0, by decide⟩ 7 _ (by decide) (by decide)).mpr
    ⟨fun forwards => absurd forwards.1 (by decide), fun cuts => ?_⟩
  have strayed : addLoop exampleHost (holding (packetOf sumBuffer 7)) 7 5 (.start 2) = .error .stray :=
    addLoop_truncated (fun _ _ => rfl) exampleHost (.start 2) cuts.2.2 le_rfl rfl
  have summed : ∃ state, addLoop exampleHost (holding (packetOf sumBuffer 7)) 7 5 (.start 2) = .ok state := ⟨_, rfl⟩
  obtain ⟨state, decoded⟩ := summed
  cases strayed.symm.trans decoded

def staleBuffer (stale : Byte) : Nat → Byte := fun address =>
  ([0, 5, 1, 0, 0, 0, 0, 0, 0, 0, 0x68, 0x69, stale] : List Byte).getD address 0

theorem staleBuffer_reaches_recipient :
    ¬DependsOnlyOnPacket exampleHost exampleAmbient exampleServer ⟨0, by decide⟩ 12 (staleBuffer 0) := by
  rintro ⟨-, same⟩
  have sent := congrArg (Except.map Prod.snd) (same (staleBuffer 0x53) (by decide))
  exact absurd sent (by decide)

end Communo.PacketLocality
