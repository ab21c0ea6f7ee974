import Communo.ListDecoding
import Communo.Lib.KeyedList
import Communo.Transitions

/-! The client list on both sides of the wire: the server's encoder with its
size check and the client's decoding loop. -/

namespace Communo.ClientList
open Lib.ByteCodec Lib.CheckedMemory Lib.KeyedList Protocol NumParser Session Handlers MainLoop Client ListDecoding Dispatch Transitions

/-- An entry on the wire; the length field is what is left of the length in 16 bits. -/
def entryBytes (entry : BitVec 64 × List Byte) : List Byte :=
  toBytes .big 8 entry.1.toNat ++ (toBytes .big 2 (BitVec.ofNat 16 entry.2.length).toNat ++ entry.2)

/-- The sessions as the one at `position` is meant to see them: its own name is marked. -/
def listing (sockets : List ClientSocket) (position : Nat) : List (BitVec 64 × List Byte) :=
  sockets.mapIdx fun index listed =>
    (listed.clientID, if index = position then listed.clientUsername ++ text " (you)" else listed.clientUsername)

def encodedSize (entries : List (BitVec 64 × List Byte)) : Nat :=
  2 + 1 + (entries.map fun entry => 8 + 2 + entry.2.length).sum

theorem length_flatMap_entryBytes (entries : List (BitVec 64 × List Byte)) :
    2 + 1 + (entries.flatMap entryBytes).length = encodedSize entries := by
  have sizes : entries.map (fun entry => (entryBytes entry).length) =
      entries.map fun entry => 8 + 2 + entry.2.length := by
    apply List.map_congr_left
    intro entry _
    simp only [entryBytes, List.length_append, toBytes_length]
    omega
  rw [List.length_flatMap, sizes, encodedSize]

theorem flatMap_clientEntry {sockets : List ClientSocket} (distinct : (sockets.map ClientSocket.clientID).Nodup)
    (client : Fin sockets.length) :
    sockets.flatMap (clientEntry (sockets.get client)) = (listing sockets client).flatMap entryBytes := by
  have marked : sockets.map (fun listed => (listed.clientID, listedUsername (sockets.get client) listed)) =
      listing sockets client := by
    apply List.ext_getElem
    · simp [listing]
    · intro index inside _
      have bound : index < sockets.length := by simpa using inside
      have same : (sockets.get ⟨index, bound⟩).clientID = (sockets.get client).clientID ↔ index = client := by
        constructor
        · intro equal
          exact congrArg Fin.val (eq_of_key_get distinct equal)
        · intro equal
          simp [equal]
      simp only [List.get_eq_getElem] at same
      simp [listing, listedUsername, same]
  rw [← marked, List.flatMap_map]
  rfl

theorem stringMemory_agree {payload : List Byte} (address : Nat) (inside : address < payload.length) :
    stringMemory payload address = payload[address]? := by
  simp [stringMemory, holding, List.getElem?_append_left inside]

theorem exists_entries (entries : List (BitVec 64 × List Byte)) (short : ∀ entry ∈ entries, entry.2.length < 256 ^ 2) :
    ∃ list : List Entry, list.map Entry.decoded = entries ∧ entries.flatMap entryBytes = list.flatMap Entry.bytes := by
  induction entries with
  | nil => exact ⟨[], rfl, rfl⟩
  | cons entry entries ih =>
    obtain ⟨list, decoded, same⟩ := ih fun later member => short later (List.mem_cons_of_mem _ member)
    have width : (BitVec.ofNat 16 entry.2.length).toNat = entry.2.length :=
      Nat.mod_eq_of_lt (short entry List.mem_cons_self)
    refine ⟨⟨entry.1, entry.2, short entry List.mem_cons_self⟩ :: list, ?_, ?_⟩
    · rw [List.map_cons, decoded]
      rfl
    · rw [List.flatMap_cons, List.flatMap_cons, same, entryBytes, width]
      rfl

theorem name_short {entries : List (BitVec 64 × List Byte)} (fits : encodedSize entries ≤ 4096) :
    ∀ entry ∈ entries, entry.2.length < 256 ^ 2 := by
  intro entry member
  have part : 8 + 2 + entry.2.length ≤ (entries.map fun entry => 8 + 2 + entry.2.length).sum :=
    List.le_sum_of_mem (List.mem_map_of_mem member)
  unfold encodedSize at fits
  omega

theorem processClientList_entries (entries : List (BitVec 64 × List Byte))
    (short : ∀ entry ∈ entries, entry.2.length < 256 ^ 2) :
    processClientList (ChatErr.ok.code :: entries.flatMap entryBytes) = .ok (ChatErr.ok.code, entries) := by
  obtain ⟨list, decoded, same⟩ := exists_entries entries short
  have taken : Taken (entries.flatMap entryBytes) list := by
    refine ⟨[], by rw [same, List.append_nil], ?_⟩
    rw [complete_iff]
    simp
  rw [processClientList, readClientList_of_taken stringMemory_agree taken, decoded]

theorem clientListPacket_eq (server : Server) (client : Fin server.clientSockets.length)
    (distinct : (server.clientSockets.map ClientSocket.clientID).Nodup) :
    clientListPacket server (server.clientSockets.get client) =
      if encodedSize (listing server.clientSockets client) ≤ 4096 then
        opcodeBytes .smsgClientList ++
          (ChatErr.ok.code :: (listing server.clientSockets client).flatMap entryBytes)
      else opcodeBytes .smsgClientList ++ [ChatErr.tooMuchClients.code] := by
  have nonempty : 0 < server.clientSockets.length := Nat.zero_lt_of_lt client.isLt
  simp only [clientListPacket, flatMap_clientEntry distinct client, length_flatMap_entryBytes, if_pos nonempty]

/-- The list a session asks for fits one packet, and its client reads exactly the
sessions in table order off it with its own name marked; or it is told that there are too many. -/
theorem client_list_round_trip (view : View) (server : Server) (client : Fin server.clientSockets.length)
    (distinct : (server.clientSockets.map ClientSocket.clientID).Nodup) :
    ∃ packet, packetsWritten (callHandlerGetClientList view server (server.clientSockets.get client)) =
        [((server.clientSockets.get client).ssl, packet)] ∧
      packet.length ≤ 4096 ∧
      (packet = opcodeBytes .smsgClientList ++ [ChatErr.tooMuchClients.code] ↔
        4096 < encodedSize (listing server.clientSockets client)) ∧
      (encodedSize (listing server.clientSockets client) ≤ 4096 → opcodeOf packet = some .smsgClientList ∧
        processClientList (packet.drop 2) = .ok (ChatErr.ok.code, listing server.clientSockets client)) := by
  have size := length_flatMap_entryBytes (listing server.clientSockets client)
  refine ⟨clientListPacket server (server.clientSockets.get client), packetsWritten_send _ _ _, ?_⟩
  rw [clientListPacket_eq server client distinct]
  by_cases fits : encodedSize (listing server.clientSockets client) ≤ 4096
  · rw [if_pos fits]
    have decoded := processClientList_entries _ (name_short fits)
    refine ⟨by simp only [List.length_append, opcodeBytes_length, List.length_cons]; omega, ?_, fun _ => ⟨by simp, ?_⟩⟩
    · constructor
      · intro same
        exact absurd (List.cons.inj (List.append_cancel_left same)).1 (by decide)
      · intro large
        omega
    · rw [List.drop_append_of_le_length (by simp), List.drop_of_length_le (by simp), List.nil_append]
      exact decoded
  · rw [if_neg fits]
    refine ⟨by simp, ?_, fun small => absurd small fits⟩
    exact iff_of_true rfl (not_le.mp fits)

/-- The second of two sessions is sent one packet, with both of them in it and the mark on itself. -/
theorem client_list_second_of_two :
    ∃ packet, packetsWritten (callHandlerGetClientList (exampleView (holding [])) exampleServer
        (exampleServer.clientSockets.get ⟨1, by decide⟩)) =
          [((exampleServer.clientSockets.get ⟨1, by decide⟩).ssl, packet)] ∧
      processClientList (packet.drop 2) = .ok (0, [(0, text "<unk>"), (1, text "<unk> (you)")]) := by
  obtain ⟨packet, written, -, -, decoded⟩ :=
    client_list_round_trip (exampleView (holding [])) exampleServer ⟨1, by decide⟩ (by decide)
  exact ⟨packet, written, (decoded (by decide)).2⟩

end Communo.ClientList
