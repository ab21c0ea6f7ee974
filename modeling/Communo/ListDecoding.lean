import Communo.Client
import Communo.Lib.PrefixCode

/-! The decoding loop of the client list on any payload: it takes whole entries
off the front for as long as there is one. -/

namespace Communo.ListDecoding
open Lib.ByteCodec Lib.CheckedMemory Lib.PrefixCode Protocol NumParser Client

/-- An entry with a name that the length field can announce. -/
structure Entry where
  clientID : BitVec 64
  clientName : List Byte
  short : clientName.length < 256 ^ 2

def Entry.bytes (entry : Entry) : List Byte :=
  toBytes .big 8 entry.clientID.toNat ++ (toBytes .big 2 entry.clientName.length ++ entry.clientName)

def Entry.decoded (entry : Entry) : BitVec 64 × List Byte := (entry.clientID, entry.clientName)

def announced (bytes : List Byte) : Nat := ofBytes .big ((bytes.drop 8).take 2)

section Entries

@[simp]
theorem Entry.bytes_length (entry : Entry) : entry.bytes.length = 8 + 2 + entry.clientName.length := by
  simp only [Entry.bytes, List.length_append, toBytes_length]
  omega

theorem prefixFree_bytes : PrefixFree Entry.bytes := by
  intro first second rest rest' same
  simp only [Entry.bytes, List.append_assoc] at same
  obtain ⟨sameID, same⟩ := List.append_inj same (by simp)
  obtain ⟨sameLength, same⟩ := List.append_inj same (by simp)
  have clientID : first.clientID = second.clientID := by
    rw [← ofNat_ofBytes_toBytes .big 8 first.clientID (by decide), sameID, ofNat_ofBytes_toBytes .big 8 _ (by decide)]
  have length : first.clientName.length = second.clientName.length := by
    rw [← ofBytes_toBytes .big 2 _ first.short, sameLength, ofBytes_toBytes .big 2 _ second.short]
  have clientName := (List.append_inj same length).1
  cases first
  cases second
  cases clientID
  cases clientName
  rfl

theorem announced_append (entry : Entry) (rest : List Byte) :
    announced (entry.bytes ++ rest) = entry.clientName.length := by
  have field : ((entry.bytes ++ rest).drop 8).take 2 = toBytes .big 2 entry.clientName.length := by
    rw [Entry.bytes, List.append_assoc, List.append_assoc, List.drop_left' (toBytes_length .big 8 _),
      List.take_left' (toBytes_length .big 2 _)]
  rw [announced, field, ofBytes_toBytes .big 2 _ entry.short]

theorem exists_entry {bytes : List Byte} (header : 8 + 2 ≤ bytes.length)
    (whole : 8 + 2 + announced bytes ≤ bytes.length) :
    ∃ entry : Entry, bytes = entry.bytes ++ bytes.drop (8 + 2 + announced bytes) ∧
      entry.decoded = (BitVec.ofNat 64 (ofBytes .big (bytes.take 8)), (bytes.drop (8 + 2)).take (announced bytes)) := by
  have idLength : (bytes.take 8).length = 8 := by
    rw [List.length_take]
    omega
  have sizeLength : ((bytes.drop 8).take 2).length = 2 := by
    rw [List.length_take, List.length_drop]
    omega
  have nameLength : ((bytes.drop (8 + 2)).take (announced bytes)).length = announced bytes := by
    rw [List.length_take, List.length_drop]
    omega
  have short : announced bytes < 256 ^ 2 := sizeLength ▸ ofBytes_lt .big ((bytes.drop 8).take 2)
  refine ⟨⟨BitVec.ofNat 64 (ofBytes .big (bytes.take 8)), (bytes.drop (8 + 2)).take (announced bytes),
    nameLength.trans_lt short⟩, ?_, rfl⟩
  have rawID : toBytes .big 8 (BitVec.ofNat 64 (ofBytes .big (bytes.take 8))).toNat = bytes.take 8 := by
    have word := @toBytes_ofNat_ofBytes .big 64 (bytes.take 8) (by rw [idLength]; decide)
    rwa [idLength] at word
  have rawSize : toBytes .big 2 (announced bytes) = (bytes.drop 8).take 2 := by
    have field := toBytes_ofBytes .big ((bytes.drop 8).take 2)
    rwa [sizeLength] at field
  have behindID := List.take_append_drop 2 (bytes.drop 8)
  have behindSize := List.take_append_drop (announced bytes) (bytes.drop (8 + 2))
  rw [List.drop_drop] at behindID behindSize
  calc bytes = bytes.take 8 ++ bytes.drop 8 := (List.take_append_drop 8 bytes).symm
    _ = bytes.take 8 ++ ((bytes.drop 8).take 2 ++ bytes.drop (8 + 2)) := by rw [behindID]
    _ = bytes.take 8 ++ ((bytes.drop 8).take 2 ++
          ((bytes.drop (8 + 2)).take (announced bytes) ++ bytes.drop (8 + 2 + announced bytes))) := by
      rw [behindSize]
    _ = _ := by simp only [Entry.bytes, rawID, nameLength, rawSize, List.append_assoc]

theorem complete_iff (bytes : List Byte) :
    Complete Entry.bytes bytes ↔ 8 + 2 ≤ bytes.length ∧ 8 + 2 + announced bytes ≤ bytes.length := by
  constructor
  · rintro ⟨entry, rest, rfl⟩
    rw [announced_append, List.length_append, Entry.bytes_length]
    omega
  · rintro ⟨header, whole⟩
    obtain ⟨entry, split, -⟩ := exists_entry header whole
    exact ⟨entry, _, split⟩

theorem fragment_iff (bytes : List Byte) : Fragment Entry.bytes bytes ↔ ¬Complete Entry.bytes bytes := by
  constructor
  · exact not_complete_of_fragment prefixFree_bytes
  · intro broken
    apply @fragment_of_extended _ _ _ bytes (List.replicate (8 + 2 + 256 ^ 2) 0) broken
    rw [complete_iff, List.length_append, List.length_replicate]
    have short := ofBytes_lt .big (((bytes ++ List.replicate (8 + 2 + 256 ^ 2) 0).drop 8).take 2)
    have two : (((bytes ++ List.replicate (8 + 2 + 256 ^ 2) (0 : Byte)).drop 8).take 2).length = 2 := by
      simp only [List.length_take, List.length_drop, List.length_append, List.length_replicate]
      omega
    rw [two] at short
    rw [announced]
    omega

/-- The entries are all that the bytes start with. -/
def Taken (bytes : List Byte) (entries : List Entry) : Prop :=
  ∃ tail, bytes = entries.flatMap Entry.bytes ++ tail ∧ ¬Complete Entry.bytes tail

theorem Taken.unique {bytes : List Byte} {entries others : List Entry} (taken : Taken bytes entries)
    (also : Taken bytes others) : entries = others := by
  obtain ⟨tail, split, broken⟩ := taken
  obtain ⟨rest, same, broken'⟩ := also
  exact split_unique prefixFree_bytes broken' broken (split.symm.trans same)

end Entries

section Loop
variable {mem : Mem} {payload : List Byte}

/-- Every round moves the offset by at least ten bytes, so the bound on the rounds never ends the loop. -/
theorem clientListLoop_settled (mem : Mem) (size rounds more : Nat) (state : ListState)
    (enough : size ≤ state.offset + rounds) :
    clientListLoop mem size (rounds + more) state = clientListLoop mem size rounds state := by
  induction rounds generalizing state with
  | zero =>
    cases more with
    | zero => rfl
    | succ more => simp only [clientListLoop, if_neg (by omega : ¬state.offset < size)]
  | succ rounds ih =>
    rw [Nat.succ_add]
    simp only [clientListLoop]
    split
    · split
      · rfl
      · congr 1
        funext rawID
        congr 1
        funext rawSize
        split
        · rfl
        · congr 1
          funext clientName
          exact ih _ (by simp only; omega)
    · rfl

section Rounds
variable (agree : ∀ address < payload.length, mem address = payload[address]?) {state : ListState} (rounds : Nat)
include agree

theorem clientListLoop_round (header : state.offset + 8 + 2 ≤ payload.length)
    (fits : state.offset + 8 + 2 + announced (payload.drop state.offset) ≤ payload.length) {entry : Entry}
    (decoded : entry.decoded = (BitVec.ofNat 64 (ofBytes .big ((payload.drop state.offset).take 8)),
      ((payload.drop state.offset).drop (8 + 2)).take (announced (payload.drop state.offset)))) :
    clientListLoop mem payload.length (rounds + 1) state = clientListLoop mem payload.length rounds
      { offset := state.offset + (8 + 2 + announced (payload.drop state.offset)),
        entries := state.entries ++ [entry.decoded] } := by
  have size : ofBytes .big ((payload.drop (state.offset + 8)).take 2) = announced (payload.drop state.offset) := by
    rw [announced, List.drop_drop]
  simp only [clientListLoop, if_pos (by omega : state.offset < payload.length),
    if_neg (by omega : ¬state.offset + 8 + 2 > payload.length),
    readBytes_slice agree (by omega : state.offset + 8 ≤ payload.length), readBytes_slice agree header, bind_ok, size,
    if_neg (not_lt.mpr fits), readBytes_slice agree fits]
  rw [decoded, List.drop_drop]
  simp only [← Nat.add_assoc]

/-- Both `break`s, and the end of the payload, come where no whole entry is left. -/
theorem clientListLoop_break (broken : ¬Complete Entry.bytes (payload.drop state.offset)) :
    ∃ offset, clientListLoop mem payload.length (rounds + 1) state = .ok { state with offset := offset } := by
  rw [complete_iff, List.length_drop] at broken
  have size : ofBytes .big ((payload.drop (state.offset + 8)).take 2) = announced (payload.drop state.offset) := by
    rw [announced, List.drop_drop]
  simp only [clientListLoop]
  split_ifs with more short
  · exact ⟨_, rfl⟩
  · have header : state.offset + 8 + 2 ≤ payload.length := not_lt.mp short
    have long : state.offset + 8 + 2 + announced (payload.drop state.offset) > payload.length := by omega
    simp only [readBytes_slice agree (by omega : state.offset + 8 ≤ payload.length), readBytes_slice agree header,
      bind_ok, size, if_pos long]
    exact ⟨_, rfl⟩
  · exact ⟨_, rfl⟩

end Rounds

theorem clientListLoop_takes (agree : ∀ address < payload.length, mem address = payload[address]?)
    (rounds : Nat) (state : ListState) (within : state.offset ≤ payload.length)
    (enough : payload.length ≤ state.offset + rounds) :
    ∃ entries offset, Taken (payload.drop state.offset) entries ∧
      clientListLoop mem payload.length rounds state =
        .ok { offset := offset, entries := state.entries ++ entries.map Entry.decoded } := by
  induction rounds generalizing state with
  | zero =>
    refine ⟨[], state.offset, ⟨_, rfl, ?_⟩, by simp [clientListLoop]⟩
    rw [complete_iff, List.length_drop]
    omega
  | succ rounds ih =>
    have left : (payload.drop state.offset).length = payload.length - state.offset := List.length_drop
    by_cases whole : Complete Entry.bytes (payload.drop state.offset)
    · obtain ⟨header, fits⟩ := (complete_iff _).mp whole
      obtain ⟨entry, split, decoded⟩ := exists_entry header fits
      rw [List.drop_drop] at split
      obtain ⟨entries, offset, ⟨tail, rest, broken⟩, result⟩ :=
        ih { offset := state.offset + (8 + 2 + announced (payload.drop state.offset)),
             entries := state.entries ++ [entry.decoded] } (by simp only; omega) (by simp only; omega)
      refine ⟨entry :: entries, offset, ⟨tail, ?_, broken⟩, ?_⟩
      · rw [split, rest, List.flatMap_cons, List.append_assoc]
      · rw [clientListLoop_round agree rounds (by omega) (by omega) decoded, result, List.append_assoc,
          List.singleton_append, List.map_cons]
    · obtain ⟨offset, result⟩ := clientListLoop_break agree rounds whole
      exact ⟨[], offset, ⟨_, rfl, whole⟩, by simpa using result⟩

theorem exists_taken (bytes : List Byte) : ∃ entries, Taken bytes entries := by
  have agree : ∀ address < bytes.length, holding bytes address = bytes[address]? := fun _ _ => rfl
  obtain ⟨entries, -, taken, -⟩ := clientListLoop_takes agree bytes.length { offset := 0, entries := [] }
    (Nat.zero_le _) (by simp)
  exact ⟨entries, taken⟩

theorem readClientList_of_taken {mem : Mem} {bytes : List Byte} {entries : List Entry}
    (agree : ∀ address < (ChatErr.ok.code :: bytes).length, mem address = (ChatErr.ok.code :: bytes)[address]?)
    (taken : Taken bytes entries) :
    readClientList mem (ChatErr.ok.code :: bytes).length = .ok (ChatErr.ok.code, entries.map Entry.decoded) := by
  have first := (readByte_of_drop Exn agree (List.drop_zero)).1
  obtain ⟨others, offset, also, result⟩ := clientListLoop_takes agree (ChatErr.ok.code :: bytes).length
    { offset := 1, entries := [] } (by simp) (by simp)
  obtain rfl := taken.unique also
  rw [readClientList, first, bind_ok, if_pos rfl, result, bind_ok, List.nil_append]

end Loop

/-- The decoder reads nothing outside the payload, ends, and finds the longest beginning that is made of whole
entries; a fragment behind a list does not change what is found. -/
theorem client_list_decoder_exact (payload : List Byte) (accepted : payload.head? = some ChatErr.ok.code) :
    ∃ entries tail, payload.drop 1 = entries.flatMap Entry.bytes ++ tail ∧ Fragment Entry.bytes tail ∧
      (∀ others rest, payload.drop 1 = others.flatMap Entry.bytes ++ rest → others <+: entries) ∧
      readClientList (holding payload) payload.length = .ok (ChatErr.ok.code, entries.map Entry.decoded) ∧
      (∀ more, clientListLoop (holding payload) payload.length (payload.length + more) { offset := 1, entries := [] } =
        clientListLoop (holding payload) payload.length payload.length { offset := 1, entries := [] }) ∧
      ∀ fragment longer, Fragment Entry.bytes fragment →
        longer = ChatErr.ok.code :: (entries.flatMap Entry.bytes ++ fragment) →
        readClientList (holding longer) longer.length = .ok (ChatErr.ok.code, entries.map Entry.decoded) := by
  obtain ⟨bytes, rfl⟩ := List.head?_eq_some_iff.mp accepted
  obtain ⟨entries, tail, split, broken⟩ := exists_taken bytes
  refine ⟨entries, tail, split, (fragment_iff tail).mpr broken, ?_, ?_, ?_, ?_⟩
  · intro others rest same
    exact prefix_of_split prefixFree_bytes broken (same.symm.trans split)
  · exact readClientList_of_taken (fun _ _ => rfl) ⟨tail, split, broken⟩
  · exact fun more => clientListLoop_settled _ _ _ more _ (by simp)
  · rintro fragment _ broken' rfl
    exact readClientList_of_taken (fun _ _ => rfl) ⟨fragment, rfl, (fragment_iff fragment).mp broken'⟩

def brokenOffList : List Byte := [0, 0, 0, 0, 0, 0, 0, 0, 1, 0, 2, 97, 98, 0, 0, 7]

theorem broken_off_list_decoded :
    ∃ (entries : List Entry) (tail : List Byte), brokenOffList.drop 1 = entries.flatMap Entry.bytes ++ tail ∧ Fragment Entry.bytes tail ∧
      entries.map Entry.decoded = [(1, text "ab")] := by
  obtain ⟨entries, tail, split, fragment, -, decoded, -⟩ := client_list_decoder_exact brokenOffList rfl
  have found : readClientList (holding brokenOffList) brokenOffList.length = .ok (ChatErr.ok.code, [(1, text "ab")]) := by
    decide
  exact ⟨entries, tail, split, fragment, (Prod.mk.inj (Except.ok.inj (decoded.symm.trans found))).2⟩

end Communo.ListDecoding
