import Communo.Cli
import Communo.PrivateMessages

/-! Whom a user can write to: an ID that the client has printed, typed back into
`client send-msg`, and the packet that leaves the client for it. -/

namespace Communo.Addressing
open Lib.ByteCodec Protocol NumParser Literals Client Cli Faults Handlers PrivateMessages

def sendMsgLine (number : Nat) (words : List (List Byte)) : List Byte :=
  (text " ").intercalate ([text "client", text "send-msg", decimal number] ++ words)

theorem tokenize_sendMsgLine (number : Nat) {words : List (List Byte)}
    (clean : ∀ word ∈ words, word ≠ [] ∧ ∀ character ∈ word, isSpace character = false) :
    tokenize (sendMsgLine number words) = [text "client", text "send-msg", decimal number] ++ words := by
  have digits : ∀ character ∈ decimal number, isSpace character = false := by
    intro character member
    obtain ⟨low, high⟩ := decimal_decimal number character member
    have gap : character ≠ 32 := by
      rintro rfl
      exact absurd low (by decide)
    exact decide_eq_false fun space => space.elim gap fun control => by omega
  refine tokenize_intercalate fun word member => ?_
  simp only [List.cons_append, List.nil_append, List.mem_cons] at member
  rcases member with rfl | rfl | rfl | typed
  · exact ⟨by decide, by decide⟩
  · exact ⟨by decide, by decide⟩
  · exact ⟨decimal_ne_nil number, digits⟩
  · exact clean word typed

section Typed
variable {conversions : Conversions} {line : List Byte} {number : Nat} {words : List (List Byte)}
  (typed : tokenize line = [text "client", text "send-msg", decimal number] ++ words)
include typed

theorem matchCommand_typed :
    matchCommand (commands conversions) (tokenize line) = (text "client send-msg", decimal number :: words) := by
  have name : candidate (tokenize line) 2 = text "client send-msg" := by
    rw [typed]
    exact (by decide : (text " ").intercalate [text "client", text "send-msg"] = text "client send-msg")
  have rest : (tokenize line).drop 2 = decimal number :: words := by
    rw [typed]
    rfl
  rw [← name, ← rest]
  refine matchCommand_eq (by decide) (by simp [typed]) ?_ fun later more inside => find_eq_none_of_three _ more inside
  rw [name]
  rfl

theorem runLine_typed (nonempty : words ≠ []) (small : number < 2 ^ 64) :
    runLine (commands conversions) line =
      .ran (if number < 2 ^ 32 ∨ 2 ^ 63 ≤ number then [.send (.clientMessage (BitVec.ofNat 64 number) (spaced words))]
        else [.print (text "invalid client ID: " ++ decimal number ++ text "\n")]) := by
  obtain ⟨word, words, rfl⟩ := List.exists_cons_of_ne_nil nonempty
  have matched := @matchCommand_typed conversions _ _ _ typed
  have other : ¬(text "client" = text "exit" ∨ text "client" = text "quit") := by decide
  have named : ¬text "client send-msg" = [] := by decide
  have found : find (commands conversions) (text "client send-msg") = some (clientSendMsg conversions) := rfl
  have parsed : parsedOrDefault conversions (decimal number) = (inferPositive number, []) := by
    simp only [parsedOrDefault, parseNumber_decimal conversions small]
  rw [typed] at matched
  simp only [List.cons_append, List.nil_append] at matched
  simp only [runLine, typed, List.cons_append, List.nil_append, if_neg other, matched, runCommand, if_neg named, found,
    clientSendMsg, parsed]
  by_cases unsigned : isUnsignedInteger (inferPositive number) = true
  · rw [dif_pos unsigned, if_pos ((isUnsignedInteger_inferPositive number).mp unsigned),
      castUint64_inferPositive rfl unsigned]
  · rw [dif_neg unsigned, if_neg fun range => unsigned ((isUnsignedInteger_inferPositive number).mpr range)]

end Typed

/-- The command sends one packet, which names the client to the server and carries the words. -/
def Addresses (host : Host) (sha256 : Sha256) (round : Round) (clientID : BitVec 64) (words : List (List Byte)) :
    Prop :=
  ∃ packet, transmitted host.order sha256 round = [packet] ∧ opcodeOf packet = some .cmsgSendMsgToClient ∧
    requestedID host packet = clientID ∧ packet.drop 10 = spaced words

theorem length_sendClientMessage (order : ByteOrder) (clientID : BitVec 64) (msg : List Byte) :
    (sendClientMessage order clientID msg).length = 10 + msg.length := by
  simp [sendClientMessage]
  omega

theorem transmitted_clientMessage (order : ByteOrder) (sha256 : Sha256) (clientID : BitVec 64) (msg : List Byte) :
    transmitted order sha256 (.ran [.send (.clientMessage clientID msg)]) =
      (sendSSLPacketToServer (sendClientMessage order clientID msg)).toList := by
  simp only [transmitted, Request.packet]
  cases left : sendSSLPacketToServer (sendClientMessage order clientID msg) with
  | none => simp [left]
  | some packet => simp [left]

/-- An ID that the client has printed addresses its client exactly when its type is inferred as an unsigned one and
the packet is not larger than an `int`. -/
theorem client_addressed_iff (host : Host) (sha256 : Sha256) (conversions : Conversions) (clientID : BitVec 64)
    (words : List (List Byte)) (line : List Byte)
    (typed : tokenize line = [text "client", text "send-msg", decimal clientID.toNat] ++ words)
    (nonempty : words ≠ []) :
    Addresses host sha256 (runLine (commands conversions) line) clientID words ↔
      (clientID.toNat < 2 ^ 32 ∨ 2 ^ 63 ≤ clientID.toNat) ∧ 10 + (spaced words).length < 2 ^ 31 := by
  rw [runLine_typed typed nonempty clientID.isLt]
  have size := length_sendClientMessage host.order clientID (spaced words)
  by_cases unsigned : clientID.toNat < 2 ^ 32 ∨ 2 ^ 63 ≤ clientID.toNat
  · rw [if_pos unsigned, BitVec.ofNat_toNat, BitVec.setWidth_eq]
    constructor
    · rintro ⟨packet, sent, -, -, message⟩
      rw [transmitted_clientMessage, Option.toList_eq_singleton_iff] at sent
      have bound := length_lt_of_sent sent
      have length := congrArg List.length message
      have positive : 0 < (spaced words).length := by
        obtain ⟨word, rest, rfl⟩ := List.exists_cons_of_ne_nil nonempty
        simp [spaced, text]
      rw [List.length_drop] at length
      exact ⟨unsigned, by omega⟩
    · rintro ⟨-, small⟩
      have left : sendSSLPacketToServer (sendClientMessage host.order clientID (spaced words)) =
          some (sendClientMessage host.order clientID (spaced words)) :=
        sendSSLPacketToServer_eq_some (List.length_pos_iff.mp (by omega)) (by omega)
      refine ⟨sendClientMessage host.order clientID (spaced words), ?_, opcodeOf_append _ _,
        requestedID_sendClientMessage host _ clientID, ?_⟩
      · rw [transmitted_clientMessage, left]
        rfl
      · rw [sendClientMessage, ← List.append_assoc, List.drop_left' (by simp)]
  · rw [if_neg unsigned]
    constructor
    · rintro ⟨packet, sent, -⟩
      simp [transmitted] at sent
    · exact fun range => absurd range.1 unsigned

/-- A library that converts nothing, which the spellings of integers do not reach. -/
def noConversions : Conversions where
  strtof _ := (0, 0)
  strtod _ := (0, 0)

def zeroDigest : Sha256 := fun _ => ⟨List.replicate digestLength 0, by simp⟩

/-- Client 7 gets the words that follow its ID. -/
theorem client_addressed_seven :
    Addresses exampleHost zeroDigest (runLine (commands noConversions) (sendMsgLine 7 [text "hello", text "you"])) 7
      [text "hello", text "you"] :=
  (client_addressed_iff exampleHost zeroDigest noConversions 7 _ _ (tokenize_sendMsgLine 7 (by decide)) (by simp)).mpr
    ⟨Or.inl (by decide), by decide⟩

/-- The first ID that does not fit 32 bits cannot be addressed. -/
theorem client_not_addressed_above_uint32 :
    ¬Addresses exampleHost zeroDigest (runLine (commands noConversions) (text "client send-msg 4294967296 hello"))
      4294967296 [text "hello"] := by
  have complains : runLine (commands noConversions) (text "client send-msg 4294967296 hello") =
      .ran [.print (text "invalid client ID: 4294967296\n")] := by decide
  rintro ⟨packet, sent, -⟩
  rw [complains] at sent
  simp [transmitted] at sent

end Communo.Addressing
