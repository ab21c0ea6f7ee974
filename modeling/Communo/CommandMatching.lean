import Communo.Cli

/-! Which command a line is: it is cut into words at white space, and the longest
run of first words that is registered decides. -/

namespace Communo.CommandMatching
open Lib.ByteCodec Protocol Cli

/-- A line and the words it is typed from, with any amount of white space before, between and after them. -/
inductive Spells : List Byte → List (List Byte) → Prop
  | blank {space : List Byte} (white : ∀ character ∈ space, isSpace character = true) : Spells space []
  | word {lead word rest : List Byte} {words : List (List Byte)} (white : ∀ character ∈ lead, isSpace character = true)
      (nonempty : word ≠ []) (solid : ∀ character ∈ word, isSpace character = false)
      (separated : ∀ character, rest.head? = some character → isSpace character = true) (later : Spells rest words) :
      Spells (lead ++ (word ++ rest)) (word :: words)

section Words

theorem tokenize_append_space {space : List Byte} (white : ∀ character ∈ space, isSpace character = true)
    (line : List Byte) : tokenize (space ++ line) = tokenize line := by
  induction space with
  | nil => rfl
  | cons character space ih =>
    rw [List.cons_append, tokenize_cons_space (white character List.mem_cons_self)]
    exact ih fun other member => white other (List.mem_cons_of_mem _ member)

theorem tokenize_of_spells {line : List Byte} {words : List (List Byte)} (spells : Spells line words) :
    tokenize line = words := by
  induction spells with
  | @blank space white =>
    rw [← List.append_nil space, tokenize_append_space white]
    rfl
  | word white nonempty solid separated later ih =>
    rw [tokenize_append_space white, tokenize_word nonempty solid separated, ih]

theorem exists_spells (line : List Byte) : ∃ words, Spells line words := by
  induction line with
  | nil => exact ⟨[], .blank (by simp)⟩
  | cons character line ih =>
    obtain ⟨words, spells⟩ := ih
    cases white : isSpace character with
    | true =>
      cases spells with
      | blank rest => exact ⟨[], .blank (by simpa [white] using rest)⟩
      | @word lead word rest words before nonempty solid separated later =>
        exact ⟨word :: words, @Spells.word (character :: lead) word rest words (by simpa [white] using before)
          nonempty solid separated later⟩
    | false =>
      cases spells with
      | blank rest =>
        refine ⟨[[character]], @Spells.word [] [character] line [] (by simp) (by simp) (by simp [white]) ?_ (.blank rest)⟩
        exact fun other first => rest other (List.mem_of_head? first)
      | @word lead word rest words before nonempty solid separated later =>
        cases lead with
        | nil =>
          exact ⟨(character :: word) :: words, @Spells.word [] (character :: word) rest words (by simp) (by simp)
            (by simpa [white] using solid) separated later⟩
        | cons space lead =>
          refine ⟨[character] :: word :: words, @Spells.word [] [character] (space :: lead ++ (word ++ rest)) _ (by simp)
            (by simp) (by simp [white]) ?_ (.word before nonempty solid separated later)⟩
          intro other first
          cases first
          exact before space List.mem_cons_self

/-- Every line spells the words it is cut into, and no others. -/
theorem tokenize_eq_iff (line : List Byte) (words : List (List Byte)) : tokenize line = words ↔ Spells line words := by
  constructor
  · rintro rfl
    obtain ⟨words, spells⟩ := exists_spells line
    rwa [tokenize_of_spells spells]
  · exact tokenize_of_spells

end Words

section Dispatch
variable (commands : Commands) (args : List (List Byte))

def called (handler : Handler) (commandArgs : List (List Byte)) : List Output :=
  match handler commandArgs with
  | .ok outputs => outputs
  | .error what => [.print (text "Error: " ++ text what ++ text "\n")]

variable {commands args}

end Dispatch

end Communo.CommandMatching
