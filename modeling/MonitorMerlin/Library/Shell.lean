import Mathlib.Data.List.Basic

/-! # Words of a shell command -/

namespace Shell

open List

inductive Place where
  | bare
  | escaped
  | single
  | double
  | doubleEscaped

def words : Place → Option (List UInt8) → List UInt8 → Option (List (List UInt8))
  | .bare, word, [] => some word.toList
  | _, _, [] => none
  | .bare, word, char :: rest =>
    if char = 32 ∨ char = 9 ∨ char = 10 then (words .bare none rest).map (word.toList ++ ·)
    else if char = 39 then words .single (some (word.getD [])) rest
    else if char = 34 then words .double (some (word.getD [])) rest
    else if char = 92 then words .escaped word rest
    else words .bare (some (word.getD [] ++ [char])) rest
  | .escaped, word, char :: rest =>
    if char = 10 then words .bare word rest
    else words .bare (some (word.getD [] ++ [char])) rest
  | .single, word, char :: rest =>
    if char = 39 then words .bare word rest
    else words .single (some (word.getD [] ++ [char])) rest
  | .double, word, char :: rest =>
    if char = 34 then words .bare word rest
    else if char = 92 then words .doubleEscaped word rest
    else words .double (some (word.getD [] ++ [char])) rest
  | .doubleEscaped, word, char :: rest =>
    if char = 10 then words .double word rest
    else if char = 36 ∨ char = 96 ∨ char = 34 ∨ char = 92 then
      words .double (some (word.getD [] ++ [char])) rest
    else words .double (some (word.getD [] ++ [92, char])) rest

def Place.pending : Place → Nat
  | .bare => 0
  | .doubleEscaped => 2
  | _ => 1

theorem words_shorter {place : Place} {word : Option (List UInt8)} {text : List UInt8}
    {found : List (List UInt8)} (isFound : words place word (text ++ [39]) = some found) :
    found.flatten.length ≤ (word.getD []).length + text.length + place.pending := by
  induction text generalizing place word found with
  | nil =>
    cases place <;> simp [words] at isFound
    · subst isFound
      simp [Place.pending]
    · subst isFound
      cases word <;> simp
  | cons char text ih =>
    rw [cons_append] at isFound
    cases place with
    | bare =>
      rw [words] at isFound
      split_ifs at isFound
      · obtain ⟨later, isLater, rfl⟩ := Option.map_eq_some_iff.mp isFound
        have shorter := ih isLater
        cases word <;> simp [Place.pending] at shorter ⊢ <;> omega
      all_goals
        have shorter := ih isFound
        simp [Place.pending] at shorter ⊢
        omega
    | _ =>
      rw [words] at isFound
      split_ifs at isFound
      all_goals
        have shorter := ih isFound
        simp [Place.pending] at shorter ⊢
        omega

theorem words_single_append {content : List UInt8} (noQuote : 39 ∉ content)
    (word rest : List UInt8) :
    words .single (some word) (content ++ rest) = words .single (some (word ++ content)) rest := by
  induction content generalizing word with
  | nil => rw [nil_append, append_nil]
  | cons char content ih =>
    obtain ⟨notQuote, noneLater⟩ := not_or.mp (mt mem_cons.mpr noQuote)
    rw [cons_append, words, if_neg (Ne.symm notQuote), Option.getD_some, ih noneLater,
      append_assoc, singleton_append]

theorem words_single_iff (word content : List UInt8) :
    words .single (some word) (content ++ [39]) = some [word ++ content] ↔ 39 ∉ content := by
  constructor
  · intro isFound member
    obtain ⟨front, rest, rfl, noQuote⟩ := eq_append_cons_of_mem member
    rw [append_assoc, words_single_append noQuote, cons_append, words, if_pos rfl] at isFound
    have shorter := words_shorter isFound
    simp [Place.pending] at shorter
    omega
  · intro noQuote
    rw [words_single_append noQuote, words, if_pos rfl, words]
    rfl

end Shell
