import Mathlib.Data.List.Basic

/-! # Texts of fields -/

namespace Fields

open List

universe u

variable {α : Type u} [BEq α] [LawfulBEq α] {separator : α}

/-- Further fields, each with a separator in front. -/
def behind (separator : α) : List (List α) → List α
  | [] => []
  | first :: rest => separator :: [separator].intercalate (first :: rest)

variable {names : List (List α)}

omit [BEq α] [LawfulBEq α] in
private theorem intercalate_append (notEmpty : names ≠ []) (rest : List (List α)) :
    [separator].intercalate (names ++ rest) =
      [separator].intercalate names ++ behind separator rest := by
  induction names with
  | nil => exact absurd rfl notEmpty
  | cons name names ih =>
    cases names with
    | nil =>
      cases rest with
      | nil => rw [behind, append_nil, append_nil]
      | cons first rest =>
        rw [singleton_append, intercalate_cons_cons, intercalate_singleton,
          behind, append_assoc, singleton_append]
    | cons next names =>
      have tail := ih (cons_ne_nil next names)
      rw [cons_append] at tail
      rw [cons_append, cons_append, intercalate_cons_cons,
        intercalate_cons_cons, tail, append_assoc _ _ (behind _ _)]

theorem splitOn_append_cons (front rest : List α) :
    (front ++ separator :: rest).splitOn separator =
      front.splitOn separator ++ rest.splitOn separator := splitOnP_append_cons front rest BEq.rfl

theorem notMem_of_mem_splitOn {text piece : List α} (member : piece ∈ text.splitOn separator) :
    separator ∉ piece := by
  induction text generalizing piece with
  | nil =>
    rw [splitOn_nil, mem_singleton] at member
    rw [member]
    exact not_mem_nil
  | cons char text ih =>
    rw [List.splitOn, splitOnP_cons_eq_if_modifyHead, ← List.splitOn] at member
    split at member
    · rcases mem_cons.mp member with rfl | later
      · exact not_mem_nil
      · exact ih later
    · rename_i different
      cases pieces : text.splitOn separator with
      | nil =>
        rw [pieces] at member
        cases member
      | cons first rest =>
        rw [pieces] at ih
        rw [pieces, modifyHead_cons] at member
        rcases mem_cons.mp member with rfl | later
        · rw [mem_cons, not_or]
          exact ⟨fun same => different (beq_iff_eq.mpr same.symm), ih mem_cons_self⟩
        · exact ih (mem_cons_of_mem _ later)

variable {text : List α}

theorem exists_splitOn_eq_append_iff (notEmpty : names ≠ []) :
    (∃ rest, text.splitOn separator = names ++ rest) ↔
      (∀ name ∈ names, separator ∉ name) ∧
        ∃ after, text = [separator].intercalate names ++ after ∧
          (after = [] ∨ after.head? = some separator) := by
  constructor
  · rintro ⟨rest, isFields⟩
    refine ⟨fun name member => ?_, behind separator rest, ?_, ?_⟩
    · have inFields : name ∈ text.splitOn separator := by
        rw [isFields]
        exact mem_append_left _ member
      exact notMem_of_mem_splitOn inFields
    · rw [← intercalate_append notEmpty, ← isFields, intercalate_splitOn]
    · cases rest with
      | nil => exact .inl rfl
      | cons first rest => exact .inr rfl
  · rintro ⟨whole, after, rfl, ends⟩
    cases after with
    | nil =>
      refine ⟨[], ?_⟩
      rw [append_nil, append_nil, splitOn_intercalate _ whole notEmpty]
    | cons char after =>
      obtain rfl : char = separator := by simpa using ends
      refine ⟨after.splitOn char, ?_⟩
      rw [splitOn_append_cons, splitOn_intercalate _ whole notEmpty]

theorem intercalate_replace {names others rest : List (List α)} (notEmpty : names ≠ [])
    (otherNotEmpty : others ≠ []) (isFields : text.splitOn separator = names ++ rest) :
    [separator].intercalate (others ++ rest) =
      [separator].intercalate others ++ text.drop ([separator].intercalate names).length := by
  have isText : text = [separator].intercalate names ++ behind separator rest := by
    rw [← intercalate_append notEmpty, ← isFields, intercalate_splitOn]
  rw [intercalate_append otherNotEmpty]
  conv_rhs => rw [isText, drop_left]

end Fields
