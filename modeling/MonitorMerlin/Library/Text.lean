import Mathlib.Data.Char
import Mathlib.Data.List.DropRight
import Mathlib.Data.List.Lex
import MonitorMerlin.Library.Sorting

/-! # Texts -/

namespace Text

open List Sorting

/-- `strcmp`, as far as it is specified. -/
def strcmp : List Char → List Char → Int
  | [], [] => 0
  | [], _ :: _ => -1
  | _ :: _, [] => 1
  | a :: first, b :: second => if a = b then strcmp first second else if a < b then -1 else 1

theorem strcmp_neg_iff (first second : List Char) : strcmp first second < 0 ↔ first < second := by
  induction first generalizing second with
  | nil => cases second <;> simp [strcmp]
  | cons a first ih =>
    cases second with
    | nil => simp [strcmp]
    | cons b second =>
      rw [strcmp, cons_lt_cons_iff]
      split_ifs with same before
      · simp [same, ih]
      · simp [before]
      · simp [same, before]

theorem strcmp_swap (first second : List Char) : strcmp second first = -strcmp first second := by
  induction first generalizing second with
  | nil => cases second <;> rfl
  | cons a first ih =>
    cases second with
    | nil => rfl
    | cons b second =>
      rw [strcmp, strcmp]
      rcases lt_trichotomy a b with before | same | behind
      · rw [if_neg before.ne', if_neg before.asymm, if_neg before.ne, if_pos before]
        rfl
      · rw [if_pos same.symm, if_pos same, ih]
      · rw [if_neg behind.ne, if_pos behind, if_neg behind.ne', if_neg behind.asymm]

theorem strcmp_pos_iff (first second : List Char) : 0 < strcmp first second ↔ second < first := by
  rw [← strcmp_neg_iff, strcmp_swap first second, Int.neg_lt_zero_iff]

theorem strcmp_eq_zero_iff (first second : List Char) :
    strcmp first second = 0 ↔ first = second := by
  have below := strcmp_neg_iff first second
  have above := strcmp_pos_iff first second
  rcases lt_trichotomy first second with before | rfl | behind
  · have negative := below.mpr before
    exact iff_of_false negative.ne before.ne
  · have notBelow := mt below.mp (lt_irrefl first)
    have notAbove := mt above.mp (lt_irrefl first)
    exact iff_of_true (by omega) rfl
  · have positive := above.mpr behind
    exact iff_of_false positive.ne' behind.ne'

theorem strcmp_consistent (texts : List (List Char)) : Consistent strcmp texts :=
  Consistent.of_order strcmp_neg_iff strcmp_pos_iff texts

theorem sort_eq_iff_perm (sorter : Sorter (List Char)) {texts others : List (List Char)} :
    sorter.sort strcmp texts = sorter.sort strcmp others ↔ texts.Perm others := by
  have sorted := sorter.perm (strcmp_consistent texts)
  have otherSorted := sorter.perm (strcmp_consistent others)
  constructor
  · intro same
    rw [same] at sorted
    exact sorted.symm.trans otherSorted
  · intro perm
    have follows : ∀ first second, strcmp first second ≤ 0 → first ≤ second := by
      intro first second compared
      rwa [← not_lt, ← strcmp_pos_iff, not_lt]
    have keys : (sorter.sort strcmp texts).map id = (sorter.sort strcmp others).map id := by
      apply sorter.map_sort_eq sorter (strcmp_consistent texts) (strcmp_consistent others)
      · exact fun first _ second _ => follows first second
      · exact fun first _ second _ => follows first second
      · exact fun _ _ _ _ => le_antisymm
      · rwa [map_id, map_id]
    rwa [map_id, map_id] at keys

def isBlank (char : Char) : Bool := char == ' ' || char == '\t'

structure Stripped (text : List Char) : Prop where
  front : text.dropWhile isBlank = text
  back : text.rdropWhile isBlank = text

section Stripping

variable {blanks text : List Char}

theorem dropWhile_append_of_stripped (some : text ≠ [])
    (stripped : text.dropWhile isBlank = text) (rest : List Char) :
    (text ++ rest).dropWhile isBlank = text ++ rest := by
  cases text with
  | nil => exact absurd rfl some
  | cons char text =>
    rw [dropWhile_eq_self_iff] at stripped ⊢
    exact fun _ => stripped (Nat.zero_lt_succ _)

theorem rdropWhile_blanks (blank : ∀ char ∈ blanks, isBlank char = true)
    (stripped : text.rdropWhile isBlank = text) : (text ++ blanks).rdropWhile isBlank = text := by
  rw [rdropWhile, reverse_append, dropWhile_append_of_pos]
  · exact stripped
  · intro char member
    exact blank char (mem_reverse.mp member)

theorem Stripped.dropWhile_front (stripped : Stripped text) (some : text ≠ [])
    (blank : ∀ char ∈ blanks, isBlank char = true) (rest : List Char) :
    (blanks ++ text ++ rest).dropWhile isBlank = text ++ rest := by
  rw [append_assoc, dropWhile_append_of_pos blank, dropWhile_append_of_stripped some stripped.front]

theorem eq_nil_of_dropWhile (blank : ∀ char ∈ blanks, isBlank char = true)
    (stripped : (blanks ++ text).dropWhile isBlank = blanks ++ text) : blanks = [] := by
  rw [dropWhile_append_of_pos blank] at stripped
  have shorter : (text.dropWhile isBlank).length ≤ text.length :=
    (dropWhile_suffix isBlank).length_le
  rw [stripped, length_append] at shorter
  apply eq_nil_of_length_eq_zero
  omega

theorem eq_nil_of_rdropWhile (blank : ∀ char ∈ blanks, isBlank char = true)
    (stripped : (text ++ blanks).rdropWhile isBlank = text ++ blanks) : blanks = [] := by
  rw [rdropWhile, reverse_eq_iff, reverse_append] at stripped
  rw [← reverse_eq_nil_iff]
  apply eq_nil_of_dropWhile _ stripped
  intro char member
  exact blank char (mem_reverse.mp member)

end Stripping

def strip (text : List Char) : List Char := (text.dropWhile isBlank).rdropWhile isBlank

def Trimmed (text : List Char) : Prop := text.rdropWhile isBlank = text

instance (text : List Char) : Decidable (Trimmed text) := inferInstanceAs (Decidable (_ = _))

variable {text : List Char}

theorem trimmed_iff : Trimmed text ↔ ∀ some : text ≠ [], isBlank (text.getLast some) = false := by
  rw [Trimmed, rdropWhile_eq_self_iff]
  simp

theorem Trimmed.of_suffix
    {text whole : List Char} (trimmed : Trimmed whole) (isSuffix : text <:+ whole) :
    Trimmed text := by
  rw [trimmed_iff] at trimmed ⊢
  intro some
  have wholeSome : whole ≠ [] := by
    rintro rfl
    exact some (suffix_nil.mp isSuffix)
  rw [isSuffix.getLast some]
  exact trimmed wholeSome

theorem trimmed_rdropWhile (text : List Char) : Trimmed (text.rdropWhile isBlank) :=
  rdropWhile_idempotent isBlank text

theorem Trimmed.strip_eq (trimmed : Trimmed text) : strip text = text.dropWhile isBlank :=
  trimmed.of_suffix (dropWhile_suffix isBlank)

theorem strip_idempotent (text : List Char) : strip (strip text) = strip text := by
  have noneInFront : (strip text).dropWhile isBlank = strip text := by
    have dropped := dropWhile_idempotent isBlank text
    rw [dropWhile_eq_self_iff] at dropped ⊢
    intro some
    have shorter : strip text <+: text.dropWhile isBlank := rdropWhile_prefix isBlank _
    have longer := shorter.length_le
    rw [shorter.getElem some]
    exact dropped (by omega)
  rw [strip, noneInFront]
  exact trimmed_rdropWhile _

theorem getLast_suffix_intercalate (separator : List Char) (pieces : List (List Char))
    (some : pieces ≠ []) : pieces.getLast some <:+ separator.intercalate pieces := by
  induction pieces with
  | nil => exact absurd rfl some
  | cons piece pieces ih =>
    cases pieces with
    | nil => simp
    | cons next pieces =>
      rw [getLast_cons (by simp), intercalate_cons_of_ne_nil (by simp)]
      exact (ih (by simp)).trans (suffix_append _ _)

end Text
