import Mathlib.Data.List.DropRight

/-! # Taking blanks off the ends of a list -/

namespace Trim

open List

universe u

variable {α : Type u} {blank : α → Bool} {list front core back : List α}

def StartsFull (blank : α → Bool) (list : List α) : Prop :=
  ∀ first ∈ list.head?, blank first = false

def EndsFull (blank : α → Bool) (list : List α) : Prop := ∀ last ∈ list.getLast?, blank last = false

def Blank (blank : α → Bool) (list : List α) : Prop := ∀ element ∈ list, blank element = true

/-- The list without blanks at its ends. -/
def trim (blank : α → Bool) (list : List α) : List α := (list.dropWhile blank).rdropWhile blank

instance (blank : α → Bool) (list : List α) : Decidable (StartsFull blank list) :=
  inferInstanceAs (Decidable (∀ first ∈ list.head?, _))

instance (blank : α → Bool) (list : List α) : Decidable (EndsFull blank list) :=
  inferInstanceAs (Decidable (∀ last ∈ list.getLast?, _))

instance (blank : α → Bool) (list : List α) : Decidable (Blank blank list) :=
  inferInstanceAs (Decidable (∀ element ∈ list, _))

theorem blank_nil : Blank blank [] := fun _ => nofun

theorem startsFull_nil : StartsFull blank [] := fun _ => nofun

theorem Blank.dropWhile_append (isBlank : Blank blank front) (list : List α) :
    (front ++ list).dropWhile blank = list.dropWhile blank := dropWhile_append_of_pos isBlank

theorem Blank.rdropWhile_append (isBlank : Blank blank back) (list : List α) :
    (list ++ back).rdropWhile blank = list.rdropWhile blank := by
  rw [rdropWhile, reverse_append, dropWhile_append_of_pos]
  · rfl
  · intro element member
    exact isBlank element (mem_reverse.mp member)

theorem StartsFull.dropWhile_eq (full : StartsFull blank list) : list.dropWhile blank = list := by
  cases list with
  | nil => rfl
  | cons first list =>
    rw [dropWhile_cons_of_neg]
    rw [full first rfl]
    exact Bool.false_ne_true

theorem EndsFull.rdropWhile_eq (full : EndsFull blank list) : list.rdropWhile blank = list := by
  rw [rdropWhile_eq_self_iff]
  intro notEmpty
  rw [full _ (getLast?_eq_some_getLast notEmpty)]
  exact Bool.false_ne_true

theorem startsFull_dropWhile (blank : α → Bool) (list : List α) :
    StartsFull blank (list.dropWhile blank) := by
  intro first isFirst
  have notBlank := head?_dropWhile_not blank list
  rw [Option.mem_def.mp isFirst] at notBlank
  exact notBlank

theorem endsFull_rdropWhile (blank : α → Bool) (list : List α) :
    EndsFull blank (list.rdropWhile blank) := by
  intro last isLast
  obtain ⟨notEmpty, rfl⟩ := mem_getLast?_eq_getLast isLast
  exact Bool.eq_false_iff.mpr (rdropWhile_last_not blank list notEmpty)

theorem rdropWhile_ne_nil {element : α} (member : element ∈ list)
    (notBlank : blank element = false) : list.rdropWhile blank ≠ [] := by
  intro allBlank
  have isBlank := rdropWhile_eq_nil_iff.mp allBlank element member
  rw [notBlank] at isBlank
  cases isBlank

theorem exists_rdropWhile (blank : α → Bool) (list : List α) :
    ∃ back, list = list.rdropWhile blank ++ back ∧ Blank blank back :=
  ⟨list.rtakeWhile blank, List.rdropWhile_append_rtakeWhile.symm,
    fun _ member => mem_rtakeWhile_imp member⟩

theorem rdropWhile_append_of_ne_nil (front : List α) (notEmpty : list.rdropWhile blank ≠ []) :
    (front ++ list).rdropWhile blank = front ++ list.rdropWhile blank := by
  obtain ⟨back, isBack, blankBack⟩ := exists_rdropWhile blank list
  have ends : EndsFull blank (front ++ list.rdropWhile blank) := by
    intro last isLast
    rw [getLast?_append_of_ne_nil _ notEmpty] at isLast
    exact endsFull_rdropWhile blank list last isLast
  calc
    (front ++ list).rdropWhile blank =
        (front ++ list.rdropWhile blank ++ back).rdropWhile blank := by
      rw [append_assoc, ← isBack]
    _ = (front ++ list.rdropWhile blank).rdropWhile blank := blankBack.rdropWhile_append _
    _ = front ++ list.rdropWhile blank := ends.rdropWhile_eq

variable {first : α}

theorem rdropWhile_cons_of_neg (notBlank : blank first = false) (list : List α) :
    (first :: list).rdropWhile blank = first :: list.rdropWhile blank := by
  by_cases allBlank : list.rdropWhile blank = []
  · have ends : EndsFull blank [first] := by
      intro last isLast
      rw [← Option.some.inj isLast]
      exact notBlank
    have behind := Blank.rdropWhile_append (rdropWhile_eq_nil_iff.mp allBlank) [first]
    rw [allBlank, ← ends.rdropWhile_eq]
    exact behind
  · exact rdropWhile_append_of_ne_nil [first] allBlank

theorem length_rdropWhile_lt {last : α} (isBlank : blank last = true) (list : List α) :
    ((list ++ [last]).rdropWhile blank).length < (list ++ [last]).length := by
  have front := rdropWhile_prefix blank list
  rw [rdropWhile_concat_pos _ _ _ isBlank, length_append, length_singleton]
  exact Nat.lt_succ_of_le front.length_le

theorem head_mem_of_eq_append {rest : List α} (same : first :: rest = core ++ back)
    (notEmpty : core ≠ []) : first ∈ core := by
  obtain ⟨element, core, rfl⟩ := exists_cons_of_ne_nil notEmpty
  rw [head_eq_of_cons_eq same]
  exact mem_cons_self

theorem StartsFull.of_append (full : StartsFull blank (core ++ list)) : StartsFull blank core := by
  intro first isFirst
  apply full
  rw [Option.mem_def, head?_append, Option.mem_def.mp isFirst]
  rfl

theorem exists_trim (blank : α → Bool) (list : List α) :
    ∃ front back, list = front ++ trim blank list ++ back ∧ Blank blank front ∧
      Blank blank back := by
  obtain ⟨back, isBack, blankBack⟩ := exists_rdropWhile blank (list.dropWhile blank)
  refine ⟨list.takeWhile blank, back, ?_, fun _ member => mem_takeWhile_imp member, blankBack⟩
  rw [append_assoc, trim, ← isBack, takeWhile_append_dropWhile]

theorem startsFull_trim (blank : α → Bool) (list : List α) :
    StartsFull blank (trim blank list) := by
  obtain ⟨back, isBack, -⟩ := exists_rdropWhile blank (list.dropWhile blank)
  have full := startsFull_dropWhile blank list
  rw [isBack] at full
  exact full.of_append

theorem endsFull_trim (blank : α → Bool) (list : List α) : EndsFull blank (trim blank list) :=
  endsFull_rdropWhile blank _

theorem trim_parts (blankFront : Blank blank front) (blankBack : Blank blank back)
    (starts : StartsFull blank core) (ends : EndsFull blank core) :
    trim blank (front ++ core ++ back) = core := by
  rw [trim, append_assoc, blankFront.dropWhile_append]
  cases core with
  | nil =>
    rw [nil_append, dropWhile_eq_nil_iff.mpr blankBack]
    rfl
  | cons first core =>
    have full : StartsFull blank (first :: core ++ back) := starts
    rw [full.dropWhile_eq, blankBack.rdropWhile_append, ends.rdropWhile_eq]

theorem dropWhile_rdropWhile (blank : α → Bool) (list : List α) :
    (list.rdropWhile blank).dropWhile blank = trim blank list := by
  obtain ⟨front, back, isList, blankFront, blankBack⟩ := exists_trim blank list
  rcases eq_nil_or_concat' (trim blank list) with isNil | ⟨start, last, isConcat⟩
  · rw [isNil, append_nil] at isList
    rw [isNil, isList, blankBack.rdropWhile_append, rdropWhile_eq_nil_iff.mpr blankFront]
    rfl
  · have ends : EndsFull blank (front ++ trim blank list) := by
      intro char isChar
      rw [isConcat, ← append_assoc, getLast?_concat] at isChar
      exact endsFull_trim blank list char (by rwa [isConcat, getLast?_concat])
    have isRest : list.rdropWhile blank = front ++ trim blank list := by
      conv_lhs => rw [isList, blankBack.rdropWhile_append, ends.rdropWhile_eq]
    rw [isRest, blankFront.dropWhile_append, (startsFull_trim blank list).dropWhile_eq]

theorem trim_around (blankFront : Blank blank front) (blankBack : Blank blank back)
    (list : List α) : trim blank (front ++ list ++ back) = trim blank list := by
  obtain ⟨listFront, listBack, isList, blankListFront, blankListBack⟩ := exists_trim blank list
  have parts : front ++ list ++ back =
      (front ++ listFront) ++ trim blank list ++ (listBack ++ back) := by
    rw [append_assoc front, append_assoc front, append_assoc]
    congr 1
    rw [← append_assoc _ listBack, ← isList]
  rw [parts]
  apply trim_parts _ _ (startsFull_trim blank list) (endsFull_trim blank list)
  · exact fun element member => (mem_append.mp member).elim (blankFront element)
      (blankListFront element)
  · exact fun element member => (mem_append.mp member).elim (blankListBack element)
      (blankBack element)

theorem trim_eq_self (starts : StartsFull blank list) (ends : EndsFull blank list) :
    trim blank list = list := by
  rw [trim, starts.dropWhile_eq, ends.rdropWhile_eq]

end Trim
