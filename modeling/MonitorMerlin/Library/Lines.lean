import Mathlib.Data.List.TakeWhile

/-! # Lines -/

namespace Lines

open List

universe u

variable {α : Type u}

def extend (char : α) : List (List α) → List (List α)
  | [] => [[char]]
  | first :: rest => (char :: first) :: rest

def Closed (separator : α) (text : List α) : Prop :=
  ∀ last, text.getLast? = some last → last = separator

section Closed

variable {separator : α}

theorem closed_nil : Closed separator [] := nofun

theorem closed_append_separator (text : List α) : Closed separator (text ++ [separator]) := by
  intro last isLast
  rw [getLast?_concat] at isLast
  exact (Option.some.inj isLast).symm

variable {text : List α}

theorem Closed.eq_append (closed : Closed separator text) (notEmpty : text ≠ []) :
    ∃ before, text = before ++ [separator] := by
  have last := closed _ (getLast?_eq_some_getLast notEmpty)
  refine ⟨text.dropLast, ?_⟩
  rw [← last]
  exact (dropLast_concat_getLast notEmpty).symm

theorem Closed.tail {char : α} (closed : Closed separator (char :: text)) :
    Closed separator text := by
  intro last isLast
  apply closed
  cases text with
  | nil => cases isLast
  | cons next text => exact isLast

theorem Closed.of_append {first second : List α} (closed : Closed separator (first ++ second)) :
    Closed separator second := by
  intro last isLast
  apply closed
  rw [getLast?_append, isLast]
  rfl

end Closed

theorem exists_last_separator {separator : α} {text : List α} (member : separator ∈ text) :
    ∃ front tail, text = front ++ separator :: tail ∧ separator ∉ tail := by
  obtain ⟨tail, front, isReverse, absent⟩ := eq_append_cons_of_mem (mem_reverse.mpr member)
  refine ⟨front.reverse, tail.reverse, ?_, fun inTail => absent (mem_reverse.mp inTail)⟩
  have isText := congrArg List.reverse isReverse
  rw [reverse_reverse] at isText
  simpa using isText

private theorem extend_append (char : α) {first : List (List α)} (notEmpty : first ≠ [])
    (second : List (List α)) : extend char (first ++ second) = extend char first ++ second := by
  cases first with
  | nil => exact absurd rfl notEmpty
  | cons line first => rfl

variable [DecidableEq α] (separator : α)

def cut (tail : List α) : List α → List (List α)
  | [] => []
  | char :: text => if char = separator then tail :: cut tail text else extend char (cut tail text)

/-- The parts of a text, with their separators. -/
def pieces (text : List α) : List (List α) := cut separator [separator] text

/-- The parts of a text, without separators. -/
def lines (text : List α) : List (List α) := cut separator [] text

variable {separator} {tail : List α}

theorem cut_ne_nil {text : List α} (notEmpty : text ≠ []) : cut separator tail text ≠ [] := by
  cases text with
  | nil => exact absurd rfl notEmpty
  | cons char text =>
    rw [cut]
    split
    · exact cons_ne_nil _ _
    · cases cut separator tail text with
      | nil | cons part rest => exact cons_ne_nil _ _

variable {first : List α}

private theorem cut_append (closed : Closed separator first) (second : List α) :
    cut separator tail (first ++ second) =
      cut separator tail first ++ cut separator tail second := by
  induction first with
  | nil => rfl
  | cons char first ih =>
    rw [cons_append, cut, cut, ih closed.tail]
    split
    · rfl
    · rename_i differs
      apply extend_append
      apply cut_ne_nil
      intro ends
      rw [ends] at closed
      exact differs (closed char rfl)

variable {line : List α}

private theorem cut_line (whole : separator ∉ line) (text : List α) :
    cut separator tail (line ++ separator :: text) = (line ++ tail) :: cut separator tail text := by
  induction line with
  | nil => rw [nil_append, cut, if_pos rfl, nil_append]
  | cons char line ih =>
    rw [mem_cons, not_or] at whole
    rw [cons_append, cut, if_neg (Ne.symm whole.1), ih whole.2]
    rfl

private theorem cut_single (notEmpty : line ≠ []) (whole : separator ∉ line) :
    cut separator tail line = [line] := by
  induction line with
  | nil => exact absurd rfl notEmpty
  | cons char line ih =>
    rw [mem_cons, not_or] at whole
    rw [cut, if_neg (Ne.symm whole.1)]
    cases line with
    | nil => rfl
    | cons next line =>
      rw [ih (cons_ne_nil _ _) whole.2]
      rfl

theorem lines_append (closed : Closed separator first) (second : List α) :
    lines separator (first ++ second) = lines separator first ++ lines separator second :=
  cut_append closed second

theorem lines_line (whole : separator ∉ line) (text : List α) :
    lines separator (line ++ separator :: text) = line :: lines separator text := by
  rw [lines, cut_line whole, append_nil]
  rfl

theorem lines_single (notEmpty : line ≠ []) (whole : separator ∉ line) :
    lines separator line = [line] := cut_single notEmpty whole

theorem notMem_of_mem_lines {text line : List α} (member : line ∈ lines separator text) :
    separator ∉ line := by
  induction text generalizing line with
  | nil => cases member
  | cons char text ih =>
    rw [lines, cut] at member
    split at member
    · rcases mem_cons.mp member with rfl | member
      · exact not_mem_nil
      · exact ih member
    · rename_i differs
      rw [lines] at ih
      cases isCut : cut separator [] text with
      | nil =>
        rw [isCut, extend, mem_singleton] at member
        rw [member, mem_singleton]
        exact Ne.symm differs
      | cons first rest =>
        rw [isCut, extend] at member
        rw [isCut] at ih
        rcases mem_cons.mp member with rfl | member
        · rw [mem_cons, not_or]
          exact ⟨Ne.symm differs, ih mem_cons_self⟩
        · exact ih (mem_cons_of_mem _ member)

variable (separator)

def nonempty (text : List α) : List (List α) := (lines separator text).filter (· ≠ [])

variable {separator}

theorem nonempty_append (closed : Closed separator first) (second : List α) :
    nonempty separator (first ++ second) =
      nonempty separator first ++ nonempty separator second := by
  rw [nonempty, lines_append closed, filter_append]
  rfl

theorem nonempty_single (whole : separator ∉ line) :
    nonempty separator line = [line].filter (· ≠ []) := by
  by_cases empty : line = []
  · rw [empty]
    rfl
  · rw [nonempty, lines_single empty whole]

private theorem nonempty_line (whole : separator ∉ line) :
    nonempty separator (line ++ [separator]) = [line].filter (· ≠ []) := by
  rw [nonempty, lines_line whole]
  rfl

theorem nonempty_concat (text : List α) :
    nonempty separator (text ++ [separator]) = nonempty separator text := by
  by_cases inside : separator ∈ text
  · obtain ⟨front, tail, rfl, absent⟩ := exists_last_separator inside
    have closed : Closed separator (front ++ [separator]) := closed_append_separator front
    have parts : front ++ separator :: tail = front ++ [separator] ++ tail :=
      append_cons front separator tail
    rw [parts, append_assoc (front ++ [separator]), nonempty_append closed,
      nonempty_append closed, nonempty_line absent, nonempty_single absent]
  · rw [nonempty_line inside, nonempty_single inside]

variable {stretch : List α}

private theorem exists_first_piece (after : List α) (notEmpty : stretch ≠ [])
    (whole : separator ∉ stretch.dropLast) :
    ∃ first rest, pieces separator (stretch ++ after) = first :: rest ∧
      stretch.length ≤ first.length := by
  induction stretch with
  | nil => exact absurd rfl notEmpty
  | cons char stretch ih =>
    rw [cons_append, pieces, cut]
    cases stretch with
    | nil =>
      split
      · exact ⟨_, _, rfl, Nat.le_refl _⟩
      · cases cut separator [separator] ([] ++ after) with
        | nil => exact ⟨_, _, rfl, Nat.le_refl _⟩
        | cons piece rest => exact ⟨_, _, rfl, Nat.succ_le_succ (Nat.zero_le _)⟩
    | cons next stretch =>
      rw [dropLast_cons_of_ne_nil (cons_ne_nil _ _), mem_cons, not_or] at whole
      obtain ⟨first, rest, isCut, long⟩ := ih (cons_ne_nil _ _) whole.2
      rw [pieces] at isCut
      rw [if_neg (Ne.symm whole.1), isCut]
      exact ⟨_, _, rfl, Nat.succ_le_succ long⟩

theorem exists_piece_of_stretch (before after : List α) (notEmpty : stretch ≠ [])
    (whole : separator ∉ stretch.dropLast) :
    ∃ piece ∈ pieces separator (before ++ stretch ++ after), stretch.length ≤ piece.length := by
  induction before with
  | nil =>
    obtain ⟨first, rest, isCut, long⟩ := exists_first_piece after notEmpty whole
    rw [nil_append, isCut]
    exact ⟨first, mem_cons_self, long⟩
  | cons char before ih =>
    obtain ⟨piece, member, long⟩ := ih
    rw [pieces] at member
    rw [cons_append, cons_append, pieces, cut]
    split
    · exact ⟨piece, mem_cons_of_mem _ member, long⟩
    · cases isCut : cut separator [separator] (before ++ stretch ++ after) with
      | nil =>
        rw [isCut] at member
        cases member
      | cons first rest =>
        rw [isCut, mem_cons] at member
        rcases member with rfl | member
        · exact ⟨_, mem_cons_self, long.trans (Nat.le_succ _)⟩
        · exact ⟨piece, mem_cons_of_mem _ member, long⟩

end Lines
