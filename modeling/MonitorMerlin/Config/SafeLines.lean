import MonitorMerlin.Config.Grammar

/-! # Lines that both parsers read alike -/

namespace MonitorMerlin

open Lines List Nesting Trim

def lineName (line : List Char) : List Char := line.dropLast.rdropWhile isCfgSpace

def lineKey (line : List Char) : List Char := line.takeWhile fun char => !endsKey char

def lineValue (line : List Char) : List Char :=
  (line.dropWhile fun char => !endsKey char).dropWhile endsKey

def SafeValue (value : List Char) : Prop :=
  StartsFull isPySpace value ∧ EndsFull isPySpace value ∧
    (value.getLast? = some ';' →
      value.dropLast.getLast?.any
        (fun last => !isCfgSpace last && last != ';' && last != '\\') = true)

/-- The lines that both parsers read in the same way. -/
def SafeLine (line : List Char) : Prop :=
  match lineKind line with
  | .silent => heard line = []
  | .close => True
  | .start =>
    '\r' ∉ line ∧ line.head? ≠ some '}' ∧ StartsFull isPySpace (lineName line) ∧
      EndsFull isPySpace (lineName line)
  | .var =>
    '\r' ∉ line ∧ line.head? ≠ some '}' ∧ lineKey line ≠ [] ∧
      StartsFull isPySpace (lineKey line) ∧ EndsFull isPySpace (lineKey line) ∧
      SafeValue (lineValue line)

instance (value : List Char) : Decidable (SafeValue value) :=
  inferInstanceAs (Decidable (_ ∧ _ ∧ (_ → _)))

instance (line : List Char) : Decidable (SafeLine line) :=
  match kind : lineKind line with
  | .silent => decidable_of_iff (heard line = []) (by rw [SafeLine, kind])
  | .close => .isTrue (by rw [SafeLine, kind]; exact trivial)
  | .start =>
    decidable_of_iff
      ('\r' ∉ line ∧ line.head? ≠ some '}' ∧ StartsFull isPySpace (lineName line) ∧
        EndsFull isPySpace (lineName line)) (by rw [SafeLine, kind])
  | .var =>
    decidable_of_iff
      ('\r' ∉ line ∧ line.head? ≠ some '}' ∧ lineKey line ≠ [] ∧
        StartsFull isPySpace (lineKey line) ∧ EndsFull isPySpace (lineKey line) ∧
        SafeValue (lineValue line)) (by rw [SafeLine, kind])

structure VarParts (line key left right value : List Char) : Prop where
  isLine : line = key ++ (left ++ '=' :: right) ++ value
  oneWord : ∀ char ∈ key, isWhite char = false ∧ char ≠ '='
  blankLeft : Blank isCfgSpace left
  blankRight : Blank isCfgSpace right
  notEmpty : value ≠ []
  starts : StartsFull endsKey value

theorem exists_varParts {line : List Char} (conf : ConfLine line) (kind : lineKind line = .var) :
    ∃ key left right value, VarParts line key left right value := by
  obtain ⟨loud, notClose, notStart⟩ := of_lineKind_var kind
  cases conf with
  | blank | comment text => cases loud
  | close => exact absurd rfl notClose
  | start name blanks notEmpty blank => exact absurd getLast?_concat notStart
  | var key left right value oneWord blankLeft blankRight notEmpty starts =>
    exact ⟨key, left, right, value, rfl, oneWord, blankLeft, blankRight, notEmpty, starts⟩

variable {char : Char}

private theorem isWhite_of_isCfgSpace (space : isCfgSpace char = true) : isWhite char = true := by
  simp only [isCfgSpace, Bool.or_eq_true, beq_iff_eq] at space
  rcases space with (rfl | rfl) | rfl
  · rfl
  · rfl
  · rfl

private theorem not_isCfgSpace_of_not_endsKey (inside : endsKey char = false) :
    isCfgSpace char = false ∧ char ≠ '=' := by
  simpa [endsKey] using inside

section WithoutSemicolon

variable {front value : List Char}

theorem withoutSemicolon_append (front : List Char) (starts : StartsFull isCfgSpace value)
    (notEmpty : value ≠ []) (notLone : value ≠ [';']) :
    withoutSemicolon (front ++ value) = front ++ withoutSemicolon value ∧
      withoutSemicolon value ≠ [] := by
  obtain ⟨start, last, rfl⟩ := (eq_nil_or_concat' value).resolve_left notEmpty
  rw [withoutSemicolon, withoutSemicolon, ← append_assoc, getLast?_concat,
    getLast?_concat, dropLast_concat, dropLast_concat]
  by_cases semicolon : last = ';'
  · have startNotEmpty : start ≠ [] := by
      rintro rfl
      exact notLone (by rw [semicolon]; rfl)
    obtain ⟨first, rest, rfl⟩ := exists_cons_of_ne_nil startNotEmpty
    have kept : (first :: rest).rdropWhile isCfgSpace ≠ [] :=
      rdropWhile_ne_nil mem_cons_self (starts first rfl)
    rw [getLast?_append_of_ne_nil _ startNotEmpty]
    split
    · exact ⟨rdropWhile_append_of_ne_nil front kept, kept⟩
    · exact ⟨append_assoc _ _ _, append_ne_nil_of_right_ne_nil _ (cons_ne_nil _ _)⟩
  · have notSemicolon : some last ≠ some ';' := fun same => semicolon (Option.some.inj same)
    rw [if_neg fun both => notSemicolon both.1, if_neg fun both => notSemicolon both.1]
    exact ⟨append_assoc _ _ _, append_ne_nil_of_right_ne_nil _ (cons_ne_nil _ _)⟩

private theorem endsFull_withoutSemicolon (ends : EndsFull isCfgSpace value) :
    EndsFull isCfgSpace (withoutSemicolon value) := by
  rw [withoutSemicolon]
  split
  · exact endsFull_rdropWhile _ _
  · exact ends

theorem exists_withoutSemicolon (value : List Char) :
    ∃ rest, value = withoutSemicolon value ++ rest ∧
      (rest = [] ∨ ∃ blanks, Blank isCfgSpace blanks ∧ rest = blanks ++ [';']) := by
  rw [withoutSemicolon]
  split
  · rename_i semicolon
    obtain ⟨start, rfl⟩ := getLast?_eq_some_iff.mp semicolon.1
    obtain ⟨back, isBack, blank⟩ := exists_rdropWhile isCfgSpace start
    refine ⟨back ++ [';'], ?_, .inr ⟨back, blank, rfl⟩⟩
    rw [dropLast_concat, ← append_assoc, ← isBack]
  · exact ⟨[], (append_nil _).symm, .inl rfl⟩

end WithoutSemicolon

private theorem separators_ne_nil (left right : List Char) : left ++ '=' :: right ≠ [] :=
  append_ne_nil_of_right_ne_nil left (cons_ne_nil '=' right)

namespace VarParts

variable {line key left right value : List Char} (parts : VarParts line key left right value)

include parts

private theorem inKey : ∀ char ∈ key, endsKey char = false := by
  intro char member
  obtain ⟨notWhite, notEquals⟩ := parts.oneWord char member
  have notSpace : isCfgSpace char = false := by
    rw [← Bool.not_eq_true] at notWhite ⊢
    exact fun space => notWhite (isWhite_of_isCfgSpace space)
  rw [endsKey, notSpace]
  simpa using notEquals

private theorem separates : Blank endsKey (left ++ '=' :: right) := by
  intro char member
  rcases mem_append.mp member with inLeft | inRight
  · rw [endsKey, parts.blankLeft char inLeft]
    rfl
  · rcases mem_cons.mp inRight with rfl | inRight
    · rfl
    · rw [endsKey, parts.blankRight char inRight]
      rfl

theorem startsSpace : StartsFull isCfgSpace value :=
  fun first isFirst => (not_isCfgSpace_of_not_endsKey (parts.starts first isFirst)).1

theorem endsValue {blank : Char → Bool} (ends : EndsFull blank line) : EndsFull blank value := by
  intro last isLast
  apply ends
  rw [parts.isLine, getLast?_append_of_ne_nil _ parts.notEmpty]
  exact isLast

private theorem dropKey :
    (line.takeWhile fun char => !endsKey char) = key ∧
      (line.dropWhile fun char => !endsKey char) = (left ++ '=' :: right) ++ value := by
  have within : ∀ char ∈ key, (!endsKey char) = true := by
    intro char member
    rw [parts.inKey char member]
    rfl
  obtain ⟨separator, separators, isSeparators⟩ :=
    exists_cons_of_ne_nil (separators_ne_nil left right)
  have outside : ¬(!endsKey separator) = true := by
    rw [parts.separates separator (isSeparators ▸ mem_cons_self)]
    exact Bool.false_ne_true
  rw [parts.isLine, append_assoc, isSeparators, takeWhile_append_of_pos within,
    dropWhile_append_of_pos within, cons_append,
    takeWhile_cons_of_neg (p := fun char => !endsKey char) outside,
    dropWhile_cons_of_neg (p := fun char => !endsKey char) outside, append_nil]
  exact ⟨rfl, rfl⟩

theorem lineKey_eq : lineKey line = key := parts.dropKey.1

theorem lineValue_eq : lineValue line = value := by
  rw [lineValue, parts.dropKey.2, parts.separates.dropWhile_append, parts.starts.dropWhile_eq]

private theorem lineVar_lone (notEmpty : key ≠ []) (lone : value = [';']) :
    lineVar (withoutSemicolon line) = ⟨key, none⟩ := by
  have last : (key ++ (left ++ '=' :: right)).getLast? ≠ some '\\' := by
    intro isLast
    rw [getLast?_append_of_ne_nil _ (separators_ne_nil left right)] at isLast
    have separates := parts.separates _ (mem_of_getLast? isLast)
    exact absurd separates (by decide)
  have isText : withoutSemicolon line = key ++ (left ++ ['=']) ++ [] := by
    have front : key ++ (left ++ '=' :: right) = key ++ (left ++ ['=']) ++ right := by
      simp
    have ends : EndsFull isCfgSpace (key ++ (left ++ ['='])) := by
      intro char isChar
      rw [← append_assoc, getLast?_concat] at isChar
      rw [← Option.some.inj isChar]
      rfl
    rw [parts.isLine, lone, withoutSemicolon, getLast?_concat, dropLast_concat,
      if_pos ⟨rfl, last⟩, front, parts.blankRight.rdropWhile_append, ends.rdropWhile_eq,
      append_nil]
  have separates : Blank endsKey (left ++ ['=']) := by
    intro char member
    apply parts.separates
    rcases mem_append.mp member with inLeft | isEquals
    · exact mem_append_left _ inLeft
    · rw [mem_singleton.mp isEquals]
      exact mem_append_right _ mem_cons_self
  rw [lineVar, isText, splitVar_parts notEmpty parts.inKey
    (separators_ne_nil left []) separates startsFull_nil, if_pos rfl]
  rfl

theorem lineVar_eq (ends : EndsFull isCfgSpace value) (notEmpty : key ≠ []) :
    lineVar (withoutSemicolon line) =
      ⟨key, if withoutSemicolon value = [] then none else some (withoutSemicolon value)⟩ := by
  by_cases lone : value = [';']
  · rw [parts.lineVar_lone notEmpty lone, lone]
    rfl
  · obtain ⟨isText, kept⟩ :=
      withoutSemicolon_append (key ++ (left ++ '=' :: right)) parts.startsSpace parts.notEmpty lone
    have startsText : StartsFull endsKey (withoutSemicolon value) := by
      obtain ⟨rest, isRest, -⟩ := exists_withoutSemicolon value
      have starts := parts.starts
      rw [isRest] at starts
      exact starts.of_append
    rw [lineVar, parts.isLine, isText, splitVar_parts notEmpty parts.inKey
      (separators_ne_nil left right) parts.separates startsText, if_neg kept]
    dsimp only
    rw [Option.map_some, (endsFull_withoutSemicolon ends).rdropWhile_eq]

end VarParts

end MonitorMerlin
