import MonitorMerlin.Config.SafeLines

/-! # What Python takes from a line of the grammar -/

namespace MonitorMerlin

open Lines List Nesting Trim

def Resolved (line : List Char) (event : ConfigEvent) : Prop :=
  ∃ nested, confEvent nested line = event

/-- The event that `parse_conf` makes of a line. -/
def Agrees (line : List Char) (event : ConfigEvent) : Prop :=
  confEvent true line = event ∧ (event ≠ .close → confEvent false line = event)

section Events

variable {line name front : List Char} {var : ConfigVar} {event : ConfigEvent}

private theorem confEvent_of_not_close (notClose : line.head? ≠ some '}') (nested : Bool) :
    confEvent nested line =
      if line.getLast? = some '{' then .start (trim isPySpace line.dropLast)
      else .item (confVar line) := by
  rw [confEvent, if_neg fun both => notClose both.1]

theorem Agrees.of_confEvent (same : ∀ nested, confEvent nested line = event) : Agrees line event :=
  ⟨same true, fun _ => same false⟩

theorem Resolved.start_eq (resolved : Resolved line (.start name)) :
    name = trim isPySpace line.dropLast := by
  obtain ⟨nested, isEvent⟩ := resolved
  rw [confEvent] at isEvent
  split_ifs at isEvent
  exact (Event.start.inj isEvent).symm

theorem Resolved.item_eq (resolved : Resolved line (.item var)) : var = confVar line := by
  obtain ⟨nested, isEvent⟩ := resolved
  rw [confEvent] at isEvent
  split_ifs at isEvent
  exact (Event.item.inj isEvent).symm

private theorem confVar_append (noEquals : '=' ∉ front) (rest : List Char) :
    confVar (front ++ '=' :: rest) =
      ⟨front.rdropWhile isPySpace,
        some ((rest.dropWhile isPySpace).rdropWhile fun char => char == ';')⟩ := by
  have within : ∀ char ∈ front, (char != '=') = true := by
    intro char member
    rw [bne_iff_ne]
    rintro rfl
    exact noEquals member
  rw [confVar, if_pos (mem_append_right front mem_cons_self),
    takeWhile_append_of_pos within, dropWhile_append_of_pos within,
    takeWhile_cons_of_neg (p := fun char => char != '=') (by decide),
    dropWhile_cons_of_neg (p := fun char => char != '=') (by decide), append_nil]
  rfl

end Events

section Heard

variable {line name : List Char} {first : Char} {var : ConfigVar}

theorem HeardLine.start_name (heardLine : HeardLine line) (resolved : Resolved line (.start name)) :
    '\r' ∉ name ∧ StartsFull isPySpace name ∧ EndsFull isPySpace name := by
  rw [resolved.start_eq]
  refine ⟨fun isReturn => heardLine.oneLine.2 ?_, startsFull_trim _ _, endsFull_trim _ _⟩
  obtain ⟨before, after, isLine, -, -⟩ := exists_trim isPySpace line.dropLast
  apply dropLast_subset
  rw [isLine]
  exact mem_append_left _ (mem_append_right _ isReturn)

private theorem confVar_key (line : List Char) :
    '=' ∉ (confVar line).key ∧ ∃ rest, line = (confVar line).key ++ rest := by
  rw [confVar]
  split
  · obtain ⟨back, isBack, -⟩ := exists_rdropWhile isPySpace (line.takeWhile fun char => char != '=')
    have isLine := takeWhile_append_dropWhile (p := fun char => char != '=') (l := line)
    refine ⟨fun member => ?_, back ++ line.dropWhile fun char => char != '=', ?_⟩
    · have inside : '=' ∈ line.takeWhile fun char => char != '=' := by
        rw [isBack]
        exact mem_append_left _ member
      exact absurd (mem_takeWhile_imp inside) (by decide)
    · rw [← append_assoc, ← isBack, isLine]
  · rename_i noEquals
    exact ⟨noEquals, [], (append_nil line).symm⟩

theorem HeardLine.item_key (heardLine : HeardLine line) (resolved : Resolved line (.item var)) :
    '=' ∉ var.key ∧ StartsFull isPySpace var.key ∧ EndsFull isPySpace var.key := by
  rw [resolved.item_eq]
  obtain ⟨noEquals, rest, isLine⟩ := confVar_key line
  have starts := heardLine.starts
  rw [isLine] at starts
  refine ⟨noEquals, starts.of_append, ?_⟩
  rw [confVar]
  split
  · exact endsFull_rdropWhile _ _
  · exact heardLine.ends

private theorem confVar_value {value : List Char} (isValue : (confVar line).value = some value) :
    '=' ∈ line ∧ StartsFull isPySpace value ∧ ∀ char ∈ value, char ∈ line := by
  rw [confVar] at isValue
  split_ifs at isValue with equals
  obtain ⟨back, isBack, -⟩ := exists_rdropWhile (fun char => char == ';')
    ((line.dropWhile fun char => char != '=').tail.dropWhile isPySpace)
  rw [Option.some.inj isValue] at isBack
  have starts := startsFull_dropWhile isPySpace (line.dropWhile fun char => char != '=').tail
  rw [isBack] at starts
  refine ⟨equals, starts.of_append, fun char member => ?_⟩
  apply dropWhile_subset (fun char => char != '=')
  apply mem_of_mem_tail
  apply dropWhile_subset isPySpace
  rw [isBack]
  exact mem_append_left _ member

private theorem isPySpace_of_endsPyLine {char : Char} (ends : endsPyLine char = true) :
    isPySpace char = true := by
  have ended : char = '\n' ∨ char = '\r' := by
    simpa [endsPyLine] using ends
  rcases ended with rfl | rfl
  · rfl
  · rfl

private theorem heardPiece_cons (notSpace : isPySpace first = false) (notComment : first ≠ '#')
    (rest : List Char) : heardPiece (first :: rest) = [first :: rest.rdropWhile isPySpace] := by
  rw [heardPiece, trim, dropWhile_cons_of_neg (by rw [notSpace]; decide),
    rdropWhile_cons_of_neg notSpace, filter_cons_of_pos, filter_nil]
  simpa [isSilent] using notComment

theorem heard_ne_nil (notSpace : isPySpace first = false) (notComment : first ≠ '#')
    (rest : List Char) : heard (first :: rest) ≠ [] := by
  generalize isLine : first :: rest = line
  cases line using pieces_induction with
  | last piece noNewline noReturn =>
    rw [heard_single noNewline noReturn, ← isLine, heardPiece_cons notSpace notComment]
    exact cons_ne_nil _ _
  | line piece char more noNewline noReturn ends =>
    rw [heard_break ends noNewline noReturn]
    cases piece with
    | nil =>
      rw [head_eq_of_cons_eq isLine, isPySpace_of_endsPyLine ends] at notSpace
      cases notSpace
    | cons next piece =>
      obtain rfl := head_eq_of_cons_eq isLine
      rw [heardPiece_cons notSpace notComment]
      exact cons_ne_nil _ _

private theorem heard_one (noNewline : '\n' ∉ line) (noReturn : '\r' ∉ line)
    (starts : StartsFull isPySpace line) (ends : EndsFull isPySpace line)
    (loud : isSilent line = false) : heard line = [line] := by
  rw [heard_single noNewline noReturn, heardPiece, trim_eq_self starts ends,
    filter_cons_of_pos, filter_nil]
  rw [loud]
  rfl

end Heard

theorem blank_isPySpace {blanks : List Char} (blank : Blank isCfgSpace blanks) :
    Blank isPySpace blanks := fun char member => isPySpace_of_isCfgSpace (blank char member)

section Start

variable {line : List Char}

private theorem exists_lineName (isStart : line.getLast? = some '{') :
    ∃ back, line = lineName line ++ back ++ ['{'] ∧ Blank isCfgSpace back := by
  obtain ⟨front, rfl⟩ := getLast?_eq_some_iff.mp isStart
  obtain ⟨back, isBack, blank⟩ := exists_rdropWhile isCfgSpace front
  refine ⟨back, ?_, blank⟩
  rw [lineName, dropLast_concat, ← isBack]

private theorem agrees_start (isStart : line.getLast? = some '{') (notClose : line.head? ≠ some '}')
    (starts : StartsFull isPySpace (lineName line)) (ends : EndsFull isPySpace (lineName line)) :
    Agrees line (.start (lineName line)) := by
  obtain ⟨back, isLine, blank⟩ := exists_lineName isStart
  have isName : trim isPySpace line.dropLast = lineName line := by
    have parts := trim_parts blank_nil (blank_isPySpace blank) starts ends
    conv_lhs => rw [isLine, dropLast_concat]
    exact parts
  apply Agrees.of_confEvent
  intro nested
  rw [confEvent_of_not_close notClose, if_pos isStart, isName]

private theorem heard_start (whole : '\n' ∉ line) (noReturn : '\r' ∉ line)
    (isStart : line.getLast? = some '{') (named : lineName line ≠ [])
    (starts : StartsFull isPySpace (lineName line)) (loud : isSilent line = false) :
    heard line = [line] := by
  obtain ⟨back, isLine, -⟩ := exists_lineName isStart
  obtain ⟨first, rest, isName⟩ := exists_cons_of_ne_nil named
  apply heard_one whole noReturn _ _ loud
  · intro char isChar
    apply starts char
    rw [isLine, isName] at isChar
    rw [isName]
    exact isChar
  · intro char isChar
    rw [Option.mem_def, isStart] at isChar
    rw [← Option.some.inj isChar]
    rfl

theorem mem_heard_of_return (isStart : line.getLast? = some '{') (isReturn : '\r' ∈ line)
    (nameWhole : '\r' ∉ lineName line) : ['{'] ∈ heard line := by
  obtain ⟨back, isLine, blank⟩ := exists_lineName isStart
  have behind : '\r' ∈ back := by
    rw [isLine] at isReturn
    rcases mem_append.mp isReturn with inFront | isLast
    · exact (mem_append.mp inFront).resolve_left nameWhole
    · exact absurd (mem_singleton.mp isLast) (by decide)
  obtain ⟨front, rest, rfl⟩ := append_of_mem behind
  have blankRest : Blank isCfgSpace rest :=
    fun char member => blank char (mem_append_right _ (mem_cons_of_mem _ member))
  have isHeard : heard (rest ++ ['{']) = [['{']] := by
    rw [heard_blank_append blankRest]
    rfl
  rw [isLine, ← append_assoc, append_assoc, cons_append, heard_append rfl, isHeard]
  exact mem_append_right _ (mem_singleton_self _)

end Start

section Values

variable {value start : List Char} {last : Char}

private theorem withoutSemicolon_other (other : last ≠ ';') :
    withoutSemicolon (start ++ [last]) = start ++ [last] := by
  rw [withoutSemicolon, getLast?_concat, if_neg]
  exact fun both => other (Option.some.inj both.1)

private theorem withoutSemicolon_semicolon :
    withoutSemicolon (start ++ [last] ++ [';']) =
      if last = '\\' then start ++ [last] ++ [';']
      else (start ++ [last]).rdropWhile isCfgSpace := by
  rw [withoutSemicolon, getLast?_concat, dropLast_concat, getLast?_concat]
  by_cases backslash : last = '\\'
  · rw [if_pos backslash, if_neg fun both => both.2 (congrArg some backslash)]
  · rw [if_neg backslash, if_pos ⟨rfl, fun same => backslash (Option.some.inj same)⟩]

private theorem rdropWhile_other (other : last ≠ ';') :
    (start ++ [last]).rdropWhile (fun char => char == ';') = start ++ [last] :=
  rdropWhile_concat_neg _ _ _ (mt beq_iff_eq.mp other)

private theorem sameValue_iff (notEmpty : value ≠ []) :
    (withoutSemicolon value ≠ [] ∧
        withoutSemicolon value = value.rdropWhile fun char => char == ';') ↔
      (value.getLast? = some ';' →
        value.dropLast.getLast?.any
          (fun last => !isCfgSpace last && last != ';' && last != '\\') = true) := by
  obtain ⟨front, final, rfl⟩ := (eq_nil_or_concat' value).resolve_left notEmpty
  rw [getLast?_concat, dropLast_concat]
  by_cases semicolon : final = ';'
  · obtain rfl := semicolon
    rcases eq_nil_or_concat' front with rfl | ⟨start, last, rfl⟩
    · decide
    · rw [withoutSemicolon_semicolon, rdropWhile_concat_pos (· == ';') _ _ rfl, getLast?_concat]
      simp only [true_implies, Option.any_some, Bool.and_eq_true, Bool.not_eq_true', bne_iff_ne]
      by_cases backslash : last = '\\'
      · rw [if_pos backslash]
        refine iff_of_false (fun both => ?_) fun all => all.2 backslash
        have shortened := rdropWhile_prefix (fun char => char == ';') (start ++ [last])
        have shorter := shortened.length_le
        rw [← both.2] at shorter
        simp only [length_append, length_singleton] at shorter
        omega
      · rw [if_neg backslash]
        by_cases blank : isCfgSpace last = true
        · have notSemicolon : last ≠ ';' := by
            rintro rfl
            cases blank
          refine iff_of_false (fun both => ?_) fun all => ?_
          · have shorter := length_rdropWhile_lt blank start
            rw [both.2, rdropWhile_other notSemicolon] at shorter
            exact Nat.lt_irrefl _ shorter
          · rw [all.1.1] at blank
            cases blank
        · rw [rdropWhile_concat_neg _ _ _ blank]
          by_cases another : last = ';'
          · refine iff_of_false (fun both => ?_) fun all => all.1.2 another
            have shorter : ((start ++ [last]).rdropWhile fun char => char == ';').length <
                (start ++ [last]).length := by
              rw [another]
              exact length_rdropWhile_lt rfl start
            rw [← both.2] at shorter
            exact Nat.lt_irrefl _ shorter
          · refine iff_of_true ⟨append_ne_nil_of_right_ne_nil _ (cons_ne_nil _ _), ?_⟩
              ⟨⟨Bool.eq_false_iff.mpr blank, another⟩, backslash⟩
            rw [rdropWhile_other another]
  · refine iff_of_true ⟨?_, ?_⟩ fun same => absurd (Option.some.inj same) semicolon
    · rw [withoutSemicolon_other semicolon]
      exact notEmpty
    · rw [withoutSemicolon_other semicolon, rdropWhile_other semicolon]

private theorem safeValue_iff (notEmpty : value ≠ []) (ends : EndsFull isCfgSpace value) :
    SafeValue value ↔
      withoutSemicolon value ≠ [] ∧
        withoutSemicolon value = (trim isPySpace value).rdropWhile fun char => char == ';' := by
  constructor
  · rintro ⟨starts, ends, semicolon⟩
    rw [trim_eq_self starts ends]
    exact (sameValue_iff notEmpty).mpr semicolon
  · rintro ⟨kept, same⟩
    have starts : StartsFull isPySpace value := by
      obtain ⟨rest, isRest, -⟩ := exists_withoutSemicolon value
      obtain ⟨back, isBack, -⟩ := exists_rdropWhile (fun char => char == ';') (trim isPySpace value)
      have startsTrim := startsFull_trim isPySpace value
      rw [isBack, ← same] at startsTrim
      rw [StartsFull, isRest, head?_append_of_ne_nil _ kept]
      exact startsTrim.of_append
    have endsFull : EndsFull isPySpace value := by
      obtain ⟨front, final, rfl⟩ := (eq_nil_or_concat' value).resolve_left notEmpty
      intro last isLast
      rw [getLast?_concat] at isLast
      rw [← Option.some.inj isLast, ← Bool.not_eq_true]
      intro space
      have notSemicolon : final ≠ ';' := by
        rintro rfl
        cases space
      have shortened :=
        rdropWhile_prefix (fun char => char == ';') (trim isPySpace (front ++ [final]))
      have shorter := shortened.length_le
      rw [← same, withoutSemicolon_other notSemicolon, trim, starts.dropWhile_eq] at shorter
      exact Nat.not_lt.mpr shorter (length_rdropWhile_lt space front)
    rw [trim_eq_self starts endsFull] at same
    exact ⟨starts, endsFull, (sameValue_iff notEmpty).mp ⟨kept, same⟩⟩

end Values

private theorem heard_eq_of_singleton {first second single : List Char}
    (isHeard : heard (first ++ '\r' :: second) = [single]) (some : heard first ≠ []) :
    heard first = [single] ∧ heard second = [] := by
  rw [heard_append rfl, append_eq_singleton_iff] at isHeard
  rcases isHeard with ⟨none, -⟩ | both
  · exact absurd none some
  · exact both

namespace VarParts

variable {line key left right value single : List Char} (parts : VarParts line key left right value)

include parts

theorem isSplit : line = (key ++ left) ++ '=' :: (right ++ value) := by
  rw [parts.isLine]
  simp only [append_assoc, cons_append]

private theorem noEquals : '=' ∉ key ++ left := by
  intro member
  rcases mem_append.mp member with inKey | inLeft
  · exact (parts.oneWord _ inKey).2 rfl
  · exact absurd (parts.blankLeft _ inLeft) (by decide)

private theorem head_eq (notEmpty : key ≠ []) : line.head? = key.head? := by
  rw [parts.isSplit, append_assoc, head?_append_of_ne_nil _ notEmpty]

private theorem heard_key_ne_nil (notEmpty : key ≠ []) (starts : StartsFull isPySpace key)
    (loud : isSilent line = false) (rest : List Char) : heard (key ++ rest) ≠ [] := by
  have isHead := parts.head_eq notEmpty
  obtain ⟨first, key, rfl⟩ := exists_cons_of_ne_nil notEmpty
  apply heard_ne_nil (starts first rfl)
  rintro rfl
  rw [isSilent_eq_false_iff, isHead] at loud
  exact loud.2 rfl

private theorem confVar_trim (notEmpty : key ≠ []) (starts : StartsFull isPySpace key)
    (ends : EndsFull isPySpace key) :
    confVar (trim isPySpace line) =
      ⟨key, some ((trim isPySpace value).rdropWhile fun char => char == ';')⟩ := by
  have startsLine : StartsFull isPySpace line := by
    rw [StartsFull, parts.head_eq notEmpty]
    exact starts
  have isTrim : trim isPySpace line =
      (key ++ left) ++ '=' :: (right ++ value).rdropWhile isPySpace := by
    rw [trim, startsLine.dropWhile_eq, parts.isSplit, rdropWhile_append_of_ne_nil]
    · rw [rdropWhile_cons_of_neg rfl]
    · rw [rdropWhile_cons_of_neg rfl]
      exact cons_ne_nil _ _
  have isValue := trim_around (blank_isPySpace parts.blankRight) blank_nil value
  rw [append_nil] at isValue
  rw [isTrim, confVar_append parts.noEquals, dropWhile_rdropWhile, isValue,
    (blank_isPySpace parts.blankLeft).rdropWhile_append, ends.rdropWhile_eq]

variable (notEmpty : key ≠ []) (starts : StartsFull isPySpace key) (loud : isSilent line = false)
  (isHeard : heard line = [single])

include notEmpty starts loud isHeard

private theorem noReturn_left : '\r' ∉ left := by
  intro isReturn
  obtain ⟨front, back, rfl⟩ := append_of_mem isReturn
  have blank : Blank isCfgSpace back := fun char member =>
    parts.blankLeft char (mem_append_right _ (mem_cons_of_mem _ member))
  have split : line = (key ++ front) ++ '\r' :: (back ++ '=' :: (right ++ value)) := by
    rw [parts.isSplit]
    simp only [append_assoc, cons_append]
  rw [split] at isHeard
  have nothing := (heard_eq_of_singleton isHeard
    (parts.heard_key_ne_nil notEmpty starts loud front)).2
  rw [heard_blank_append blank] at nothing
  exact heard_ne_nil rfl (by decide) _ nothing

theorem noReturn_right (whole : '\n' ∉ line) (notNothing : (confVar single).value ≠ some []) :
    '\r' ∉ right := by
  intro isReturn
  obtain ⟨front, back, rfl⟩ := append_of_mem isReturn
  have blank : Blank isCfgSpace front := fun char member =>
    parts.blankRight char (mem_append_left _ member)
  have split : line = (key ++ (left ++ ['='] ++ front)) ++ '\r' :: (back ++ value) := by
    rw [parts.isSplit]
    simp only [append_assoc, cons_append, nil_append]
  have noReturn : '\r' ∉ key ++ (left ++ ['=']) := by
    intro member
    rcases mem_append.mp member with inKey | inRest
    · exact absurd (parts.oneWord _ inKey).1 (by decide)
    · rcases mem_append.mp inRest with inLeft | isEquals
      · exact parts.noReturn_left notEmpty starts loud isHeard inLeft
      · exact absurd (mem_singleton.mp isEquals) (by decide)
  have noNewline : '\n' ∉ key ++ (left ++ ['=']) := by
    intro member
    apply whole
    rw [split, ← append_assoc key]
    exact mem_append_left _ (mem_append_left _ member)
  have isHead := parts.head_eq notEmpty
  rw [split] at isHeard
  have one := (heard_eq_of_singleton isHeard (parts.heard_key_ne_nil notEmpty starts loud _)).1
  rw [← append_assoc, heard_append_blank blank, heard_one noNewline noReturn] at one
  · have same := head_eq_of_cons_eq one
    rw [← same, ← append_assoc, confVar_append parts.noEquals] at notNothing
    exact notNothing rfl
  · rw [StartsFull, head?_append_of_ne_nil _ notEmpty]
    exact starts
  · intro char isChar
    rw [← append_assoc, getLast?_concat] at isChar
    rw [← Option.some.inj isChar]
    rfl
  · rw [isSilent_eq_false_iff] at loud ⊢
    rw [head?_append_of_ne_nil _ notEmpty, ← isHead]
    exact ⟨append_ne_nil_of_left_ne_nil notEmpty _, loud.2⟩

private theorem noReturn_value (isValue : (confVar single).value = some (withoutSemicolon value)) :
    '\r' ∉ value := by
  intro isReturn
  have member : single ∈ heard line := by
    rw [isHeard]
    exact mem_singleton_self single
  have heardLine := heardLine_of_mem member
  obtain ⟨rest, isRest, ends⟩ := exists_withoutSemicolon value
  have inRest : '\r' ∈ rest := by
    rw [isRest] at isReturn
    apply (mem_append.mp isReturn).resolve_left
    exact fun member => heardLine.oneLine.2 ((confVar_value isValue).2.2 _ member)
  rcases ends with rfl | ⟨blanks, blank, rfl⟩
  · cases inRest
  · have inBlanks : '\r' ∈ blanks := by
      apply (mem_append.mp inRest).resolve_right
      exact fun member => absurd (mem_singleton.mp member) (by decide)
    obtain ⟨front, back, rfl⟩ := append_of_mem inBlanks
    have blankBack : Blank isCfgSpace back := fun char member =>
      blank char (mem_append_right _ (mem_cons_of_mem _ member))
    have split : line =
        (key ++ (left ++ '=' :: (right ++ (withoutSemicolon value ++ front)))) ++
          '\r' :: (back ++ [';']) := by
      rw [parts.isSplit]
      conv_lhs => rw [isRest]
      simp only [append_assoc, cons_append]
    rw [split] at isHeard
    have nothing := (heard_eq_of_singleton isHeard
      (parts.heard_key_ne_nil notEmpty starts loud _)).2
    rw [heard_blank_append blankBack] at nothing
    exact heard_ne_nil rfl (by decide) _ nothing

private theorem noReturn (whole : '\n' ∉ line)
    (isValue : (confVar single).value =
      if withoutSemicolon value = [] then none else some (withoutSemicolon value)) :
    '\r' ∉ line := by
  have notNothing : (confVar single).value ≠ some [] := by
    rw [isValue]
    split
    · exact nofun
    · rename_i kept
      exact fun same => kept (Option.some.inj same)
  have noReturnValue : '\r' ∉ value := by
    by_cases nothing : withoutSemicolon value = []
    · intro isReturn
      have notLone : value ≠ [';'] := by
        rintro rfl
        exact absurd (mem_singleton.mp isReturn) (by decide)
      exact (withoutSemicolon_append [] parts.startsSpace parts.notEmpty notLone).2 nothing
    · rw [if_neg nothing] at isValue
      exact parts.noReturn_value notEmpty starts loud isHeard isValue
  rw [parts.isSplit]
  intro isReturn
  rcases mem_append.mp isReturn with inFront | inBack
  · rcases mem_append.mp inFront with inKey | inLeft
    · exact absurd (parts.oneWord _ inKey).1 (by decide)
    · exact parts.noReturn_left notEmpty starts loud isHeard inLeft
  · rcases mem_cons.mp inBack with isEquals | inBack
    · exact absurd isEquals (by decide)
    · rcases mem_append.mp inBack with inRight | inValue
      · exact parts.noReturn_right notEmpty starts loud isHeard whole notNothing inRight
      · exact noReturnValue inValue

end VarParts

variable {line key left right value single : List Char}

theorem VarParts.safeLine_iff (parts : VarParts line key left right value)
    (kind : lineKind line = .var) :
    SafeLine line ↔
      '\r' ∉ line ∧ line.head? ≠ some '}' ∧ key ≠ [] ∧ StartsFull isPySpace key ∧
        EndsFull isPySpace key ∧ SafeValue value := by
  rw [SafeLine, kind, parts.lineKey_eq, parts.lineValue_eq]

theorem VarParts.safeLine (parts : VarParts line key left right value) (notEmpty : key ≠ [])
    (kind : lineKind line = .var) (whole : '\n' ∉ line) (ends : EndsFull isCfgSpace line)
    (notClose : line.head? ≠ some '}') (isHeard : heard line = [single])
    (resolved : Resolved single (.item (lineVar (withoutSemicolon line)))) : SafeLine line := by
  have member : single ∈ heard line := by
    rw [isHeard]
    exact mem_singleton_self single
  have isVar := resolved.item_eq
  obtain ⟨-, startsKey, endsKey⟩ := (heardLine_of_mem member).item_key resolved
  rw [parts.lineVar_eq (parts.endsValue ends) notEmpty] at isVar startsKey endsKey
  have noReturn : '\r' ∉ line := by
    apply parts.noReturn notEmpty startsKey (of_lineKind_var kind).1 isHeard whole
    rw [← isVar]
  rw [parts.safeLine_iff kind]
  refine ⟨noReturn, notClose, notEmpty, startsKey, endsKey, ?_⟩
  rw [heard_single whole noReturn, heardPiece, mem_filter, mem_singleton] at member
  rw [member.1, parts.confVar_trim notEmpty startsKey endsKey, ConfigVar.mk.injEq] at isVar
  rw [safeValue_iff parts.notEmpty (parts.endsValue ends)]
  by_cases nothing : withoutSemicolon value = []
  · rw [if_pos nothing] at isVar
    cases isVar.2
  · rw [if_neg nothing] at isVar
    exact ⟨nothing, Option.some.inj isVar.2⟩

private theorem heard_var (parts : VarParts line key left right value) (kind : lineKind line = .var)
    (whole : '\n' ∉ line) (ends : EndsFull isCfgSpace line) (safe : SafeLine line) :
    heard line = [line] ∧ Agrees line (.item (lineVar (withoutSemicolon line))) := by
  rw [parts.safeLine_iff kind] at safe
  obtain ⟨noReturn, notClose, notEmpty, startsKey, endsKey, safeValue⟩ := safe
  have loud := (of_lineKind_var kind).1
  have starts : StartsFull isPySpace line := by
    rw [StartsFull, parts.head_eq notEmpty]
    exact startsKey
  have endsLine : EndsFull isPySpace line := by
    rw [EndsFull, parts.isLine, getLast?_append_of_ne_nil _ parts.notEmpty]
    exact safeValue.2.1
  obtain ⟨kept, same⟩ := (safeValue_iff parts.notEmpty (parts.endsValue ends)).mp safeValue
  have isVar := parts.confVar_trim notEmpty startsKey endsKey
  rw [trim_eq_self starts endsLine, ← same] at isVar
  refine ⟨heard_one whole noReturn starts endsLine loud, .of_confEvent fun nested => ?_⟩
  rw [confEvent_of_not_close notClose, if_neg (of_lineKind_var kind).2.2, isVar,
    parts.lineVar_eq (parts.endsValue ends) notEmpty, if_neg kept]

theorem lineName_ne_nil (conf : ConfLine line) (isStart : line.getLast? = some '{')
    (starts : StartsFull isCfgSpace line) : lineName line ≠ [] := by
  obtain ⟨front, rfl⟩ := getLast?_eq_some_iff.mp isStart
  rw [lineName, dropLast_concat]
  cases front with
  | nil => exact absurd rfl (conf.ne_singleton (by decide : '{' ≠ '#' ∧ _))
  | cons first front => exact rdropWhile_ne_nil mem_cons_self (starts first rfl)

theorem SafeLine.agrees (safe : SafeLine line) (conf : ConfLine line) (whole : '\n' ∉ line)
    (starts : StartsFull isCfgSpace line) (ends : EndsFull isCfgSpace line) :
    List.Forall₂ Agrees (heard line) (lineEvents line) := by
  cases kind : lineKind line with
  | silent =>
    rw [SafeLine, kind] at safe
    rw [lineEvents, kind, safe]
    exact .nil
  | close =>
    rw [lineEvents, kind, of_lineKind_close kind]
    exact .cons ⟨rfl, fun notClose => absurd rfl notClose⟩ .nil
  | start =>
    rw [SafeLine, kind] at safe
    obtain ⟨noReturn, notClose, startsName, endsName⟩ := safe
    obtain ⟨loud, -, isStart⟩ := of_lineKind_start kind
    rw [lineEvents, kind, heard_start whole noReturn isStart
      (lineName_ne_nil conf isStart starts) startsName loud]
    exact .cons (agrees_start isStart notClose startsName endsName) .nil
  | var =>
    obtain ⟨key, left, right, value, parts⟩ := exists_varParts conf kind
    obtain ⟨isHeard, agrees⟩ := heard_var parts kind whole ends safe
    rw [lineEvents, kind, isHeard]
    exact .cons agrees .nil

end MonitorMerlin
