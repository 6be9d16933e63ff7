import MonitorMerlin.Config.Runs

/-! # Configuration files in parts -/

namespace MonitorMerlin

open Lines List Nesting Trim

def isVariableLine (line : List Char) : Bool :=
  line ≠ [] ∧ line.head? ≠ some '}' ∧ line.getLast? ≠ some '{' ∧ line ≠ [';']

def variableFirst : List (List Char) → Bool
  | [] => false
  | line :: lines =>
    if (trim isCfgSpace line).head? = some '#' then
      variableFirst lines
    else
      isVariableLine (trim isCfgSpace line)

section FirstLine

variable {first : Char} {line blanks : List Char}

private theorem realLine_variable (notSpace : isCfgSpace first = false)
    (isVariable : isVariableLine ((first :: line).rdropWhile isCfgSpace) = true) :
    ∃ text, text ≠ [] ∧ ∀ (before : Option Char) (scan : ConfigScan),
      scan.realLine before (first :: line) = .ok (scan.keepVar text) := by
  have isLine := rdropWhile_cons_of_neg notSpace line
  generalize line.rdropWhile isCfgSpace = rest at isLine
  rw [isVariableLine, decide_eq_true_iff, isLine] at isVariable
  obtain ⟨-, -, notStart, notLone⟩ := isVariable
  have does : ∀ {text}, text ≠ [] →
      (∀ before, stripSemicolon before (first :: rest) = .ok text) →
      ∃ text, text ≠ [] ∧ ∀ (before : Option Char) (scan : ConfigScan),
        scan.realLine before (first :: line) = .ok (scan.keepVar text) := by
    intro text notEmpty stripped
    refine ⟨text, notEmpty, fun before scan => ?_⟩
    rw [ConfigScan.realLine, isLine, if_neg notStart, stripped]
    rfl
  by_cases semicolon : (first :: rest).getLast? = some ';'
  · obtain ⟨front, isFront⟩ := getLast?_eq_some_iff.mp semicolon
    rcases eq_nil_or_concat' front with rfl | ⟨front, last, rfl⟩
    · exact absurd isFront notLone
    · have stripped : ∀ before, stripSemicolon before (first :: rest) =
          .ok (if last = '\\' then front ++ [last] ++ [';']
            else (front ++ [last]).rdropWhile isCfgSpace) := by
        intro before
        rw [isFront, stripSemicolon_concat]
      refine does ?_ stripped
      have notEmpty : front ++ [last] ≠ [] := append_ne_nil_of_right_ne_nil _ (cons_ne_nil _ _)
      split
      · exact append_ne_nil_of_right_ne_nil _ (cons_ne_nil _ _)
      · exact rdropWhile_ne_nil (head_mem_of_eq_append isFront notEmpty) notSpace
  · exact does (cons_ne_nil first rest) fun before => stripSemicolon_other semicolon

variable {before : Option Char}

private theorem realLine_lone {char : Char} (isLone : (first :: line).rdropWhile isCfgSpace = [';'])
    (isBefore : before = some char) (plain : char ≠ '\\') (scan : ConfigScan) :
    scan.realLine before (first :: line) = .ok (scan.keepVar []) := by
  rw [ConfigScan.realLine, isLone, if_neg (by decide), isBefore]
  simp only [stripSemicolon, getLast?_singleton, if_true, dropLast_singleton,
    getLast?_nil, Option.none_or, if_neg plain]
  rfl

theorem realLine_before {scan : ConfigScan} (defined : scan.realLine none line ≠ .error .outside) :
    scan.realLine before line = scan.realLine none line := by
  rw [ConfigScan.realLine, ConfigScan.realLine] at *
  split
  · rfl
  · rename_i notStart
    rw [if_neg notStart] at defined
    rw [stripSemicolon, stripSemicolon] at *
    split
    · rename_i semicolon
      rw [if_pos semicolon] at defined
      cases isLast : (line.rdropWhile isCfgSpace).dropLast.getLast? with
      | none =>
        rw [isLast] at defined
        exact absurd rfl defined
      | some last => rfl
    · rfl

end FirstLine

section Second

variable {text : List Char} {comp : Cursor (List Char) ConfigVar} {before behind : Option Char}

private theorem parseText_before {scan : ConfigScan}
    (defined : parseText none text scan ≠ .error .outside) (before : Option Char) :
    parseText before text scan = parseText none text scan := by
  by_cases empty : text = []
  · subst empty
    rfl
  · obtain ⟨line, after, rfl, whole, ends, -⟩ := exists_frontLine empty
    rw [parseText_next empty] at defined ⊢
    rw [parseText_next empty]
    cases lineCase whole with
    | blank line blank => rw [nextEntry_blank blank ends, nextEntry_blank blank ends]
    | comment blanks line blank restWhole =>
      rw [nextEntry_comment blank restWhole ends, nextEntry_comment blank restWhole ends]
    | close blanks line blank restWhole =>
      rw [append_assoc, cons_append, nextEntry_close blank, nextEntry_close blank]
    | real blanks first line blank real restWhole =>
      rw [nextEntry_real blank real restWhole ends] at defined ⊢
      rw [nextEntry_real blank real restWhole ends]
      dsimp only [ConfigScan.entry] at defined ⊢
      cases isLast : blanks.getLast? with
      | some last => rfl
      | none =>
        rw [isLast, Option.none_or] at defined
        rw [Option.none_or, Option.none_or, realLine_before]
        intro failed
        rw [failed] at defined
        exact defined rfl

variable {blanks : List Char}

private theorem or_ne_backslash (blank : Blank isCfgSpace blanks) (plain : before ≠ some '\\') :
    blanks.getLast?.or before ≠ some '\\' := by
  cases isLast : blanks.getLast? with
  | none => exact plain
  | some last =>
    intro isBackslash
    have isSpace := blank last (mem_of_getLast? isLast)
    rw [Option.some_or, Option.some.injEq] at isBackslash
    rw [isBackslash] at isSpace
    exact absurd isSpace (by decide)

theorem BehindLine.exists_or (blank : Blank isCfgSpace blanks) (isBehind : BehindLine behind) :
    ∃ char, blanks.getLast?.or behind = some char ∧ char ≠ '\\' := by
  have plain : behind ≠ some '\\' := by
    rcases isBehind with rfl | rfl
    · decide
    · decide
  have notBackslash := or_ne_backslash blank plain
  cases isChar : blanks.getLast?.or behind with
  | none =>
    rw [Option.or_eq_none_iff] at isChar
    rcases isBehind with rfl | rfl
    · cases isChar.2
    · cases isChar.2
  | some char =>
    rw [isChar] at notBackslash
    exact ⟨char, rfl, fun same => notBackslash (congrArg some same)⟩

section VariableFirst

variable {line : List Char} {lines : List (List Char)} {first : Char}

private theorem variableFirst_blank (blank : Blank isCfgSpace line) :
    variableFirst (line :: lines) = false := by
  rw [variableFirst, trim_blank blank]
  rfl

private theorem variableFirst_comment (blank : Blank isCfgSpace blanks) :
    variableFirst ((blanks ++ '#' :: line) :: lines) = variableFirst lines := by
  rw [variableFirst, trim_line blank rfl, head?_cons, if_pos rfl]

private theorem variableFirst_close (blank : Blank isCfgSpace blanks) :
    variableFirst ((blanks ++ '}' :: line) :: lines) = false := by
  rw [variableFirst, trim_line blank rfl, head?_cons, if_neg (by decide), isVariableLine,
    head?_cons]
  simp

private theorem variableFirst_real (blank : Blank isCfgSpace blanks) (real : StartsReal first) :
    variableFirst ((blanks ++ first :: line) :: lines) =
      isVariableLine ((first :: line).rdropWhile isCfgSpace) := by
  rw [variableFirst, trim_line blank real.1, rdropWhile_cons_of_neg real.1, if_neg]
  exact fun same => real.2.2.1 (Option.some.inj same)

end VariableFirst

private theorem realLine_leftOver {first : Char} {line : List Char} {char : Char}
    (notSpace : isCfgSpace first = false) (notClose : first ≠ '}')
    (notVariable : isVariableLine ((first :: line).rdropWhile isCfgSpace) = false)
    (plain : before ≠ some '\\') (isBehind : behind = some char) (plainBehind : char ≠ '\\')
    (defined : ConfigScan.realLine ⟨none, comp⟩ before (first :: line) ≠ .error .outside) :
    ConfigScan.realLine ⟨some ⟨[], none⟩, comp⟩ behind (first :: line) =
      ConfigScan.realLine ⟨none, comp⟩ before (first :: line) := by
  have isLine := rdropWhile_cons_of_neg notSpace line
  by_cases starts : ((first :: line).rdropWhile isCfgSpace).getLast? = some '{'
  · rw [ConfigScan.realLine, ConfigScan.realLine, if_pos starts, if_pos starts]
    rfl
  · have isLone : (first :: line).rdropWhile isCfgSpace = [';'] := by
      rw [isVariableLine, decide_eq_false_iff_not, isLine] at notVariable
      rw [isLine] at starts ⊢
      by_contra notLone
      exact notVariable ⟨cons_ne_nil _ _, fun same => notClose (Option.some.inj same), starts,
        notLone⟩
    cases before with
    | none =>
      refine absurd ?_ defined
      rw [ConfigScan.realLine, if_neg starts, isLone]
      rfl
    | some last =>
      rw [realLine_lone isLone isBehind plainBehind, realLine_lone isLone rfl fun same =>
        plain (congrArg some same)]
      rfl

private theorem parseText_leftOver (plain : before ≠ some '\\') (isBehind : BehindLine behind)
    (defined : parseText before text ⟨none, comp⟩ ≠ .error .outside) :
    (variableFirst (lines '\n' text) = false →
      Both (fun scan other => scan.comp = other.comp)
        (parseText behind text ⟨some ⟨[], none⟩, comp⟩) (parseText before text ⟨none, comp⟩)) ∧
    (variableFirst (lines '\n' text) = true →
      Both Lost (parseText behind text ⟨some ⟨[], none⟩, comp⟩)
        (parseText before text ⟨none, comp⟩)) := by
  have same : ∀ result : Except ConfigFault ConfigScan,
      Both (fun scan other => scan.comp = other.comp) result result := by
    intro result
    cases result with
    | error fault => exact .fault fault
    | ok scan => exact .ok rfl
  induction before, text using entries_induction generalizing behind with
  | nil before => exact ⟨fun _ => .ok rfl, nofun⟩
  | next before text notEmpty ih =>
    obtain ⟨line, after, rfl, whole, ends, isLines⟩ := exists_frontLine notEmpty
    rw [parseText_next notEmpty] at defined ⊢
    rw [parseText_next notEmpty, isLines]
    cases lineCase whole with
    | blank line blank =>
      rw [nextEntry_blank blank ends] at defined ⊢
      rw [nextEntry_blank blank ends, variableFirst_blank blank]
      exact ⟨fun _ => same _, nofun⟩
    | comment blanks line blank restWhole =>
      rw [nextEntry_comment blank restWhole ends] at defined ih ⊢
      rw [nextEntry_comment blank restWhole ends, variableFirst_comment blank]
      exact ih (show some '\n' ≠ some '\\' by decide) (.inl rfl) defined
    | close blanks line blank restWhole =>
      rw [append_assoc, cons_append, nextEntry_close blank, nextEntry_close blank,
        variableFirst_close blank]
      exact ⟨fun _ => same _, nofun⟩
    | real blanks first line blank real restWhole =>
      rw [nextEntry_real blank real restWhole ends] at defined ⊢
      rw [nextEntry_real blank real restWhole ends, variableFirst_real blank real]
      obtain ⟨char, isChar, plainChar⟩ := isBehind.exists_or blank
      constructor
      · intro notVariable
        dsimp only [ConfigScan.entry] at defined ⊢
        rw [realLine_leftOver real.1 real.2.2.2 notVariable (or_ne_backslash blank plain)
          isChar plainChar fun failed => defined (by rw [failed]; rfl)]
        exact same _
      · intro isVariable
        obtain ⟨kept, named, does⟩ := realLine_variable real.1 isVariable
        dsimp only [ConfigScan.entry]
        rw [does, does, keepVar_line named]
        apply parseText_both Lost.entry
        refine ⟨.inr ⟨rfl, rfl⟩, rfl, ?_⟩
        rw [varCount_step (.item _) none none rfl]
        exact Nat.lt_succ_self _

end Second

/-- What a line does to a key that is left over. -/
inductive KeyEffect where
  | keeps
  | clears
  | leaves
  deriving DecidableEq, Repr

def KeyEffect.after (left : Bool) : KeyEffect → Bool
  | .keeps => left
  | .clears => false
  | .leaves => true

def realEffect (escaped : Bool) (line : List Char) : KeyEffect :=
  if (line.rdropWhile isCfgSpace).getLast? = some '{' then
    .clears
  else if line.rdropWhile isCfgSpace = [';'] ∧ escaped = false then
    .leaves
  else
    .keeps

inductive LinePlace where
  | front (escaped : Bool)
  | brace
  deriving DecidableEq, Repr

def keyEffect : LinePlace → List Char → KeyEffect
  | _, [] => .clears
  | .brace, skipped :: line =>
    if keyEffect (.front (skipped = '\\')) line = .leaves then .leaves else .clears
  | .front escaped, char :: line =>
    if isCfgSpace char then
      keyEffect (.front false) line
    else if char = '#' then
      .keeps
    else if char = '}' then
      keyEffect .brace line
    else
      realEffect escaped (char :: line)

def lastEffect (effects : List KeyEffect) : KeyEffect :=
  (effects.filter (· ≠ .keeps)).getLast?.getD .clears

/-- The last line but comments and variables is a lone `;`. -/
def LeavesKey (text : List Char) : Prop :=
  lastEffect ((lines '\n' text).map (keyEffect (.front false))) = .leaves

instance (text : List Char) : Decidable (LeavesKey text) := inferInstanceAs (Decidable (_ = _))

section Left

variable {blanks line : List Char} {escaped : Bool} {first : Char}

private theorem keyEffect_blanks (blank : Blank isCfgSpace blanks) (line : List Char) :
    keyEffect (.front escaped) (blanks ++ line) =
      keyEffect (.front (escaped && blanks.isEmpty)) line := by
  induction blanks generalizing escaped with
  | nil => simp
  | cons char blanks ih =>
    rw [cons_append, keyEffect, if_pos (blank char mem_cons_self),
      ih fun other member => blank other (mem_cons_of_mem _ member)]
    simp

private theorem keyEffect_blank (blank : Blank isCfgSpace line) :
    keyEffect (.front escaped) line = .clears := by
  rw [← append_nil line, keyEffect_blanks blank]
  rfl

private theorem keyEffect_comment (blank : Blank isCfgSpace blanks) :
    keyEffect (.front escaped) (blanks ++ '#' :: line) = .keeps := by
  rw [keyEffect_blanks blank]
  rfl

private theorem keyEffect_close (blank : Blank isCfgSpace blanks) :
    keyEffect (.front escaped) (blanks ++ '}' :: line) = keyEffect .brace line := by
  rw [keyEffect_blanks blank]
  rfl

private theorem keyEffect_real (blank : Blank isCfgSpace blanks) (real : StartsReal first) :
    keyEffect (.front escaped) (blanks ++ first :: line) =
      realEffect (escaped && blanks.isEmpty) (first :: line) := by
  rw [keyEffect_blanks blank, keyEffect, if_neg (by simp [real.1]), if_neg real.2.2.1,
    if_neg real.2.2.2]

theorem EmptyKey.keepVar_isSome {scan : ConfigScan} (empty : EmptyKey scan) {text : List Char}
    (notEmpty : text ≠ []) : (scan.keepVar text).v.isSome = scan.v.isSome := by
  obtain ⟨v, comp⟩ := scan
  rcases empty with rfl | rfl
  · rw [keepVar_line notEmpty]
  · rfl

theorem EmptyKey.keepVar_nil {scan : ConfigScan} (empty : EmptyKey scan) :
    (scan.keepVar []).v.isSome = true := by
  obtain ⟨v, comp⟩ := scan
  rcases empty with rfl | rfl <;> rfl

variable {before : Option Char} {scan after : ConfigScan}

theorem EmptyKey.realLine (empty : EmptyKey scan) (real : StartsReal first)
    (done : scan.realLine before (first :: line) = .ok after) :
    after.v.isSome =
      (realEffect (before = some '\\') (first :: line)).after scan.v.isSome := by
  unfold realEffect
  by_cases starts : ((first :: line).rdropWhile isCfgSpace).getLast? = some '{'
  · rw [if_pos starts]
    rcases realLine_cases before (first :: line) with ⟨name, does⟩ | ⟨text, does⟩ | does
    · rw [does] at done
      rw [← Except.ok.inj done]
      rfl
    · rw [ConfigScan.realLine, if_pos starts, ConfigScan.startCompound] at done
      cases stored : compoundName (((first :: line).rdropWhile isCfgSpace).dropLast.rdropWhile
        isCfgSpace) with
      | error fault =>
        rw [stored] at done
        cases done
      | ok name =>
        rw [stored] at done
        rw [← Except.ok.inj done]
        rfl
    · rw [does] at done
      cases done
  · rw [if_neg starts]
    by_cases lone : (first :: line).rdropWhile isCfgSpace = [';']
    · cases before with
      | none =>
        rw [ConfigScan.realLine, if_neg starts, lone] at done
        cases done
      | some char =>
        by_cases escapes : char = '\\'
        · subst escapes
          have does : scan.realLine (some '\\') (first :: line) = .ok (scan.keepVar [';']) := by
            rw [ConfigScan.realLine, if_neg starts, lone]
            rfl
          rw [does] at done
          rw [← Except.ok.inj done, if_neg fun both => Bool.noConfusion both.2]
          exact empty.keepVar_isSome (cons_ne_nil ';' [])
        · rw [realLine_lone lone rfl escapes] at done
          rw [← Except.ok.inj done, if_pos ⟨lone, by simpa using escapes⟩]
          exact empty.keepVar_nil
    · have isLine := rdropWhile_cons_of_neg real.1 line
      have isVariable : isVariableLine ((first :: line).rdropWhile isCfgSpace) = true := by
        rw [isVariableLine, decide_eq_true_iff]
        refine ⟨by rw [isLine]; exact cons_ne_nil _ _, ?_, starts, lone⟩
        rw [isLine, head?_cons]
        exact fun same => real.2.2.2 (Option.some.inj same)
      obtain ⟨text, notEmpty, does⟩ := realLine_variable real.1 isVariable
      rw [does] at done
      rw [← Except.ok.inj done, if_neg (fun both => lone both.1)]
      exact empty.keepVar_isSome notEmpty

def textEffects (before : Option Char) (text : List Char) : List KeyEffect :=
  match lines '\n' text with
  | [] => []
  | line :: rest =>
    keyEffect (.front (before = some '\\')) line :: rest.map (keyEffect (.front false))

private theorem textEffects_of_plain {text : List Char} (plain : before ≠ some '\\') :
    textEffects before text = (lines '\n' text).map (keyEffect (.front false)) := by
  rw [textEffects]
  cases lines '\n' text with
  | nil => rfl
  | cons line rest => rw [decide_eq_false plain, map_cons]

private theorem textEffects_line {rest : List Char} (whole : '\n' ∉ line) :
    textEffects before (line ++ '\n' :: rest) =
      keyEffect (.front (before = some '\\')) line ::
        (lines '\n' rest).map (keyEffect (.front false)) := by
  rw [textEffects, lines_line whole]

private theorem escaped_or (blank : Blank isCfgSpace blanks) :
    (decide (before = some '\\') && blanks.isEmpty) =
      decide (blanks.getLast?.or before = some '\\') := by
  rcases eq_nil_or_concat' blanks with rfl | ⟨front, last, rfl⟩
  · rw [isEmpty_nil, Bool.and_true]
    rfl
  · have notBackslash : last ≠ '\\' := by
      rintro rfl
      exact absurd (blank '\\' (by simp)) (by decide)
    simp [notBackslash]

theorem EmptyKey.entry_effects {text : List Char} {next : ConfigScan} (empty : EmptyKey scan)
    (closed : Closed '\n' text) (notEmpty : text ≠ [])
    (entered : scan.entry (nextEntry before text).entry = .ok next) :
    (textEffects (nextEntry before text).before (nextEntry before text).rest).foldl
        KeyEffect.after next.v.isSome =
      (textEffects before text).foldl KeyEffect.after scan.v.isSome := by
  obtain ⟨line, rest, rfl, whole, -⟩ := exists_line closed notEmpty
  rw [textEffects_line whole]
  cases lineCase whole with
  | blank line blank =>
    rw [nextEntry_blank blank (endsLine_newline _)] at entered ⊢
    dsimp only at entered ⊢
    rw [← Except.ok.inj entered, keyEffect_blank blank, textEffects_of_plain (by decide)]
    rfl
  | comment blanks line blank restWhole =>
    rw [nextEntry_comment blank restWhole (endsLine_newline _)] at entered ⊢
    dsimp only at entered ⊢
    rw [← Except.ok.inj entered, keyEffect_comment blank, textEffects_of_plain (by decide)]
    rfl
  | close blanks line blank restWhole =>
    rw [append_assoc, cons_append, nextEntry_close blank] at entered ⊢
    dsimp only at entered ⊢
    rw [entry_close] at entered
    obtain ⟨comp, -, rfl⟩ := ranTo_eq_ok entered
    rw [keyEffect_close blank]
    cases line with
    | nil =>
      rw [nil_append, head?_cons, tail_cons, textEffects_of_plain (by decide)]
      rfl
    | cons skipped line =>
      rw [mem_cons, not_or] at restWhole
      rw [cons_append, head?_cons, tail_cons, textEffects_line restWhole.2, foldl_cons, foldl_cons,
        keyEffect]
      simp only [Option.some.injEq]
      cases keyEffect (.front (decide (skipped = '\\'))) line <;> rfl
  | real blanks first line blank real restWhole =>
    rw [nextEntry_real blank real restWhole (endsLine_newline _)] at entered ⊢
    dsimp only at entered ⊢
    rw [keyEffect_real blank real, escaped_or blank, textEffects_of_plain (by decide), foldl_cons,
      ← empty.realLine real entered]
    rfl

theorem EmptyKey.text_effects {text : List Char} (empty : EmptyKey scan) (closed : Closed '\n' text)
    (parsed : parseText before text scan = .ok after) :
    after.v.isSome = (textEffects before text).foldl KeyEffect.after scan.v.isSome := by
  induction before, text using entries_induction generalizing scan with
  | nil before =>
    rw [← Except.ok.inj parsed]
    rfl
  | next before text notEmpty ih =>
    have closedRest := (nextEntry_closed before closed notEmpty).1
    rw [parseText_next notEmpty] at parsed
    cases entered : scan.entry (nextEntry before text).entry with
    | error fault =>
      rw [entered] at parsed
      cases parsed
    | ok next =>
      rw [entered] at parsed
      rw [ih (empty.entry entered) closedRest parsed]
      exact empty.entry_effects closed notEmpty entered

private theorem foldl_after (effects : List KeyEffect) :
    effects.foldl KeyEffect.after false = true ↔ lastEffect effects = .leaves := by
  induction effects using reverseRecOn with
  | nil => simp [lastEffect]
  | append_singleton effects effect ih =>
    rw [foldl_append, lastEffect, filter_append]
    cases effect with
    | keeps =>
      rw [show [KeyEffect.keeps].filter (· ≠ .keeps) = [] from rfl, append_nil]
      exact ih
    | clears | leaves => simp [KeyEffect.after]

private theorem leavesKey_iff {path front : List Char}
    (parsed : parseFile path (front ++ ['\n']) = .ok scan) :
    scan.v ≠ none ↔ LeavesKey (front ++ ['\n']) := by
  rw [parseFile] at parsed
  cases named : compoundName path with
  | error fault =>
    rw [named] at parsed
    cases parsed
  | ok name =>
    rw [named] at parsed
    have left := EmptyKey.text_effects (.inl rfl) (closed_append_separator front) parsed
    rw [textEffects_of_plain (Option.some_ne_none _).symm] at left
    rw [LeavesKey, ← foldl_after, ← Option.isSome_iff_ne_none, left]
    rfl

end Left

/-- The file is parsed as the join of its parts. -/
def ParsedInParts (path first second : List Char) : Prop :=
  (parseFile path (first ++ second)).map (fun scan => scan.comp.whole) =
    (parseFile path first).bind fun scan =>
      (parseFile path second).map fun other => scan.comp.whole.join other.comp.whole

private theorem exists_compoundName {path text : List Char}
    (defined : parseFile path text ≠ .error .outside) : ∃ name, compoundName path = .ok name := by
  rw [compoundName]
  split
  · rename_i blank
    rw [parseFile, compoundName, if_pos blank] at defined
    exact absurd rfl defined
  · exact ⟨_, rfl⟩

theorem Lost.whole_ne {scan other : ConfigScan} (lost : Lost scan other) (front : ConfigComp) :
    front.join scan.comp.whole ≠ front.join other.comp.whole := by
  intro same
  simp only [Tree.join, Tree.node.injEq, append_cancel_left_eq, true_and] at same
  have count := lost.count
  rw [ConfigScan.varCount, ConfigScan.varCount,
    ← (Cursor.collect_whole _ scan.comp).length_eq,
    ← (Cursor.collect_whole _ other.comp).length_eq] at count
  revert same count
  obtain ⟨name, items, nest⟩ := scan.comp.whole
  obtain ⟨otherName, otherItems, otherNest⟩ := other.comp.whole
  rintro ⟨rfl, rfl⟩ count
  exact Nat.lt_irrefl _ count

theorem Both.whole_ne {result : Except ConfigFault ConfigScan} {other : ConfigScan}
    (both : Both Lost result (.ok other)) (front : ConfigComp) :
    result.map (fun scan => front.join scan.comp.whole) ≠ .ok (front.join other.comp.whole) := by
  cases both with
  | ok lost => exact fun same => lost.whole_ne front (Except.ok.inj same)

private theorem map_whole_onto (front : ConfigComp) (result : Except ConfigFault ConfigScan) :
    (result.map (ConfigScan.onto front)).map (fun scan => scan.comp.whole) =
      result.map fun scan => front.join scan.comp.whole := by
  cases result with
  | error fault => rfl
  | ok scan => exact congrArg Except.ok (Cursor.whole_onto front scan.comp)

private theorem parsedInParts_iff_key {path first second : List Char}
    (ends : ∃ front, first = front ++ ['\n'])
    (closes : ∀ scan, parseFile path first = .ok scan → scan.comp.parents = [])
    (defined : parseFile path second ≠ .error .outside) :
    ParsedInParts path first second ↔
      ∀ scan other, parseFile path first = .ok scan → parseFile path second = .ok other →
        scan.v ≠ none → variableFirst (lines '\n' second) = false := by
  obtain ⟨front, rfl⟩ := ends
  obtain ⟨name, isName⟩ := exists_compoundName defined
  obtain ⟨behind, isBehind, appended⟩ := parseText_append none (closed_append_separator front)
    (append_ne_nil_of_right_ne_nil front (cons_ne_nil '\n' []))
  have parsed : ∀ text, parseFile path text =
      parseText none text ⟨none, ⟨.node name [] [], []⟩⟩ := by
    intro text
    rw [parseFile, isName]
    rfl
  rw [parsed] at defined
  rw [ParsedInParts, parsed, parsed, parsed, appended]
  cases parsedFirst : parseText none (front ++ ['\n']) ⟨none, ⟨.node name [] [], []⟩⟩ with
  | error fault => exact ⟨fun _ scan other isScan => (by cases isScan), fun _ => rfl⟩
  | ok scan =>
    have top := closes scan (by rw [parsed, parsedFirst])
    have key : EmptyKey scan := parseText_keeps EmptyKey.entry (.inl rfl) parsedFirst
    obtain ⟨v, current, parents⟩ := scan
    obtain rfl : parents = [] := top
    have readSecond : parseText behind second ⟨v, ⟨current, []⟩⟩ =
        (parseText behind second ⟨v, ⟨.node name [] [], []⟩⟩).map (ConfigScan.onto current) := by
      rw [← parseText_onto, ConfigScan.onto, Cursor.onto, Tree.join_empty]
    rw [Except.bind, Except.bind, readSecond, map_whole_onto]
    rcases key with rfl | rfl
    · rw [parseText_before defined]
      refine ⟨fun _ scan other isScan _ left => absurd ?_ left, fun _ => rfl⟩
      rw [← Except.ok.inj isScan]
    · have plain : (none : Option Char) ≠ some '\\' := (Option.some_ne_none _).symm
      obtain ⟨reads, loses⟩ := parseText_leftOver plain isBehind defined
      cases isFirst : variableFirst (lines '\n' second) with
      | false =>
        refine ⟨fun _ _ _ _ _ _ => rfl, fun _ => ?_⟩
        apply (reads isFirst).map_eq
        intro scan other same
        rw [same]
      | true =>
        have both := loses isFirst
        cases parsedSecond : parseText none second ⟨none, ⟨.node name [] [], []⟩⟩ with
        | error fault =>
          rw [parsedSecond] at both
          rw [both.eq_error]
          exact ⟨fun _ scan other _ isOther => (by cases isOther), fun _ => rfl⟩
        | ok other =>
          rw [parsedSecond] at both
          refine ⟨fun same => absurd same (both.whole_ne current), fun never => ?_⟩
          exact absurd (never _ other rfl rfl (Option.some_ne_none _)) (by decide)

/-- A file of two parts, of which the first ends with a newline and closes the
compounds it opens, is parsed as the parts unless the last line of the first that
is neither a comment nor a variable is a lone `;`, and the second begins with a
variable. -/
theorem parsedInParts_iff {path first second : List Char}
    (ends : ∃ front, first = front ++ ['\n'])
    (closes : ∀ scan, parseFile path first = .ok scan → scan.comp.parents = [])
    (defined : parseFile path second ≠ .error .outside) :
    (∀ fault, parseFile path first = .error fault ∨ parseFile path second = .error fault →
        ParsedInParts path first second) ∧
      ∀ scan other, parseFile path first = .ok scan → parseFile path second = .ok other →
        (ParsedInParts path first second ↔
          ¬ (LeavesKey first ∧ variableFirst (lines '\n' second) = true)) := by
  have byKey := parsedInParts_iff_key ends closes defined
  constructor
  · intro fault failed
    refine byKey.mpr fun scan other isScan isOther => ?_
    rcases failed with failed | failed
    · rw [failed] at isScan
      cases isScan
    · rw [failed] at isOther
      cases isOther
  · intro scan other isScan isOther
    obtain ⟨front, rfl⟩ := ends
    rw [byKey, ← leavesKey_iff isScan, not_and, Bool.not_eq_true]
    constructor
    · intro never left
      exact never scan other isScan isOther left
    · intro never other _ isOther _ left
      rw [← Except.ok.inj (isScan.symm.trans isOther)] at left
      exact never left

def loneSemicolon : List Char := "a = 1;\n;\n".toList

private theorem parseFile_loneSemicolon :
    parseFile ['f'] loneSemicolon =
      .ok ⟨some ⟨[], none⟩, ⟨.node ['f'] [⟨['a'], some ['1']⟩] [], []⟩⟩ := rfl

theorem parsedInParts_compound :
    ParsedInParts ['f'] loneSemicolon "# b = 2;\nc \x7b\nd = 3\n\x7d\n".toList := by
  have ends : ∃ front, loneSemicolon = front ++ ['\n'] := ⟨"a = 1;\n;".toList, rfl⟩
  have parsed : parseFile ['f'] "# b = 2;\nc \x7b\nd = 3\n\x7d\n".toList =
      .ok ⟨none, ⟨.node ['f'] [] [.node ['c'] [⟨['d'], some ['3']⟩] []], []⟩⟩ := rfl
  refine ((parsedInParts_iff ends ?_ ?_).2 _ _ parseFile_loneSemicolon parsed).mpr (by decide)
  · intro scan isScan
    rw [parseFile_loneSemicolon] at isScan
    rw [← Except.ok.inj isScan]
  · rw [parsed]
    exact nofun

theorem not_parsedInParts :
    parseFile ['f'] loneSemicolon =
      .ok ⟨some ⟨[], none⟩, ⟨.node ['f'] [⟨['a'], some ['1']⟩] [], []⟩⟩ ∧
    parseFile ['f'] "b = 2;\n".toList = .ok ⟨none, ⟨.node ['f'] [⟨['b'], some ['2']⟩] [], []⟩⟩ ∧
    parseFile ['f'] (loneSemicolon ++ "b = 2;\n".toList) =
      .ok ⟨some ⟨[], none⟩, ⟨.node ['f'] [⟨['a'], some ['1']⟩] [], []⟩⟩ ∧
    ¬ParsedInParts ['f'] loneSemicolon "b = 2;\n".toList := by
  refine ⟨rfl, rfl, rfl, fun same => ?_⟩
  have items := congrArg (fun result => result.toOption.map fun tree => tree.items.length) same
  exact absurd items (by decide)

end MonitorMerlin
