import MonitorMerlin.Config.CompoundConfig
import MonitorMerlin.Config.Runs

/-! # The lines of a configuration file -/

namespace MonitorMerlin

open Lines List Nesting Trim

/-- `isspace`. -/
def isWhite (char : Char) : Bool := char == ' ' || 9 ≤ char.toNat && char.toNat ≤ 13

/-- The lines of the grammar. -/
inductive ConfLine : List Char → Prop where
  | blank : ConfLine []
  | comment (text : List Char) : ConfLine ('#' :: text)
  | close : ConfLine ['}']
  | start (name blanks : List Char) (notEmpty : name ≠ []) (blank : Blank isCfgSpace blanks) :
      ConfLine (name ++ blanks ++ ['{'])
  | var (key left right value : List Char)
      (oneWord : ∀ char ∈ key, isWhite char = false ∧ char ≠ '=')
      (blankLeft : Blank isCfgSpace left) (blankRight : Blank isCfgSpace right)
      (notEmpty : value ≠ []) (starts : StartsFull endsKey value) :
      ConfLine (key ++ (left ++ '=' :: right) ++ value)

inductive LineKind where
  | silent
  | start
  | close
  | var
  deriving DecidableEq, Repr

def lineKind (line : List Char) : LineKind :=
  if isSilent line then
    .silent
  else if line = ['}'] then
    .close
  else if line.getLast? = some '{' then
    .start
  else
    .var

def balancedFrom : (depth : Nat) → List (List Char) → Bool
  | depth, [] => depth == 0
  | depth, line :: lines =>
    match lineKind line with
    | .silent => balancedFrom depth lines
    | .start => balancedFrom (depth + 1) lines
    | .close => 0 < depth && balancedFrom (depth - 1) lines
    | .var => balancedFrom depth lines

/-- ASCII text with lines of the grammar and balanced braces. -/
structure MerlinConf (text : List Char) : Prop where
  ascii : ∀ char ∈ text, char.toNat < 128 ∧ char ≠ '\x00'
  grammar : ∀ line ∈ lines '\n' text, ConfLine (trim isCfgSpace line)
  balanced : balancedFrom 0 ((lines '\n' text).map (trim isCfgSpace)) = true

def withoutSemicolon (line : List Char) : List Char :=
  if line.getLast? = some ';' ∧ line.dropLast.getLast? ≠ some '\\' then
    line.dropLast.rdropWhile isCfgSpace
  else
    line

def lineEvents (line : List Char) : List ConfigEvent :=
  match lineKind line with
  | .silent => []
  | .start => [.start (line.dropLast.rdropWhile isCfgSpace)]
  | .close => [.close]
  | .var => [.item (lineVar (withoutSemicolon line))]

def ClosesAlone (line : List Char) : Prop := line.head? = some '}' → line = ['}']

section Lines

variable {line text : List Char} {before : Option Char} {first : Char}

private theorem stripSemicolon_eq (notLone : line ≠ [';']) :
    stripSemicolon before line = .ok (withoutSemicolon line) := by
  by_cases semicolon : line.getLast? = some ';'
  · obtain ⟨front, rfl⟩ := getLast?_eq_some_iff.mp semicolon
    rcases eq_nil_or_concat' front with rfl | ⟨front, last, rfl⟩
    · exact absurd rfl notLone
    · rw [stripSemicolon_concat, withoutSemicolon, dropLast_concat, getLast?_concat,
        getLast?_concat]
      by_cases backslash : last = '\\'
      · rw [if_pos backslash, if_neg fun both => both.2 (congrArg some backslash)]
      · rw [if_neg backslash, if_pos ⟨rfl, fun same => backslash (Option.some.inj same)⟩]
  · rw [stripSemicolon_other semicolon, withoutSemicolon, if_neg fun both => semicolon both.1]

theorem ConfLine.ne_singleton (conf : ConfLine line)
    (plain : first ≠ '#' ∧ first ≠ '}' ∧ first ≠ '=') : line ≠ [first] := by
  rintro rfl
  generalize isSingle : [first] = single at conf
  cases conf with
  | blank => cases isSingle
  | comment text => exact plain.1 (head_eq_of_cons_eq isSingle)
  | close => exact plain.2.1 (head_eq_of_cons_eq isSingle)
  | start name blanks notEmpty blank =>
    have length := congrArg List.length isSingle
    have somewhere := length_pos_iff.mpr notEmpty
    simp only [length_append, length_singleton] at length
    omega
  | var key left right value oneWord blankLeft blankRight notEmpty starts =>
    have member : '=' ∈ [first] := by
      rw [isSingle]
      simp
    exact plain.2.2 (mem_singleton.mp member).symm

theorem of_lineKind_silent (kind : lineKind line = .silent) : isSilent line = true := by
  rw [lineKind] at kind
  split_ifs at kind with silent
  exact silent

theorem of_lineKind_close (kind : lineKind line = .close) : line = ['}'] := by
  rw [lineKind] at kind
  split_ifs at kind with silent close
  exact close

theorem of_lineKind_start (kind : lineKind line = .start) :
    isSilent line = false ∧ line ≠ ['}'] ∧ line.getLast? = some '{' := by
  rw [lineKind] at kind
  split_ifs at kind with silent close start
  exact ⟨Bool.eq_false_iff.mpr silent, close, start⟩

theorem of_lineKind_var (kind : lineKind line = .var) :
    isSilent line = false ∧ line ≠ ['}'] ∧ line.getLast? ≠ some '{' := by
  rw [lineKind] at kind
  split_ifs at kind with silent close start
  exact ⟨Bool.eq_false_iff.mpr silent, close, start⟩

theorem closesAlone_of_silent (silent : isSilent line = true) : ClosesAlone line := by
  intro isClose
  rw [isSilent, decide_eq_true_iff, isClose] at silent
  rcases silent with rfl | comment
  · cases isClose
  · exact absurd (Option.some.inj comment) (by decide)

private theorem lineKind_real (real : StartsReal first) :
    lineKind (first :: text) = if (first :: text).getLast? = some '{' then .start else .var := by
  rw [lineKind, isSilent, if_neg, if_neg]
  · exact fun same => real.2.2.2 (head_eq_of_cons_eq same)
  · simpa using real.2.2.1

private theorem realLine_lineEvents (real : StartsReal first)
    (isText : (first :: line).rdropWhile isCfgSpace = first :: text)
    (conf : ConfLine (first :: text)) (before : Option Char) (comp : Cursor (List Char) ConfigVar) :
    ConfigScan.realLine ⟨none, comp⟩ before (first :: line) =
      ranTo (comp.run (lineEvents (first :: text))) := by
  rw [lineEvents, lineKind_real real]
  by_cases starts : (first :: text).getLast? = some '{'
  · rw [if_pos starts]
    obtain ⟨front, isFront⟩ := getLast?_eq_some_iff.mp starts
    have notEmpty : front ≠ [] := by
      rintro rfl
      exact conf.ne_singleton (by decide : '{' ≠ '#' ∧ _) isFront
    have member := head_mem_of_eq_append isFront notEmpty
    rw [isFront] at isText ⊢
    dsimp only
    rw [dropLast_concat]
    exact realLine_start isText rfl (rdropWhile_ne_nil member real.1)
  · rw [if_neg starts]
    have notLone : first :: text ≠ [';'] := conf.ne_singleton (by decide)
    apply realLine_var comp
    · rwa [isText]
    · rw [isText]
      exact stripSemicolon_eq notLone
    · rw [withoutSemicolon]
      split
      · rename_i semicolon
        obtain ⟨front, isFront⟩ := getLast?_eq_some_iff.mp semicolon.1
        have notEmpty : front ≠ [] := by
          rintro rfl
          exact notLone isFront
        have member := head_mem_of_eq_append isFront notEmpty
        rw [isFront, dropLast_concat]
        exact rdropWhile_ne_nil member real.1
      · exact cons_ne_nil _ _

private theorem reads_lineEvents (whole : '\n' ∉ line) (conf : ConfLine (trim isCfgSpace line))
    (alone : ClosesAlone (trim isCfgSpace line)) :
    Reads line (lineEvents (trim isCfgSpace line)) := by
  cases lineCase whole with
  | blank line blank =>
    rw [trim_blank blank]
    exact reads_blank blank
  | comment blanks line blank restWhole =>
    rw [trim_line blank rfl]
    exact reads_comment blank restWhole
  | close blanks line blank restWhole =>
    rw [trim_line blank rfl] at alone ⊢
    have isClose := alone rfl
    rw [isClose]
    exact reads_close blank (rdropWhile_eq_nil_iff.mp (tail_eq_of_cons_eq isClose))
  | real blanks first line blank real restWhole =>
    rw [trim_line blank real.1] at conf ⊢
    exact reads_real blank real restWhole
      (realLine_lineEvents real (rdropWhile_cons_of_neg real.1 line) conf)

end Lines

section Files

variable {texts : List (List Char)}

private theorem run_balanced {depth : Nat} (comp : Cursor (List Char) ConfigVar)
    (balanced : balancedFrom depth texts = true) (isDepth : comp.parents.length = depth) :
    ∃ current, comp.run (texts.flatMap lineEvents) = some ⟨current, []⟩ := by
  induction texts generalizing depth comp with
  | nil =>
    rw [balancedFrom, beq_iff_eq] at balanced
    obtain ⟨current, parents⟩ := comp
    obtain rfl := length_eq_zero_iff.mp (isDepth.trans balanced)
    exact ⟨current, rfl⟩
  | cons line texts ih =>
    rw [balancedFrom] at balanced
    rw [flatMap_cons, Cursor.run_append, lineEvents]
    cases kind : lineKind line with
    | silent =>
      rw [kind] at balanced
      exact ih _ balanced isDepth
    | start =>
      rw [kind] at balanced
      exact ih _ balanced (congrArg Nat.succ isDepth)
    | close =>
      rw [kind] at balanced
      rw [Bool.and_eq_true, decide_eq_true_iff] at balanced
      obtain ⟨current, parents⟩ := comp
      cases parents with
      | nil =>
        rw [← isDepth] at balanced
        exact absurd balanced.1 (Nat.lt_irrefl 0)
      | cons parent parents =>
        rw [← isDepth] at balanced
        exact ih _ balanced.2 rfl
    | var =>
      rw [kind] at balanced
      exact ih _ balanced isDepth

end Files

def ConfigScan.depth (scan : ConfigScan) : Nat := scan.comp.parents.length

section Depth

variable {line : List Char} {before : Option Char} {scan after : ConfigScan}

private theorem keepVar_depth (scan : ConfigScan) (line : List Char) :
    (scan.keepVar line).depth = scan.depth := by
  rw [ConfigScan.keepVar]
  split
  · rfl
  · rfl

private theorem realLine_depth (parsed : scan.realLine before line = .ok after) :
    after.depth ≤ scan.depth +
      if (line.rdropWhile isCfgSpace).getLast? = some '{' then 1 else 0 := by
  split_ifs with starts
  · rcases realLine_cases before line with ⟨name, does⟩ | ⟨text, does⟩ | does
    · rw [does] at parsed
      rw [← Except.ok.inj parsed]
      exact Nat.le_refl _
    · rw [does] at parsed
      rw [← Except.ok.inj parsed, keepVar_depth]
      exact Nat.le_succ _
    · rw [does] at parsed
      cases parsed
  · rw [ConfigScan.realLine, if_neg starts] at parsed
    cases stripped : stripSemicolon before (line.rdropWhile isCfgSpace) with
    | error fault =>
      rw [stripped] at parsed
      cases parsed
    | ok text =>
      rw [stripped] at parsed
      rw [← Except.ok.inj parsed, keepVar_depth]
      exact Nat.le_refl _

private theorem getLast?_trim_append (front : List Char) {last : Char}
    (isLast : (trim isCfgSpace line).getLast? = some last) :
    ((front ++ line).rdropWhile isCfgSpace).getLast? = some last := by
  obtain ⟨lineFront, lineBack, isLine, -, blankBack⟩ := exists_trim isCfgSpace line
  have parts : front ++ line = front ++ lineFront ++ trim isCfgSpace line ++ lineBack := by
    rw [append_assoc front, append_assoc front, ← isLine]
  have ends : EndsFull isCfgSpace (front ++ lineFront ++ trim isCfgSpace line) := by
    intro char isChar
    rw [getLast?_append, isLast, Option.some_or] at isChar
    exact endsFull_trim isCfgSpace line char (isLast.trans isChar)
  rw [parts, blankBack.rdropWhile_append, ends.rdropWhile_eq, getLast?_append, isLast,
    Option.some_or]

private theorem run_close_depth {comp closed : Cursor (List Char) ConfigVar}
    (ran : comp.run [.close] = some closed) : closed.parents.length + 1 = comp.parents.length := by
  rw [Cursor.run_cons, Option.bind_eq_some_iff] at ran
  obtain ⟨next, isNext, isClosed⟩ := ran
  obtain ⟨parent, parents, isParents, rfl⟩ := Cursor.close_eq_some_iff.mp isNext
  rw [← Option.some.inj isClosed, isParents]
  rfl

private theorem parseText_depth (whole : '\n' ∉ line)
    (parsed : parseText before (line ++ ['\n']) scan = .ok after) :
    after.depth + (if (trim isCfgSpace line).head? = some '}' then 1 else 0) ≤
      scan.depth + if (trim isCfgSpace line).getLast? = some '{' then 1 else 0 := by
  induction isLength : line.length using Nat.strong_induction_on generalizing before line scan with
  | _ length ih =>
    cases lineCase whole with
    | blank line blank =>
      rw [parseText_blank blank] at parsed
      rw [trim_blank blank, ← Except.ok.inj parsed]
      exact Nat.le_refl _
    | comment blanks line blank restWhole =>
      rw [parseText_comment blank restWhole] at parsed
      rw [trim_line blank rfl, ← Except.ok.inj parsed, head?_cons, if_neg (by decide)]
      exact Nat.le_add_right _ _
    | close blanks line blank restWhole =>
      rw [parseText_close blank] at parsed
      rw [trim_line blank rfl, head?_cons, if_pos rfl, ← rdropWhile_cons_of_neg (rfl : _ = false)]
      cases ran : scan.comp.run [.close] with
      | none =>
        rw [ran] at parsed
        cases parsed
      | some closed =>
        rw [ran, ranTo, Except.bind] at parsed
        have shallower := run_close_depth ran
        cases line with
        | nil =>
          rw [if_pos rfl] at parsed
          rw [← Except.ok.inj parsed, ConfigScan.depth, ConfigScan.depth, shallower]
          exact Nat.le_add_right _ _
        | cons char line =>
          rw [if_neg (cons_ne_nil _ _)] at parsed
          have bound := ih line.length (by
            simp only [← isLength, length_append, length_cons]
            omega) (fun member => restWhole (mem_cons_of_mem _ member)) parsed rfl
          have ends : (if (trim isCfgSpace line).getLast? = some '{' then 1 else 0) ≤
              if (('}' :: char :: line).rdropWhile isCfgSpace).getLast? = some '{'
                then 1 else 0 := by
            split
            · rename_i isLast
              have wholeEnds : (('}' :: char :: line).rdropWhile isCfgSpace).getLast? =
                  some '{' := getLast?_trim_append ['}', char] isLast
              rw [if_pos wholeEnds]
            · exact Nat.zero_le _
          simp only [ConfigScan.depth] at bound shallower ⊢
          omega
    | real blanks first line blank real restWhole =>
      rw [parseText_real blank real restWhole] at parsed
      have bound := realLine_depth parsed
      rw [rdropWhile_cons_of_neg real.1] at bound
      rw [trim_line blank real.1, head?_cons,
        if_neg fun same => real.2.2.2 (Option.some.inj same)]
      exact bound

theorem parseText_silent (whole : '\n' ∉ line) (silent : isSilent (trim isCfgSpace line) = true)
    (parsed : parseText before (line ++ ['\n']) scan = .ok after) : after.depth = scan.depth := by
  cases lineCase whole with
  | blank line blank =>
    rw [parseText_blank blank] at parsed
    rw [← Except.ok.inj parsed]
    rfl
  | comment blanks line blank restWhole =>
    rw [parseText_comment blank restWhole] at parsed
    rw [Except.ok.inj parsed]
  | close blanks line blank restWhole =>
    rw [trim_line blank rfl] at silent
    cases silent
  | real blanks first line blank real restWhole =>
    rw [trim_line blank real.1, isSilent, decide_eq_true_iff] at silent
    rcases silent with empty | comment
    · cases empty
    · exact absurd (Option.some.inj comment) real.2.2.1

private theorem closesAlone_of_parsed {texts : List (List Char)} {depth lost : Nat}
    (whole : ∀ line ∈ texts, '\n' ∉ line)
    (balanced : balancedFrom depth (texts.map (trim isCfgSpace)) = true)
    (fits : scan.depth + lost ≤ depth)
    (parsed : parseText before (texts.flatMap fun line => line ++ ['\n']) scan = .ok after) :
    lost = 0 ∧ ∀ line ∈ texts, ClosesAlone (trim isCfgSpace line) := by
  induction texts generalizing before scan depth lost with
  | nil =>
    rw [map_nil, balancedFrom, beq_iff_eq] at balanced
    exact ⟨by omega, fun _ => nofun⟩
  | cons line texts ih =>
    obtain ⟨behind, -, appended⟩ := parseText_append before (closed_append_separator line)
      (append_ne_nil_of_right_ne_nil line (cons_ne_nil '\n' []))
    have lineWhole := whole line mem_cons_self
    rw [flatMap_cons, appended] at parsed
    rw [map_cons, balancedFrom] at balanced
    rw [forall_mem_cons]
    cases first : parseText before (line ++ ['\n']) scan with
    | error fault =>
      rw [first] at parsed
      cases parsed
    | ok next =>
      rw [first, Except.bind] at parsed
      have bound := parseText_depth lineWhole first
      have rest : ∀ {depth lost}, balancedFrom depth (texts.map (trim isCfgSpace)) = true →
          next.depth + lost ≤ depth →
          lost = 0 ∧ ∀ line ∈ texts, ClosesAlone (trim isCfgSpace line) :=
        fun balanced fits => ih
          (fun line member => whole line (mem_cons_of_mem _ member)) balanced fits parsed
      have unclosed : ∀ {depth}, balancedFrom depth (texts.map (trim isCfgSpace)) = true →
          next.depth + (if (trim isCfgSpace line).head? = some '}' then 1 else 0) + lost ≤ depth →
          lost = 0 ∧ ClosesAlone (trim isCfgSpace line) ∧
            ∀ line ∈ texts, ClosesAlone (trim isCfgSpace line) := by
        intro depth balanced fits
        split_ifs at fits with closes
        · exact absurd (rest balanced (by omega : next.depth + (lost + 1) ≤ depth)).1
            (Nat.succ_ne_zero lost)
        · obtain ⟨nothing, others⟩ := rest balanced fits
          exact ⟨nothing, fun isClose => absurd isClose closes, others⟩
      cases kind : lineKind (trim isCfgSpace line) with
      | silent =>
        rw [kind] at balanced
        have silent := of_lineKind_silent kind
        have same := parseText_silent lineWhole silent first
        obtain ⟨nothing, others⟩ := rest balanced (same ▸ fits)
        exact ⟨nothing, closesAlone_of_silent silent, others⟩
      | close =>
        rw [kind] at balanced
        rw [Bool.and_eq_true, decide_eq_true_iff] at balanced
        rw [of_lineKind_close kind] at bound ⊢
        have shallower : next.depth + 1 ≤ scan.depth := bound
        obtain ⟨nothing, others⟩ := rest balanced.2 (by omega : next.depth + lost ≤ depth - 1)
        exact ⟨nothing, fun _ => rfl, others⟩
      | start =>
        rw [kind] at balanced
        rw [if_pos (of_lineKind_start kind).2.2] at bound
        exact unclosed balanced (by omega)
      | var =>
        rw [kind] at balanced
        rw [if_neg (of_lineKind_var kind).2.2] at bound
        exact unclosed balanced (by omega)

end Depth

variable {path name text : List Char}

def textEvents (text : List Char) : List ConfigEvent :=
  ((lines '\n' text).map (trim isCfgSpace)).flatMap lineEvents

theorem cfgParseFile_conf (conf : MerlinConf text) (isName : compoundName path = .ok name)
    (alone : ∀ line ∈ lines '\n' text, ClosesAlone (trim isCfgSpace line)) :
    ∃ comp, (⟨.node name [] [], []⟩ : Cursor (List Char) ConfigVar).run (textEvents text) =
        some ⟨comp, []⟩ ∧ cfgParseFile path text = .ok comp := by
  obtain ⟨comp, ran⟩ := run_balanced ⟨.node name [] [], []⟩ conf.balanced rfl
  refine ⟨comp, ran, ?_⟩
  have reads : List.Forall₂ Reads (lines '\n' text)
      ((lines '\n' text).map fun line => lineEvents (trim isCfgSpace line)) := by
    rw [List.forall₂_map_right_iff, List.forall₂_same]
    exact fun line member => reads_lineEvents (notMem_of_mem_lines member)
      (conf.grammar line member) (alone line member)
  have parsed := parseText_lines reads none ⟨.node name [] [], []⟩
  rw [← parseText_eq_lines, ← flatMap_def, ← flatMap_map, ran] at parsed
  rw [cfgParseFile, parseFile, isName, Except.bind, parsed]
  rfl

theorem closesAlone_of_cfgParseFile {comp : ConfigComp} (conf : MerlinConf text)
    (parsed : cfgParseFile path text = .ok comp) :
    ∀ line ∈ lines '\n' text, ClosesAlone (trim isCfgSpace line) := by
  rw [cfgParseFile, parseFile] at parsed
  cases isName : compoundName path with
  | error fault =>
    rw [isName] at parsed
    cases parsed
  | ok name =>
    rw [isName, Except.bind, parseText_eq_lines] at parsed
    cases parsedLines : parseText none ((lines '\n' text).flatMap fun line => line ++ ['\n'])
        ⟨none, ⟨.node name [] [], []⟩⟩ with
    | error fault =>
      rw [parsedLines] at parsed
      cases parsed
    | ok after =>
      have fits : (⟨none, ⟨.node name [] [], []⟩⟩ : ConfigScan).depth + 0 ≤ 0 := Nat.le_refl 0
      exact (closesAlone_of_parsed (fun line member => notMem_of_mem_lines member)
        conf.balanced fits parsedLines).2

end MonitorMerlin
