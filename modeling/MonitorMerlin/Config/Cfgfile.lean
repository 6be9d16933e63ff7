import MonitorMerlin.Library.Lines
import MonitorMerlin.Library.Nesting
import MonitorMerlin.Library.Trim

/-! # Configuration files -/

namespace MonitorMerlin

open Lines List Nesting Trim

/-- `ISSPACE` of `cfgfile.c`. -/
def isCfgSpace (char : Char) : Bool := char == ' ' || char == '\t' || char == '\r'

/-- `struct cfg_var`. -/
structure ConfigVar where
  key : List Char
  value : Option (List Char)
  deriving DecidableEq, Repr

/-- `struct cfg_comp`. -/
abbrev ConfigComp := Tree (List Char) ConfigVar

abbrev ConfigEvent := Event (List Char) ConfigVar

inductive ConfigFault where
  | outside
  | neverOpened
  | unclosed
  deriving DecidableEq, Repr

structure ConfigScan where
  v : Option ConfigVar
  comp : Cursor (List Char) ConfigVar

def compoundName (name : List Char) : Except ConfigFault (List Char) :=
  if name.rdropWhile isCfgSpace = [] then
    .error .outside
  else
    .ok (name.rdropWhile isCfgSpace)

namespace ConfigScan

/-- `start_compound`. -/
def startCompound (scan : ConfigScan) (name : List Char) : Except ConfigFault ConfigScan :=
  (compoundName name).map fun stored => ⟨none, scan.comp.start stored⟩

/-- `close_compound`. -/
def closeCompound (scan : ConfigScan) : Except ConfigFault ConfigScan :=
  match scan.comp.close with
  | none => .error .neverOpened
  | some comp => .ok ⟨none, comp⟩

/-- `add_var`; blanks behind the value are cut. -/
def addVar (scan : ConfigScan) (v : ConfigVar) : ConfigScan :=
  ⟨none, scan.comp.addItem ⟨v.key, v.value.map (List.rdropWhile isCfgSpace)⟩⟩

end ConfigScan

def endsKey (char : Char) : Bool := isCfgSpace char || char == '='

/-- Cut a line with `strchrnul`. -/
def splitVar : List Char → ConfigVar
  | [] => ⟨[], none⟩
  | first :: line =>
    let value := (line.dropWhile fun char => !endsKey char).dropWhile endsKey
    ⟨first :: line.takeWhile fun char => !endsKey char, if value = [] then none else some value⟩

def stripSemicolon (before : Option Char) (line : List Char) : Except ConfigFault (List Char) :=
  if line.getLast? = some ';' then
    match line.dropLast.getLast?.or before with
    | none => .error .outside
    | some char => .ok (if char = '\\' then line else line.dropLast.rdropWhile isCfgSpace)
  else
    .ok line

namespace ConfigScan

def keepVar (scan : ConfigScan) (line : List Char) : ConfigScan :=
  let v := scan.v.getD (splitVar line)
  if v.key = [] then { scan with v := some v } else scan.addVar v

def realLine (scan : ConfigScan) (before : Option Char) (line : List Char) :
    Except ConfigFault ConfigScan :=
  let line := line.rdropWhile isCfgSpace
  if line.getLast? = some '{' then
    scan.startCompound (line.dropLast.rdropWhile isCfgSpace)
  else
    (stripSemicolon before line).map scan.keepVar

end ConfigScan

inductive ConfigEntry where
  | empty
  | comment
  | close
  | real (before : Option Char) (line : List Char)
  deriving DecidableEq, Repr

structure ConfigNext where
  entry : ConfigEntry
  before : Option Char
  rest : List Char
  deriving DecidableEq, Repr

def afterLine (text : List Char) : List Char := (text.dropWhile fun char => char != '\n').tail

def nextEntry (before : Option Char) (text : List Char) : ConfigNext :=
  match text.dropWhile isCfgSpace with
  | [] => ⟨.empty, some '\n', []⟩
  | char :: rest =>
    if char = '\n' then
      ⟨.empty, some '\n', rest⟩
    else if char = '#' then
      ⟨.comment, some '\n', afterLine rest⟩
    else if char = '}' then
      ⟨.close, rest.head?, rest.tail⟩
    else
      ⟨.real ((text.takeWhile isCfgSpace).getLast?.or before)
          (char :: rest.takeWhile fun next => next != '\n'),
        some '\x00', afterLine rest⟩

namespace ConfigScan

def entry (scan : ConfigScan) : ConfigEntry → Except ConfigFault ConfigScan
  | .empty => .ok ⟨none, scan.comp⟩
  | .comment => .ok scan
  | .close => scan.closeCompound
  | .real before line => scan.realLine before line

end ConfigScan

def parseLoop : (fuel : Nat) → Option Char → List Char → ConfigScan →
    Except ConfigFault ConfigScan
  | 0, _, _, scan => .ok scan
  | fuel + 1, before, text, scan =>
    if text = [] then
      .ok scan
    else
      let next := nextEntry before text
      (scan.entry next.entry).bind (parseLoop fuel next.before next.rest)

def parseText (before : Option Char) (text : List Char) (scan : ConfigScan) :
    Except ConfigFault ConfigScan :=
  parseLoop text.length before text scan

/-- `parse_file`. -/
def parseFile (path text : List Char) : Except ConfigFault ConfigScan :=
  (compoundName path).bind fun name => parseText none text ⟨none, ⟨.node name [] [], []⟩⟩

/-- `cfg_parse_file`. -/
def cfgParseFile (path text : List Char) : Except ConfigFault ConfigComp :=
  (parseFile path text).bind fun scan =>
    if scan.comp.parents = [] then .ok scan.comp.current else .error .unclosed

variable {before : Option Char} {text : List Char} {scan : ConfigScan}

private theorem length_afterLine_le (text : List Char) : (afterLine text).length ≤ text.length := by
  have shorter := (dropWhile_suffix (l := text) fun char => char != '\n').length_le
  rw [afterLine, length_tail]
  omega

private theorem length_nextEntry (before : Option Char) (notEmpty : text ≠ []) :
    (nextEntry before text).rest.length < text.length := by
  have shorter := (dropWhile_suffix (l := text) isCfgSpace).length_le
  have somewhere := length_pos_iff.mpr notEmpty
  unfold nextEntry
  cases dropped : text.dropWhile isCfgSpace with
  | nil => exact somewhere
  | cons char rest =>
    rw [dropped, length_cons] at shorter
    have behind := length_afterLine_le rest
    dsimp only
    split_ifs
    · exact shorter
    · exact Nat.lt_of_le_of_lt behind shorter
    · rw [length_tail]
      omega
    · exact Nat.lt_of_le_of_lt behind shorter

private theorem parseLoop_fuel {fuel other : Nat} (enough : text.length ≤ fuel)
    (alsoEnough : text.length ≤ other) (before : Option Char) (scan : ConfigScan) :
    parseLoop fuel before text scan = parseLoop other before text scan := by
  induction fuel generalizing other before text scan with
  | zero =>
    obtain rfl := length_eq_zero_iff.mp (Nat.le_zero.mp enough)
    cases other with
    | zero | succ other => rfl
  | succ fuel ih =>
    by_cases empty : text = []
    · subst empty
      cases other with
      | zero | succ other => rfl
    · have shorter := length_nextEntry before empty
      cases other with
      | zero => omega
      | succ other =>
        rw [parseLoop, parseLoop, if_neg empty, if_neg empty]
        dsimp only
        congr 1
        funext after
        exact ih (by omega) (by omega) _ _

theorem parseText_next (notEmpty : text ≠ []) :
    parseText before text scan =
      (scan.entry (nextEntry before text).entry).bind
        (parseText (nextEntry before text).before (nextEntry before text).rest) := by
  obtain ⟨less, isLength⟩ := Nat.exists_eq_succ_of_ne_zero
    (Nat.ne_of_gt (length_pos_iff.mpr notEmpty))
  have shorter := length_nextEntry before notEmpty
  rw [parseText, isLength, parseLoop, if_neg notEmpty]
  dsimp only
  congr 1
  funext after
  exact parseLoop_fuel (by omega) (Nat.le_refl _) _ _

variable {line after : List Char}

def EndsLine (after : List Char) : Prop := ∀ char ∈ after.head?, char = '\n'

theorem endsLine_newline (rest : List Char) : EndsLine ('\n' :: rest) := by
  intro char isHead
  exact (Option.some.inj isHead).symm

private theorem takeWhile_line (whole : '\n' ∉ line) (ends : EndsLine after) :
    ((line ++ after).takeWhile fun char => char != '\n') = line := by
  rw [takeWhile_append_of_pos]
  · cases after with
    | nil => rw [takeWhile_nil, append_nil]
    | cons char after => rw [ends char rfl, takeWhile_cons_of_neg (by simp), append_nil]
  · intro char member
    simpa using fun same : char = '\n' => whole (same ▸ member)

private theorem afterLine_line (whole : '\n' ∉ line) (ends : EndsLine after) :
    afterLine (line ++ after) = after.tail := by
  rw [afterLine, dropWhile_append_of_pos]
  · cases after with
    | nil => rfl
    | cons char after => rw [ends char rfl, dropWhile_cons_of_neg (by simp)]
  · intro char member
    simpa using fun same : char = '\n' => whole (same ▸ member)

theorem nextEntry_blank (blank : Blank isCfgSpace line) (ends : EndsLine after) :
    nextEntry before (line ++ after) = ⟨.empty, some '\n', after.tail⟩ := by
  rw [nextEntry, blank.dropWhile_append]
  cases after with
  | nil => rfl
  | cons char after =>
    rw [ends char rfl]
    rfl

variable {blanks : List Char} {first : Char}

theorem nextEntry_comment (blank : Blank isCfgSpace blanks)
    (whole : '\n' ∉ line) (ends : EndsLine after) :
    nextEntry before (blanks ++ '#' :: line ++ after) = ⟨.comment, some '\n', after.tail⟩ := by
  rw [nextEntry, append_assoc, blank.dropWhile_append, cons_append,
    dropWhile_cons_of_neg (by decide)]
  dsimp only
  rw [if_neg (by decide), if_pos rfl, afterLine_line whole ends]

theorem nextEntry_close (blank : Blank isCfgSpace blanks) (text : List Char) :
    nextEntry before (blanks ++ '}' :: text) = ⟨.close, text.head?, text.tail⟩ := by
  rw [nextEntry, blank.dropWhile_append, dropWhile_cons_of_neg (by decide)]
  rfl

def StartsReal (char : Char) : Prop :=
  isCfgSpace char = false ∧ char ≠ '\n' ∧ char ≠ '#' ∧ char ≠ '}'

theorem nextEntry_real (blank : Blank isCfgSpace blanks)
    (real : StartsReal first) (whole : '\n' ∉ line) (ends : EndsLine after) :
    nextEntry before (blanks ++ first :: line ++ after) =
      ⟨.real (blanks.getLast?.or before) (first :: line), some '\x00', after.tail⟩ := by
  have notSpace : ¬isCfgSpace first = true := by
    rw [real.1]
    exact Bool.false_ne_true
  have front : (blanks ++ (first :: line ++ after)).takeWhile isCfgSpace = blanks := by
    rw [takeWhile_append_of_pos blank, cons_append, takeWhile_cons_of_neg notSpace, append_nil]
  rw [append_assoc, nextEntry, front, blank.dropWhile_append, cons_append,
    dropWhile_cons_of_neg notSpace]
  dsimp only
  rw [if_neg real.2.1, if_neg real.2.2.1, if_neg real.2.2.2, takeWhile_line whole ends,
    afterLine_line whole ends]

inductive LineCase : List Char → Prop where
  | blank (line : List Char) (blank : Blank isCfgSpace line) : LineCase line
  | comment (blanks line : List Char) (blank : Blank isCfgSpace blanks)
      (whole : '\n' ∉ line) : LineCase (blanks ++ '#' :: line)
  | close (blanks line : List Char) (blank : Blank isCfgSpace blanks)
      (whole : '\n' ∉ line) : LineCase (blanks ++ '}' :: line)
  | real (blanks : List Char) (first : Char) (line : List Char)
      (blank : Blank isCfgSpace blanks) (real : StartsReal first)
      (whole : '\n' ∉ line) : LineCase (blanks ++ first :: line)

theorem lineCase (whole : '\n' ∉ line) : LineCase line := by
  have parts := takeWhile_append_dropWhile (p := isCfgSpace) (l := line)
  have blank : Blank isCfgSpace (line.takeWhile isCfgSpace) :=
    fun char member => mem_takeWhile_imp member
  cases dropped : line.dropWhile isCfgSpace with
  | nil =>
    rw [dropped, append_nil] at parts
    rw [parts] at blank
    exact .blank line blank
  | cons first rest =>
    have notSpace := head?_dropWhile_not isCfgSpace line
    rw [dropped] at parts notSpace
    rw [← parts, mem_append, mem_cons, not_or, not_or] at whole
    rw [← parts]
    by_cases comment : first = '#'
    · rw [comment]
      exact .comment _ rest blank whole.2.2
    · by_cases close : first = '}'
      · rw [close]
        exact .close _ rest blank whole.2.2
      · exact .real _ first rest blank ⟨notSpace, Ne.symm whole.2.1, comment, close⟩ whole.2.2

def BehindLine (before : Option Char) : Prop := before = some '\n' ∨ before = some '\x00'

theorem nextEntry_cases (before : Option Char) (whole : '\n' ∉ line) :
    (∃ entry behind, BehindLine behind ∧ ∀ after, EndsLine after →
      nextEntry before (line ++ after) = ⟨entry, behind, after.tail⟩) ∨
    ∃ blanks rest, Blank isCfgSpace blanks ∧ '\n' ∉ rest ∧ line = blanks ++ '}' :: rest := by
  cases lineCase whole with
  | blank line blank => exact .inl ⟨_, _, .inl rfl, fun _ => nextEntry_blank blank⟩
  | comment blanks line blank restWhole =>
    exact .inl ⟨_, _, .inl rfl, fun _ => nextEntry_comment blank restWhole⟩
  | close blanks line blank restWhole => exact .inr ⟨blanks, line, blank, restWhole, rfl⟩
  | real blanks first line blank real restWhole =>
    exact .inl ⟨_, _, .inr rfl, fun _ => nextEntry_real blank real restWhole⟩

theorem exists_frontLine {text : List Char} (notEmpty : text ≠ []) :
    ∃ line after, text = line ++ after ∧ '\n' ∉ line ∧ EndsLine after ∧
      lines '\n' text = line :: lines '\n' after.tail := by
  by_cases newline : '\n' ∈ text
  · obtain ⟨line, rest, rfl, whole⟩ := eq_append_cons_of_mem newline
    exact ⟨line, '\n' :: rest, rfl, whole, endsLine_newline rest, lines_line whole rest⟩
  · exact ⟨text, [], (append_nil text).symm, newline, nofun, lines_single notEmpty newline⟩

theorem exists_line (closed : Closed '\n' text) (notEmpty : text ≠ []) :
    ∃ line rest, text = line ++ '\n' :: rest ∧ '\n' ∉ line ∧ Closed '\n' rest := by
  obtain ⟨front, rfl⟩ := closed.eq_append notEmpty
  obtain ⟨line, rest, isText, whole⟩ :=
    eq_append_cons_of_mem (mem_append_right front (mem_singleton_self '\n'))
  refine ⟨line, rest, isText, whole, ?_⟩
  rw [isText, append_cons] at closed
  exact closed.of_append

theorem nextEntry_append (closed : Closed '\n' text) (notEmpty : text ≠ []) (more : List Char) :
    nextEntry before (text ++ more) =
      ⟨(nextEntry before text).entry, (nextEntry before text).before,
        (nextEntry before text).rest ++ more⟩ := by
  obtain ⟨line, rest, rfl, whole, -⟩ := exists_line closed notEmpty
  rw [append_assoc, cons_append]
  rcases nextEntry_cases before whole with ⟨entry, behind, -, next⟩ | ⟨blanks, line, blank, -, rfl⟩
  · rw [next _ (endsLine_newline _), next _ (endsLine_newline _)]
    rfl
  · rw [append_assoc, append_assoc, cons_append, cons_append,
      nextEntry_close blank, nextEntry_close blank]
    cases line with
    | nil => rfl
    | cons char line => simp

theorem nextEntry_closed (before : Option Char) (closed : Closed '\n' text) (notEmpty : text ≠ []) :
    Closed '\n' (nextEntry before text).rest ∧
      ((nextEntry before text).rest = [] → BehindLine (nextEntry before text).before) := by
  obtain ⟨line, rest, rfl, whole, closedRest⟩ := exists_line closed notEmpty
  rcases nextEntry_cases before whole with
    ⟨entry, behind, isBehind, next⟩ | ⟨blanks, line, blank, -, rfl⟩
  · rw [next _ (endsLine_newline _)]
    exact ⟨closedRest, fun _ => isBehind⟩
  · rw [append_assoc, cons_append, nextEntry_close blank]
    cases line with
    | nil => exact ⟨closedRest, fun _ => .inl rfl⟩
    | cons char line =>
      rw [cons_append, tail_cons]
      refine ⟨?_, fun empty => absurd empty (by simp)⟩
      rw [append_assoc] at closed
      exact closed.of_append.tail.tail

theorem entries_induction {motive : Option Char → List Char → Prop}
    (nil : ∀ before, motive before [])
    (next : ∀ before text, text ≠ [] →
      motive (nextEntry before text).before (nextEntry before text).rest → motive before text)
    (before : Option Char) (text : List Char) : motive before text := by
  induction isLength : text.length using Nat.strong_induction_on generalizing before text with
  | _ length ih =>
    by_cases empty : text = []
    · rw [empty]
      exact nil before
    · exact next before text empty (ih _ (isLength ▸ length_nextEntry before empty) _ _ rfl)

theorem parseText_append (before : Option Char) (closed : Closed '\n' text) (notEmpty : text ≠ []) :
    ∃ behind, BehindLine behind ∧ ∀ more scan,
      parseText before (text ++ more) scan =
        (parseText before text scan).bind (parseText behind more) := by
  induction before, text using entries_induction with
  | nil before => exact absurd rfl notEmpty
  | next before text notEmpty ih =>
    obtain ⟨closedRest, behindRest⟩ := nextEntry_closed before closed notEmpty
    have unfolded : ∀ more scan, parseText before (text ++ more) scan =
        (scan.entry (nextEntry before text).entry).bind
          (parseText (nextEntry before text).before ((nextEntry before text).rest ++ more)) := by
      intro more scan
      rw [parseText_next (append_ne_nil_of_left_ne_nil notEmpty more),
        nextEntry_append closed notEmpty]
    by_cases empty : (nextEntry before text).rest = []
    · refine ⟨_, behindRest empty, fun more scan => ?_⟩
      rw [unfolded, parseText_next notEmpty, empty, nil_append]
      cases scan.entry (nextEntry before text).entry with
      | error fault | ok next => rfl
    · obtain ⟨behind, isBehind, appended⟩ := ih closedRest empty
      refine ⟨behind, isBehind, fun more scan => ?_⟩
      rw [unfolded, parseText_next notEmpty]
      cases scan.entry (nextEntry before text).entry with
      | error fault => rfl
      | ok next => exact appended more next

end MonitorMerlin
