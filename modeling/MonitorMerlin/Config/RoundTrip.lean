import Mathlib.Data.Bool.AllAny
import MonitorMerlin.Config.Reading

/-! # Printed configurations -/

namespace MonitorMerlin

open Lines List Nesting Trim

structure PrintableName (name : List Char) : Prop where
  notEmpty : name ≠ []
  oneLine : '\n' ∉ name
  noNul : '\x00' ∉ name
  starts : StartsFull isCfgSpace name
  ends : EndsFull isCfgSpace name
  unmarked : ∀ first ∈ name.head?, first ≠ '#' ∧ first ≠ '}'

structure PrintableKey (key : List Char) : Prop where
  notEmpty : key ≠ []
  oneWord : ∀ char ∈ key, isCfgSpace char = false ∧ char ≠ '\n' ∧ char ≠ '='
  noNul : '\x00' ∉ key
  unmarked : ∀ first ∈ key.head?, first ≠ '#' ∧ first ≠ '}'

structure PrintableValue (value : List Char) : Prop where
  notEmpty : value ≠ []
  oneLine : '\n' ∉ value
  noNul : '\x00' ∉ value
  starts : ∀ first ∈ value.head?, isCfgSpace first = false ∧ first ≠ '='
  ends : ∀ last ∈ value.getLast?, isCfgSpace last = false ∧ last ≠ '\\'

structure PrintableVar (v : ConfigVar) : Prop where
  key : PrintableKey v.key
  value : ∃ value, v.value = some value ∧ PrintableValue value

def printEvent : ConfigEvent → List Char
  | .start name => name ++ [' ', '{']
  | .item v => v.key ++ [' ', '=', ' '] ++ v.value.getD [] ++ [';']
  | .close => ['}']

/-- The lines of a tree, each with its indentation. -/
def printFile (indents : List (List Char)) (tree : ConfigComp) : List Char :=
  (List.zipWith (fun indent event => indent ++ printEvent event) indents tree.contents).flatMap
    fun line => line ++ ['\n']

section Lines

variable {indent name key value : List Char}

private theorem startsReal_of_unmarked {first : Char} (notSpace : isCfgSpace first = false)
    (oneLine : first ≠ '\n') (unmarked : first ≠ '#' ∧ first ≠ '}') : StartsReal first :=
  ⟨notSpace, oneLine, unmarked.1, unmarked.2⟩

private theorem reads_start (blank : Blank isCfgSpace indent) (printable : PrintableName name) :
    Reads (indent ++ printEvent (.start name)) [.start name] := by
  obtain ⟨first, rest, rfl⟩ := exists_cons_of_ne_nil printable.notEmpty
  have oneLine := printable.oneLine
  rw [mem_cons, not_or] at oneLine
  have isStart : (first :: (rest ++ [' ', '{'])).rdropWhile isCfgSpace =
      first :: rest ++ [' '] ++ ['{'] := by
    rw [← cons_append, append_cons]
    exact rdropWhile_concat_neg _ _ _ (by decide)
  have isName : (first :: rest ++ [' ']).rdropWhile isCfgSpace = first :: rest := by
    rw [Blank.rdropWhile_append (by decide)]
    exact printable.ends.rdropWhile_eq
  apply reads_real blank
  · exact startsReal_of_unmarked (printable.starts first rfl) (Ne.symm oneLine.1)
      (printable.unmarked first rfl)
  · exact fun member => (mem_append.mp member).elim oneLine.2 (by decide)
  · intro before comp
    exact realLine_start isStart isName (cons_ne_nil _ _)

theorem lineVar_print (printableKey : PrintableKey key) (printableValue : PrintableValue value) :
    lineVar (key ++ [' ', '=', ' '] ++ value) = ⟨key, some value⟩ := by
  have split : splitVar (key ++ [' ', '=', ' '] ++ value) = ⟨key, some value⟩ := by
    rw [splitVar_parts printableKey.notEmpty _ (cons_ne_nil _ _) (by decide),
      if_neg printableValue.notEmpty]
    · intro first isFirst
      obtain ⟨notSpace, notEquals⟩ := printableValue.starts first isFirst
      rw [endsKey, notSpace]
      simpa using notEquals
    · intro char member
      obtain ⟨notSpace, -, notEquals⟩ := printableKey.oneWord char member
      rw [endsKey, notSpace]
      simpa using notEquals
  have full : EndsFull isCfgSpace value := fun last isLast => (printableValue.ends last isLast).1
  rw [lineVar, split, Option.map_some, full.rdropWhile_eq]

private theorem stripSemicolon_print (before : Option Char) (line : List Char)
    (printable : PrintableValue value) :
    stripSemicolon before (line ++ value ++ [';']) = .ok (line ++ value) := by
  obtain ⟨front, last, rfl⟩ := (eq_nil_or_concat' value).resolve_left printable.notEmpty
  obtain ⟨notSpace, notBackslash⟩ := printable.ends last getLast?_concat
  rw [← append_assoc, stripSemicolon_concat, if_neg notBackslash,
    rdropWhile_concat_neg _ _ _ (by rw [notSpace]; exact Bool.false_ne_true)]

private theorem reads_item {v : ConfigVar} (blank : Blank isCfgSpace indent)
    (printable : PrintableVar v) : Reads (indent ++ printEvent (.item v)) [.item v] := by
  obtain ⟨key, _⟩ := v
  obtain ⟨printableKey, value, rfl, printableValue⟩ := printable
  obtain ⟨first, rest, rfl⟩ := exists_cons_of_ne_nil printableKey.notEmpty
  obtain ⟨notSpace, notNewline, -⟩ := printableKey.oneWord first mem_cons_self
  have full : (first :: (rest ++ [' ', '=', ' '] ++ value ++ [';'])).rdropWhile isCfgSpace =
      first :: rest ++ [' ', '=', ' '] ++ value ++ [';'] :=
    rdropWhile_concat_neg isCfgSpace (first :: rest ++ [' ', '=', ' '] ++ value) ';' (by decide)
  apply reads_real blank
  · exact startsReal_of_unmarked notSpace notNewline (printableKey.unmarked first rfl)
  · intro member
    rw [append_eq, append_eq, append_eq] at member
    simp only [mem_append] at member
    obtain ((inKey | separates) | inValue) | ends := member
    · exact (printableKey.oneWord _ (mem_cons_of_mem _ inKey)).2.1 rfl
    · exact absurd separates (by decide)
    · exact printableValue.oneLine inValue
    · exact absurd ends (by decide)
  · intro before comp
    have notStart : ((first :: (rest ++ [' ', '=', ' '] ++ value ++ [';'])).rdropWhile
        isCfgSpace).getLast? ≠ some '{' := by
      rw [full, getLast?_concat]
      decide
    have stripped : stripSemicolon before
        ((first :: (rest ++ [' ', '=', ' '] ++ value ++ [';'])).rdropWhile isCfgSpace) =
        .ok (first :: rest ++ [' ', '=', ' '] ++ value) := by
      rw [full]
      exact stripSemicolon_print before _ printableValue
    have added := realLine_var comp notStart stripped (cons_ne_nil _ _)
    rw [lineVar_print printableKey printableValue] at added
    exact added

end Lines

private theorem reads_printEvent {indent : List Char} {event : ConfigEvent}
    (blank : Blank isCfgSpace indent) (name : ∀ name, event = .start name → PrintableName name)
    (v : ∀ v, event = .item v → PrintableVar v) : Reads (indent ++ printEvent event) [event] := by
  cases event with
  | start started => exact reads_start blank (name started rfl)
  | item single => exact reads_item blank (v single rfl)
  | close => exact reads_close blank (fun _ => nofun)

private theorem reads_printLines {indents : List (List Char)} {events : List ConfigEvent}
    (lines : indents.length = events.length) (blank : ∀ indent ∈ indents, Blank isCfgSpace indent)
    (names : ∀ name, .start name ∈ events → PrintableName name)
    (vars : ∀ v, .item v ∈ events → PrintableVar v) :
    List.Forall₂ Reads
      (List.zipWith (fun indent event => indent ++ printEvent event) indents events)
      (events.map fun event => [event]) := by
  induction events generalizing indents with
  | nil =>
    rw [zipWith_nil_right]
    exact .nil
  | cons event events ih =>
    obtain ⟨indent, indents, rfl⟩ := exists_cons_of_length_eq_add_one lines
    refine .cons ?_ ?_
    · apply reads_printEvent (blank indent mem_cons_self)
      · rintro name rfl
        exact names name mem_cons_self
      · rintro v rfl
        exact vars v mem_cons_self
    · apply ih (Nat.succ.inj lines)
      · exact fun other member => blank other (mem_cons_of_mem _ member)
      · exact fun name member => names name (mem_cons_of_mem _ member)
      · exact fun v member => vars v (mem_cons_of_mem _ member)

/-- A printed tree is read back, whatever the indentation. -/
theorem cfgParseFile_printFile {path : List Char} {tree : ConfigComp}
    {indents : List (List Char)} (isPath : compoundName path = .ok tree.name)
    (names : ∀ name ∈ tree.nestedNames, PrintableName name)
    (vars : ∀ v ∈ tree.allItems, PrintableVar v)
    (indented : ∀ indent ∈ indents, ∀ char ∈ indent, char = ' ' ∨ char = '\t')
    (lines : indents.length = tree.contents.length) :
    cfgParseFile path (printFile indents tree) = .ok tree := by
  have blank : ∀ indent ∈ indents, Blank isCfgSpace indent := by
    intro indent isIndent char member
    rcases indented indent isIndent char member with rfl | rfl
    · rfl
    · rfl
  have reads := reads_printLines lines blank
    (fun name member => names name (mem_nestedNames_of_start member))
    (fun v member => vars v (mem_allItems_of_item member))
  have together : (tree.contents.map fun event => [event]).flatten = tree.contents := by
    rw [← flatMap_def, flatMap_singleton']
  rw [cfgParseFile, parseFile, isPath, printFile, Except.bind, parseText_lines reads, together,
    Cursor.run_contents]
  rfl

def peerTree : ConfigComp :=
  .node "merlin.conf".toList []
    [.node "peer a".toList [⟨"port".toList, some "15551; \x7b".toList⟩] [.node "sync".toList [] []]]

theorem cfgParseFile_printFile_peer :
    cfgParseFile "merlin.conf".toList
      (printFile [[], ['\t'], [' ', ' '], [' '], []] peerTree) = .ok peerTree := by
  apply cfgParseFile_printFile rfl
  · change ∀ name ∈ ["peer a".toList, "sync".toList], PrintableName name
    rw [forall_mem_cons, forall_mem_singleton]
    constructor
    · exact ⟨by decide, by decide, by decide, by decide, by decide, fun first isFirst => by
        cases isFirst
        decide⟩
    · exact ⟨by decide, by decide, by decide, by decide, by decide, fun first isFirst => by
        cases isFirst
        decide⟩
  · change ∀ v ∈ [(⟨"port".toList, some "15551; \x7b".toList⟩ : ConfigVar)], PrintableVar v
    rw [forall_mem_singleton]
    refine ⟨⟨by decide, all_iff_forall_prop.mp (by decide), by decide, ?_⟩, _, rfl,
      ⟨by decide, by decide, by decide, ?_, ?_⟩⟩
    · intro first isFirst
      cases isFirst
      decide
    · intro first isFirst
      cases isFirst
      decide
    · intro last isLast
      cases isLast
      decide
  · simp
  · rfl

end MonitorMerlin
