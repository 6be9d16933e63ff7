import MonitorMerlin.Config.Reading

/-! # Two runs of the configuration parser -/

namespace MonitorMerlin

open Lines Nesting Trim

/-- Two results that are the same fault, or related. -/
inductive Both (related : ConfigScan → ConfigScan → Prop) :
    Except ConfigFault ConfigScan → Except ConfigFault ConfigScan → Prop where
  | fault (fault : ConfigFault) : Both related (.error fault) (.error fault)
  | ok {scan other : ConfigScan} (scans : related scan other) : Both related (.ok scan) (.ok other)

section Runs

variable {related : ConfigScan → ConfigScan → Prop} {scan other : ConfigScan}
  {first second : Except ConfigFault ConfigScan}

theorem Both.bind {next otherNext : ConfigScan → Except ConfigFault ConfigScan}
    (both : Both related first second)
    (kept : ∀ {scan other}, related scan other → Both related (next scan) (otherNext other)) :
    Both related (first.bind next) (second.bind otherNext) := by
  cases both with
  | fault fault => exact .fault fault
  | ok scans => exact kept scans

theorem Both.eq_map {change : ConfigScan → ConfigScan}
    (both : Both (fun scan other => other = change scan) first second) :
    second = first.map change := by
  cases both with
  | fault fault => rfl
  | ok scans =>
    rw [scans]
    rfl

variable {fault : ConfigFault}

theorem Both.eq_error {result : Except ConfigFault ConfigScan}
    (both : Both related result (.error fault)) : result = .error fault := by
  cases both with
  | fault fault => rfl

theorem Both.map_eq {β : Type} {seen : ConfigScan → β} (both : Both related first second)
    (same : ∀ {scan other}, related scan other → seen scan = seen other) :
    first.map seen = second.map seen := by
  cases both with
  | fault fault => rfl
  | ok scans => exact congrArg Except.ok (same scans)

theorem parseText_both
    (kept : ∀ {scan other}, related scan other → ∀ entry,
      Both related (scan.entry entry) (other.entry entry))
    (scans : related scan other) (before : Option Char) (text : List Char) :
    Both related (parseText before text scan) (parseText before text other) := by
  induction before, text using entries_induction generalizing scan other with
  | nil before => exact .ok scans
  | next before text notEmpty ih =>
    rw [parseText_next notEmpty, parseText_next notEmpty]
    exact (kept scans _).bind ih

variable {before : Option Char}

theorem parseText_keeps {kept : ConfigScan → Prop}
    (step : ∀ {scan after} {entry}, kept scan → scan.entry entry = .ok after → kept after)
    (holds : kept scan) {text : List Char} (parsed : parseText before text scan = .ok other) :
    kept other := by
  have both : Both (fun scan other => scan = other ∧ kept scan)
      (parseText before text scan) (parseText before text scan) := by
    apply parseText_both _ ⟨rfl, holds⟩
    rintro scan other ⟨rfl, holds⟩ entry
    cases done : scan.entry entry with
    | error fault => exact .fault fault
    | ok after => exact .ok ⟨rfl, step holds done⟩
  rw [parsed] at both
  cases both with
  | ok scans => exact scans.2

private theorem stripSemicolon_error {line : List Char}
    (failed : stripSemicolon before line = .error fault) : fault = .outside := by
  rw [stripSemicolon] at failed
  split at failed
  · split at failed
    · exact (Except.error.inj failed).symm
    · cases failed
  · cases failed

theorem realLine_cases (before : Option Char) (line : List Char) :
    (∃ name, ∀ scan : ConfigScan, scan.realLine before line = .ok ⟨none, scan.comp.start name⟩) ∨
    (∃ text, ∀ scan : ConfigScan, scan.realLine before line = .ok (scan.keepVar text)) ∨
    ∀ scan : ConfigScan, scan.realLine before line = .error .outside := by
  by_cases starts : (line.rdropWhile isCfgSpace).getLast? = some '{'
  · by_cases empty : ((line.rdropWhile isCfgSpace).dropLast.rdropWhile isCfgSpace).rdropWhile
      isCfgSpace = []
    · refine .inr (.inr fun scan => ?_)
      rw [ConfigScan.realLine, if_pos starts, ConfigScan.startCompound, compoundName, if_pos empty]
      rfl
    · refine .inl ⟨((line.rdropWhile isCfgSpace).dropLast.rdropWhile isCfgSpace).rdropWhile
        isCfgSpace, fun scan => ?_⟩
      rw [ConfigScan.realLine, if_pos starts, ConfigScan.startCompound, compoundName, if_neg empty]
      rfl
  · cases stripped : stripSemicolon before (line.rdropWhile isCfgSpace) with
    | error fault =>
      refine .inr (.inr fun scan => ?_)
      rw [ConfigScan.realLine, if_neg starts, stripped, stripSemicolon_error stripped]
      rfl
    | ok text =>
      refine .inr (.inl ⟨text, fun scan => ?_⟩)
      rw [ConfigScan.realLine, if_neg starts, stripped]
      rfl

end Runs

namespace ConfigScan

def onto (front : ConfigComp) (scan : ConfigScan) : ConfigScan := ⟨scan.v, scan.comp.onto front⟩

variable (front : ConfigComp) (scan : ConfigScan)

private theorem start_onto (name : List Char) :
    (scan.comp.onto front).start name = (scan.comp.start name).onto front :=
  Option.some.inj (Cursor.step_onto front scan.comp (.start name))

private theorem addItem_onto (v : ConfigVar) :
    (scan.comp.onto front).addItem v = (scan.comp.addItem v).onto front :=
  Option.some.inj (Cursor.step_onto front scan.comp (.item v))

private theorem keepVar_onto (line : List Char) :
    (scan.onto front).keepVar line = (scan.keepVar line).onto front := by
  rw [keepVar, keepVar, onto]
  dsimp only
  split
  · rfl
  · rw [addVar, addVar, addItem_onto]
    rfl

private theorem entry_onto (entry : ConfigEntry) :
    (scan.onto front).entry entry = (scan.entry entry).map (onto front) := by
  cases entry with
  | empty | comment => rfl
  | close =>
    have closed : (scan.comp.onto front).close = scan.comp.close.map (Cursor.onto front) :=
      Cursor.step_onto front scan.comp .close
    rw [ConfigScan.entry, ConfigScan.entry, closeCompound, closeCompound, onto, closed]
    cases scan.comp.close with
    | none | some comp => rfl
  | real before line =>
    rw [ConfigScan.entry, ConfigScan.entry]
    rcases realLine_cases before line with ⟨name, does⟩ | ⟨text, does⟩ | does
    · rw [does, does, onto, start_onto]
      rfl
    · rw [does, does, keepVar_onto]
      rfl
    · rw [does, does]
      rfl

end ConfigScan

theorem parseText_onto (front : ConfigComp) (scan : ConfigScan) (before : Option Char)
    (text : List Char) :
    parseText before text (scan.onto front) =
      (parseText before text scan).map (ConfigScan.onto front) := by
  have kept : ∀ {scan other : ConfigScan}, other = scan.onto front → ∀ entry,
      Both (fun scan other => other = scan.onto front) (scan.entry entry) (other.entry entry) := by
    rintro scan _ rfl entry
    rw [ConfigScan.entry_onto]
    cases scan.entry entry with
    | error fault => exact .fault fault
    | ok after => exact .ok rfl
  exact (parseText_both kept rfl before text).eq_map

def EmptyKey (scan : ConfigScan) : Prop := scan.v = none ∨ scan.v = some ⟨[], none⟩

private theorem splitVar_key_eq_nil_iff (line : List Char) :
    (splitVar line).key = [] ↔ splitVar line = ⟨[], none⟩ := by
  cases line with
  | nil => simp only [splitVar]
  | cons first line => simp only [splitVar, reduceCtorEq, ConfigVar.mk.injEq, false_and]

theorem EmptyKey.keepVar {scan : ConfigScan} (empty : EmptyKey scan) (line : List Char) :
    EmptyKey (scan.keepVar line) := by
  rw [ConfigScan.keepVar]
  rcases empty with none | empty
  · rw [none, Option.getD_none]
    split
    · rename_i isNil
      exact .inr (congrArg some ((splitVar_key_eq_nil_iff line).mp isNil))
    · exact .inl rfl
  · rw [empty, Option.getD_some, if_pos rfl]
    exact .inr rfl

theorem EmptyKey.entry {scan after : ConfigScan} {entry : ConfigEntry} (empty : EmptyKey scan)
    (done : scan.entry entry = .ok after) : EmptyKey after := by
  cases entry with
  | empty =>
    obtain rfl := Except.ok.inj done
    exact .inl rfl
  | comment =>
    obtain rfl := Except.ok.inj done
    exact empty
  | close =>
    rw [entry_close] at done
    obtain ⟨comp, -, rfl⟩ := ranTo_eq_ok done
    exact .inl rfl
  | real before line =>
    rw [ConfigScan.entry] at done
    rcases realLine_cases before line with ⟨name, does⟩ | ⟨text, does⟩ | does
    · rw [does] at done
      obtain rfl := Except.ok.inj done
      exact .inl rfl
    · rw [does] at done
      obtain rfl := Except.ok.inj done
      exact empty.keepVar text
    · rw [does] at done
      cases done

def ConfigScan.varCount (scan : ConfigScan) : Nat := (scan.comp.collect fun _ items => items).length

/-- The other scan has a variable that is lost here. -/
structure Lost (scan other : ConfigScan) : Prop where
  key : scan.v = other.v ∨ scan.v = some ⟨[], none⟩ ∧ other.v = none
  depth : scan.comp.parents.length = other.comp.parents.length
  count : scan.varCount < other.varCount

theorem varCount_step {comp after : Cursor (List Char) ConfigVar} (event : ConfigEvent)
    (v w : Option ConfigVar) (isAfter : comp.step event = some after) :
    ConfigScan.varCount ⟨w, after⟩ = ConfigScan.varCount ⟨v, comp⟩ + event.items.length := by
  rw [ConfigScan.varCount, (grows_items.step isAfter).length_eq, List.length_append]
  rfl

namespace Lost

variable {scan other : ConfigScan}

private theorem of_step {comp otherComp : Cursor (List Char) ConfigVar} (lost : Lost scan other)
    (event : ConfigEvent) (v : Option ConfigVar) (isComp : scan.comp.step event = some comp)
    (isOther : other.comp.step event = some otherComp)
    (depth : comp.parents.length = otherComp.parents.length) : Lost ⟨v, comp⟩ ⟨v, otherComp⟩ := by
  refine ⟨.inl rfl, depth, ?_⟩
  rw [varCount_step event scan.v v isComp, varCount_step event other.v v isOther]
  exact Nat.add_lt_add_right lost.count _

theorem close (lost : Lost scan other) : Both Lost scan.closeCompound other.closeCompound := by
  rw [ConfigScan.closeCompound, ConfigScan.closeCompound]
  cases closed : scan.comp.close with
  | none =>
    have top := Cursor.close_eq_none_iff.mp closed
    have otherTop : other.comp.parents = [] := by
      rw [← List.length_eq_zero_iff, ← lost.depth, top]
      rfl
    rw [Cursor.close_eq_none_iff.mpr otherTop]
    exact .fault _
  | some comp =>
    cases otherClosed : other.comp.close with
    | none =>
      have top := Cursor.close_eq_none_iff.mp otherClosed
      obtain ⟨parent, parents, isParents, -⟩ := Cursor.close_eq_some_iff.mp closed
      have depth := lost.depth
      rw [top, isParents] at depth
      cases depth
    | some otherComp =>
      apply Both.ok
      apply lost.of_step .close none closed otherClosed
      obtain ⟨parent, parents, isParents, rfl⟩ := Cursor.close_eq_some_iff.mp closed
      obtain ⟨otherParent, otherParents, areParents, rfl⟩ := Cursor.close_eq_some_iff.mp otherClosed
      have depth := lost.depth
      rw [isParents, areParents] at depth
      exact Nat.succ.inj depth

theorem keepVar (lost : Lost scan other) (line : List Char) :
    Lost (scan.keepVar line) (other.keepVar line) := by
  rw [ConfigScan.keepVar, ConfigScan.keepVar]
  rcases lost.key with same | ⟨left, none⟩
  · rw [same]
    split
    · exact ⟨.inl rfl, lost.depth, lost.count⟩
    · exact lost.of_step (.item _) none rfl rfl lost.depth
  · rw [left, none, Option.getD_some, Option.getD_none, if_pos rfl]
    split
    · rename_i isNil
      exact ⟨.inl (congrArg some ((splitVar_key_eq_nil_iff line).mp isNil).symm), lost.depth,
        lost.count⟩
    · refine ⟨.inr ⟨rfl, rfl⟩, lost.depth, ?_⟩
      rw [ConfigScan.addVar, varCount_step (.item _) other.v Option.none rfl]
      exact Nat.lt_add_right _ lost.count

theorem entry (lost : Lost scan other) (entry : ConfigEntry) :
    Both Lost (scan.entry entry) (other.entry entry) := by
  cases entry with
  | empty => exact .ok ⟨.inl rfl, lost.depth, lost.count⟩
  | comment => exact .ok lost
  | close => exact lost.close
  | real before line =>
    rw [ConfigScan.entry, ConfigScan.entry]
    rcases realLine_cases before line with ⟨name, does⟩ | ⟨text, does⟩ | does
    · rw [does, does]
      exact .ok (lost.of_step (.start name) none rfl rfl (congrArg Nat.succ lost.depth))
    · rw [does, does]
      exact .ok (lost.keepVar text)
    · rw [does, does]
      exact .fault _

end Lost

end MonitorMerlin
