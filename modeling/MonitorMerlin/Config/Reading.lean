import MonitorMerlin.Config.Cfgfile

/-! # Lines that are read as events -/

namespace MonitorMerlin

open Lines List Nesting Trim

def ranTo : Option (Cursor (List Char) ConfigVar) → Except ConfigFault ConfigScan
  | none => .error .neverOpened
  | some comp => .ok ⟨none, comp⟩

/-- The parser makes these events of the line. -/
def Reads (line : List Char) (events : List ConfigEvent) : Prop :=
  ∀ before comp, parseText before (line ++ ['\n']) ⟨none, comp⟩ = ranTo (comp.run events)

section Entries

variable {before : Option Char} {scan : ConfigScan} {text : List Char}

private theorem parseText_last (notEmpty : text ≠ []) (last : (nextEntry before text).rest = []) :
    parseText before text scan = scan.entry (nextEntry before text).entry := by
  rw [parseText_next notEmpty, last]
  cases scan.entry (nextEntry before text).entry with
  | error fault | ok next => rfl

end Entries

section Lines

variable {blanks back line : List Char} {first : Char} {events : List ConfigEvent}

theorem parseText_blank (blank : Blank isCfgSpace line) (before : Option Char)
    (scan : ConfigScan) : parseText before (line ++ ['\n']) scan = .ok ⟨none, scan.comp⟩ := by
  rw [parseText_last (append_ne_nil_of_right_ne_nil line (cons_ne_nil _ _))] <;>
    rw [nextEntry_blank blank (endsLine_newline _)]
  · rfl
  · rfl

theorem reads_blank (blank : Blank isCfgSpace line) : Reads line [] :=
  fun before comp => parseText_blank blank before ⟨none, comp⟩

theorem parseText_comment (blank : Blank isCfgSpace blanks) (whole : '\n' ∉ line)
    (before : Option Char) (scan : ConfigScan) :
    parseText before (blanks ++ '#' :: line ++ ['\n']) scan = .ok scan := by
  rw [parseText_last (append_ne_nil_of_right_ne_nil _ (cons_ne_nil _ _))] <;>
    rw [nextEntry_comment blank whole (endsLine_newline _)]
  · rfl
  · rfl

theorem reads_comment (blank : Blank isCfgSpace blanks) (whole : '\n' ∉ line) :
    Reads (blanks ++ '#' :: line) [] :=
  fun before comp => parseText_comment blank whole before ⟨none, comp⟩

theorem entry_close (scan : ConfigScan) : scan.entry .close = ranTo (scan.comp.run [.close]) := by
  rw [ConfigScan.entry, ConfigScan.closeCompound, Cursor.run_cons, Cursor.step]
  cases scan.comp.close with
  | none | some comp => rfl

theorem ranTo_eq_ok {ran : Option (Cursor (List Char) ConfigVar)} {scan : ConfigScan}
    (isScan : ranTo ran = .ok scan) : ∃ comp, ran = some comp ∧ scan = ⟨none, comp⟩ := by
  cases ran with
  | none => cases isScan
  | some comp => exact ⟨comp, rfl, (Except.ok.inj isScan).symm⟩

section

variable (blank : Blank isCfgSpace blanks)

include blank

theorem parseText_close (line : List Char) (before : Option Char) (scan : ConfigScan) :
    parseText before (blanks ++ '}' :: line ++ ['\n']) scan =
      (ranTo (scan.comp.run [.close])).bind fun closed =>
        if line = [] then .ok closed else parseText line.head? (line.tail ++ ['\n']) closed := by
  rw [append_assoc, cons_append]
  have notEmpty : blanks ++ '}' :: (line ++ ['\n']) ≠ [] :=
    append_ne_nil_of_right_ne_nil _ (cons_ne_nil _ _)
  rw [parseText_next notEmpty, nextEntry_close blank, entry_close]
  cases line with
  | nil | cons char line => rfl

theorem reads_close (blankBack : Blank isCfgSpace back) :
    Reads (blanks ++ '}' :: back) [.close] := by
  intro before comp
  rw [parseText_close blank]
  cases ran : comp.run [.close] with
  | none => rfl
  | some closed =>
    rw [ranTo, Except.bind]
    split
    · rfl
    · exact parseText_blank (fun char member => blankBack char (mem_of_mem_tail member)) _ _

theorem parseText_real (real : StartsReal first) (whole : '\n' ∉ line) (before : Option Char)
    (scan : ConfigScan) :
    parseText before (blanks ++ first :: line ++ ['\n']) scan =
      scan.realLine (blanks.getLast?.or before) (first :: line) := by
  rw [parseText_last (append_ne_nil_of_right_ne_nil _ (cons_ne_nil _ _))] <;>
    rw [nextEntry_real blank real whole (endsLine_newline _)]
  · rfl
  · rfl

theorem reads_real (real : StartsReal first) (whole : '\n' ∉ line) (effect : ∀ before comp,
      ConfigScan.realLine ⟨none, comp⟩ before (first :: line) = ranTo (comp.run events)) :
    Reads (blanks ++ first :: line) events := by
  intro before comp
  rw [parseText_real blank real whole]
  exact effect _ comp

end

theorem trim_blank (blank : Blank isCfgSpace line) : trim isCfgSpace line = [] := by
  rw [trim, dropWhile_eq_nil_iff.mpr blank]
  rfl

theorem trim_line (blank : Blank isCfgSpace blanks) (notSpace : isCfgSpace first = false) :
    trim isCfgSpace (blanks ++ first :: line) = first :: line.rdropWhile isCfgSpace := by
  rw [trim, blank.dropWhile_append, dropWhile_cons_of_neg (by rw [notSpace]; decide),
    rdropWhile_cons_of_neg notSpace]

end Lines

section RealLines

variable {line text name : List Char} {scan : ConfigScan} {before : Option Char}

theorem realLine_start (isStart : line.rdropWhile isCfgSpace = text ++ ['{'])
    (isName : text.rdropWhile isCfgSpace = name) (notEmpty : name ≠ []) :
    scan.realLine before line = .ok ⟨none, scan.comp.start name⟩ := by
  have stored : compoundName name = .ok name := by
    have full : name.rdropWhile isCfgSpace = name := by
      rw [← isName]
      exact rdropWhile_idempotent _ _
    rw [compoundName, full, if_neg notEmpty]
  rw [ConfigScan.realLine, isStart, getLast?_concat, if_pos rfl, dropLast_concat, isName,
    ConfigScan.startCompound, stored]
  rfl

theorem stripSemicolon_concat (before : Option Char) (line : List Char) (last : Char) :
    stripSemicolon before (line ++ [last] ++ [';']) =
      .ok (if last = '\\' then line ++ [last] ++ [';']
        else (line ++ [last]).rdropWhile isCfgSpace) := by
  rw [stripSemicolon, getLast?_concat, if_pos rfl, dropLast_concat, getLast?_concat, Option.some_or]

theorem stripSemicolon_other (other : line.getLast? ≠ some ';') :
    stripSemicolon before line = .ok line := by
  rw [stripSemicolon, if_neg other]

def lineVar (line : List Char) : ConfigVar :=
  ⟨(splitVar line).key, (splitVar line).value.map (List.rdropWhile isCfgSpace)⟩

theorem keepVar_line {comp : Cursor (List Char) ConfigVar} (notEmpty : line ≠ []) :
    ConfigScan.keepVar ⟨none, comp⟩ line = ⟨none, comp.addItem (lineVar line)⟩ := by
  cases line with
  | nil => exact absurd rfl notEmpty
  | cons first line => rfl

theorem realLine_var (comp : Cursor (List Char) ConfigVar)
    (notStart : (line.rdropWhile isCfgSpace).getLast? ≠ some '{')
    (stripped : stripSemicolon before (line.rdropWhile isCfgSpace) = .ok text)
    (notEmpty : text ≠ []) :
    ConfigScan.realLine ⟨none, comp⟩ before line = .ok ⟨none, comp.addItem (lineVar text)⟩ := by
  rw [ConfigScan.realLine, if_neg notStart, stripped, Except.map, keepVar_line notEmpty]

theorem splitVar_parts {key separators value : List Char} (notEmpty : key ≠ [])
    (inKey : ∀ char ∈ key, endsKey char = false) (separated : separators ≠ [])
    (separates : Blank endsKey separators) (starts : StartsFull endsKey value) :
    splitVar (key ++ separators ++ value) = ⟨key, if value = [] then none else some value⟩ := by
  obtain ⟨first, key, rfl⟩ := exists_cons_of_ne_nil notEmpty
  obtain ⟨separator, separators, rfl⟩ := exists_cons_of_ne_nil separated
  have within : ∀ char ∈ key, (!endsKey char) = true := by
    intro char member
    rw [inKey char (mem_cons_of_mem _ member)]
    rfl
  have outside : ¬(!endsKey separator) = true := by
    rw [separates separator mem_cons_self]
    exact Bool.false_ne_true
  rw [append_assoc, cons_append, splitVar, takeWhile_append_of_pos within,
    dropWhile_append_of_pos within, cons_append,
    takeWhile_cons_of_neg (p := fun char => !endsKey char) outside,
    dropWhile_cons_of_neg (p := fun char => !endsKey char) outside, append_nil,
    ← cons_append, separates.dropWhile_append, starts.dropWhile_eq]

end RealLines

theorem parseText_lines {lines : List (List Char)} {events : List (List ConfigEvent)}
    (reads : List.Forall₂ Reads lines events) (before : Option Char)
    (comp : Cursor (List Char) ConfigVar) :
    parseText before (lines.flatMap fun line => line ++ ['\n']) ⟨none, comp⟩ =
      ranTo (comp.run events.flatten) := by
  induction reads generalizing before comp with
  | nil => rfl
  | @cons line ofLine lines events first _ ih =>
    obtain ⟨behind, -, appended⟩ := parseText_append before (closed_append_separator line)
      (append_ne_nil_of_right_ne_nil line (cons_ne_nil '\n' []))
    rw [flatMap_cons, appended, first, flatten_cons, Cursor.run_append]
    cases comp.run ofLine with
    | none => rfl
    | some next => exact ih behind next

private theorem parseText_forced {line : List Char} (notEmpty : line ≠ []) (whole : '\n' ∉ line)
    (before : Option Char) (scan : ConfigScan) :
    parseText before (line ++ ['\n']) scan = parseText before line scan := by
  induction before, line using entries_induction generalizing scan with
  | nil before => exact absurd rfl notEmpty
  | next before line notEmpty ih =>
    rw [parseText_next (append_ne_nil_of_left_ne_nil notEmpty _), parseText_next notEmpty]
    rcases nextEntry_cases before whole with
      ⟨entry, behind, -, next⟩ | ⟨blanks, line, blank, restWhole, rfl⟩
    · have atEnd := next [] fun _ => nofun
      rw [append_nil] at atEnd
      rw [next _ (endsLine_newline _), atEnd]
      rfl
    · rw [nextEntry_close blank] at ih
      rw [append_assoc, cons_append, nextEntry_close blank, nextEntry_close blank, entry_close]
      cases ran : scan.comp.run [.close] with
      | none => rfl
      | some closed =>
        match line with
        | [] => rfl
        | [char] => exact parseText_blank blank_nil (some char) ⟨none, closed⟩
        | char :: next :: line =>
          exact ih (cons_ne_nil _ _) (fun member => restWhole (mem_cons_of_mem _ member)) _

theorem parseText_eq_lines (text : List Char) (before : Option Char) (scan : ConfigScan) :
    parseText before text scan =
      parseText before ((lines '\n' text).flatMap fun line => line ++ ['\n']) scan := by
  induction isLength : text.length using Nat.strong_induction_on generalizing before text scan with
  | _ length ih =>
    by_cases empty : text = []
    · rw [empty]
      rfl
    · obtain ⟨line, after, rfl, whole, ends, isLines⟩ := exists_frontLine empty
      rw [isLines, flatMap_cons]
      cases after with
      | nil =>
        rw [append_nil] at empty ⊢
        rw [← parseText_forced empty whole]
        exact congrArg (fun text => parseText before text scan) (append_nil _).symm
      | cons newline rest =>
        obtain rfl := ends newline rfl
        obtain ⟨behind, -, appended⟩ := parseText_append before (closed_append_separator line)
          (append_ne_nil_of_right_ne_nil line (cons_ne_nil '\n' []))
        rw [tail_cons, appended, append_cons, appended]
        congr 1
        funext next
        apply ih rest.length _ rest behind next rfl
        rw [← isLength, length_append, length_cons]
        omega

end MonitorMerlin
