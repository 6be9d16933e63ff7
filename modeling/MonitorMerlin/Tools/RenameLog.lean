import MonitorMerlin.Tools.Rename

/-! # Names in the lines of a log -/

namespace MonitorMerlin

open List

def Rename.WritesSame (rename : Rename) (exactly : Option Rename) (text : List Char) : Prop :=
  match exactly with
  | none => rename.toName = rename.fromName
  | some other => rename.replaced text = other.replaced text

def FoundExactly (renames : List Rename) (exactly : Option Rename) (head text : List Char) : Prop :=
  ∀ rename, textRename renames text = some rename →
    (head ++ rename.replaced text).length + 1 < 2 ^ 31 ∧ rename.WritesSame exactly text

def exactRename (renames : List Rename) (after text : List Char) : Option Rename :=
  if after.head? = some ' ' then fieldsRename renames (text.splitOn ';') else none

/-- `parse_line` finds names exactly where they are. -/
def NamesFound (renames : List Rename) (str : List Char) : Prop :=
  match recordParts str with
  | none => True
  | some (before, after) =>
    match recordKind before with
    | .named =>
      renames = [] ∨ ∃ char text, after = char :: text ∧
        FoundExactly renames (exactRename renames after text) (before ++ [':', char]) text
    | .commanded =>
      renames = [] ∨ ∃ command text, strchr ';' after = some (command, text) ∧
        FoundExactly renames (exactRename renames after text)
          (before ++ ':' :: command ++ [';']) text
    | .other => True

section Place

variable {renames : List Rename} {exactly : Option Rename} {str head text after : List Char}
  {rename : Rename}

theorem Rename.replaced_eq_self_iff (starts : rename.fromName <+: text) :
    rename.replaced text = text ↔ rename.toName = rename.fromName := by
  obtain ⟨rest, rfl⟩ := starts
  rw [Rename.replaced, drop_left]
  exact append_left_inj rest

theorem exactRename_starts (found : exactRename renames after text = some rename) :
    rename ∈ renames ∧ rename.fromName <+: text := by
  rw [exactRename] at found
  split_ifs at found
  obtain ⟨rest, isFields⟩ := exists_of_fieldsRename found
  refine ⟨mem_of_find?_eq_some found, ?_⟩
  obtain ⟨-, behind, isText, -⟩ :=
    (Fields.exists_splitOn_eq_append_iff rename.fromFields_ne_nil).mp ⟨rest, isFields⟩
  rw [rename.fromName_eq]
  exact ⟨behind, isText.symm⟩

theorem Rename.writesSame_iff (starts : rename.fromName <+: text) :
    rename.WritesSame exactly text ↔
      rename.replaced text = exactly.elim text fun other => other.replaced text := by
  cases exactly with
  | none => exact (rename.replaced_eq_self_iff starts).symm
  | some other => exact Iff.rfl

theorem renameAt_eq_ok_iff (isStr : str = head ++ text)
    (starts : ∀ rename, exactly = some rename → rename ∈ renames ∧ rename.fromName <+: text) :
    renameAt renames str head text =
        .ok (head ++ exactly.elim text (fun rename => rename.replaced text) ++ ['\n']) ↔
      FoundExactly renames exactly head text := by
  cases found : textRename renames text with
  | none =>
    refine iff_of_true ?_ fun rename isFound => ?_
    · rw [renameAt, found, isStr]
      cases exactly with
      | none => rfl
      | some rename =>
        obtain ⟨member, isStart⟩ := starts rename rfl
        exact absurd isStart (not_starts_of_textRename found member)
    · rw [found] at isFound
      cases isFound
  | some rename =>
    have isText : rename.replaced text = rename.toName ++ text.drop rename.fromName.length := rfl
    rw [renameAt, FoundExactly, found]
    dsimp only
    rw [append_assoc head, ← isText, length_append, length_singleton]
    constructor
    · intro written other isOther
      rw [← Option.some.inj isOther, Rename.writesSame_iff (textRename_starts found)]
      split_ifs at written with short
      have same := Except.ok.inj written
      rw [append_left_inj, append_right_inj] at same
      exact ⟨short, same⟩
    · intro all
      obtain ⟨short, same⟩ := all rename rfl
      rw [Rename.writesSame_iff (textRename_starts found)] at same
      rw [if_pos short, same]

end Place

variable {str before after : List Char}

theorem recordParts_eq_some (parts : recordParts str = some (before, after)) :
    str = before ++ ':' :: after := by
  rw [recordParts, Option.map_eq_some_iff] at parts
  obtain ⟨⟨front, rest⟩, found, isParts⟩ := parts
  rw [Prod.mk.injEq] at isParts
  obtain ⟨rfl, rfl⟩ := isParts
  rw [append_assoc, ← (strchr_eq_some found).1, take_append_drop]

theorem parseLine_of_parts (renames : List Rename)
    (parts : recordParts str = some (before, after)) :
    parseLine renames str = parseRecord renames str before after := by
  rw [recordParts, Option.map_eq_some_iff] at parts
  obtain ⟨⟨front, rest⟩, found, isParts⟩ := parts
  rw [Prod.mk.injEq] at isParts
  obtain ⟨rfl, rfl⟩ := isParts
  have long : ¬str.length ≤ 13 := by
    intro short
    rw [drop_of_length_le short] at found
    cases found
  rw [parseLine, if_neg long, found]

theorem parseLine_of_no_parts {str : List Char} (renames : List Rename)
    (parts : recordParts str = none) : parseLine renames str = .ok (str ++ ['\n']) := by
  rw [recordParts, Option.map_eq_none_iff] at parts
  rw [parseLine, parts]
  split
  · rfl
  · rfl

section Kinds

variable {renames : List Rename} {text : List Char}

theorem foundExactly_of_nil {exactly : Option Rename} {head : List Char} (nothing : renames = []) :
    FoundExactly renames exactly head text := by
  intro rename found
  rw [nothing] at found
  cases found

theorem renamedFields_ne_nil {fields : List (List Char)} (notEmpty : fields ≠ []) :
    renamedFields renames fields ≠ [] := by
  rw [renamedFields]
  split
  · exact notEmpty
  · exact append_ne_nil_of_left_ne_nil (Rename.toFields_ne_nil _) _

theorem renamedFields_nil : renamedFields renames [] = [] := by
  rw [renamedFields]
  cases found : fieldsRename renames [] with
  | none => rfl
  | some rename =>
    obtain ⟨rest, isNil⟩ := exists_of_fieldsRename found
    exact absurd (append_eq_nil_iff.mp isNil.symm).1 rename.fromFields_ne_nil

theorem renamedNamed_cons {char : Char} (isStr : str = before ++ [':', char] ++ text) :
    renamedNamed renames str before (char :: text) =
      before ++ [':', char] ++ (exactRename renames (char :: text) text).elim text
        fun rename => rename.replaced text := by
  rw [renamedNamed, exactRename]
  split
  · rename_i isBlank
    obtain rfl : char = ' ' := Option.some.inj isBlank
    rw [tail_cons, intercalate_renamedFields]
  · exact isStr

theorem ite_eq_ok_iff {fault : RenameFault} {text : List Char} {found : Prop}
    (absent : ¬ found) :
    (if renames = [] then Except.ok text else .error fault) = .ok text ↔ renames = [] ∨ found := by
  by_cases nothing : renames = []
  · rw [if_pos nothing]
    exact iff_of_true rfl (.inl nothing)
  · rw [if_neg nothing]
    exact iff_of_false nofun (not_or.mpr ⟨nothing, absent⟩)

theorem parseNamed_eq_ok_iff (isStr : str = before ++ ':' :: after) :
    parseNamed renames str before after =
        .ok (renamedNamed renames str before after ++ ['\n']) ↔
      renames = [] ∨ ∃ char text, after = char :: text ∧
        FoundExactly renames (exactRename renames after text) (before ++ [':', char]) text := by
  cases after with
  | nil =>
    rw [parseNamed]
    exact ite_eq_ok_iff (by simp)
  | cons char text =>
    have isText : str = before ++ [':', char] ++ text := by
      rw [isStr, append_assoc]
      rfl
    rw [parseNamed, renamedNamed_cons isText,
      renameAt_eq_ok_iff isText fun rename => exactRename_starts]
    constructor
    · exact fun found => .inr ⟨char, text, rfl, found⟩
    · rintro (nothing | ⟨other, rest, isAfter, found⟩)
      · exact foundExactly_of_nil nothing
      · obtain ⟨rfl, rfl⟩ := cons.inj isAfter
        exact found

theorem renamedCommanded_append {command : List Char} (absent : ';' ∉ command)
    (isStr : str = before ++ ':' :: command ++ [';'] ++ text) :
    renamedCommanded renames str before (command ++ ';' :: text) =
      before ++ ':' :: command ++ [';'] ++
        (exactRename renames (command ++ ';' :: text) text).elim text
          fun rename => rename.replaced text := by
  rw [renamedCommanded, exactRename]
  split
  · rename_i isBlank
    cases command with
    | nil => exact absurd (Option.some.inj isBlank) (by decide)
    | cons first command =>
      obtain rfl : first = ' ' := Option.some.inj isBlank
      have whole : ';' ∉ command := fun member => absent (mem_cons_of_mem _ member)
      have isFields : (' ' :: command ++ ';' :: text).tail.splitOn ';' =
          command :: text.splitOn ';' := by
        rw [cons_append, tail_cons, Fields.splitOn_append_cons,
          splitOn_eq_singleton whole, singleton_append]
      have notEmpty : renamedFields renames (text.splitOn ';') ≠ [] :=
        renamedFields_ne_nil (splitOn_ne_nil ';' text)
      rw [isFields]
      dsimp only [List.take, List.drop]
      rw [singleton_append, intercalate_cons_of_ne_nil notEmpty, intercalate_renamedFields]
      simp only [append_assoc, cons_append, nil_append]
  · exact isStr

theorem renamedCommanded_single (absent : ';' ∉ after) (isStr : str = before ++ ':' :: after) :
    renamedCommanded renames str before after = str := by
  rw [renamedCommanded]
  split
  · rename_i isBlank
    obtain ⟨message, rfl⟩ := head?_eq_some_iff.mp isBlank
    have whole : ';' ∉ message := fun member => absent (mem_cons_of_mem _ member)
    rw [tail_cons, splitOn_eq_singleton whole]
    dsimp only [List.take, List.drop]
    rw [renamedFields_nil, append_nil, intercalate_singleton, isStr, append_assoc]
    rfl
  · rfl

theorem parseCommanded_eq_ok_iff (isStr : str = before ++ ':' :: after) :
    parseCommanded renames str before after =
        .ok (renamedCommanded renames str before after ++ ['\n']) ↔
      renames = [] ∨ ∃ command text, strchr ';' after = some (command, text) ∧
        FoundExactly renames (exactRename renames after text) (before ++ ':' :: command ++ [';'])
          text := by
  rw [parseCommanded]
  by_cases member : ';' ∈ after
  · obtain ⟨command, text, rfl, absent⟩ := eq_append_cons_of_mem member
    have isText : str = before ++ ':' :: command ++ [';'] ++ text := by
      rw [isStr]
      simp only [append_assoc, cons_append, nil_append]
    rw [strchr_append absent, renamedCommanded_append absent isText]
    dsimp only
    rw [renameAt_eq_ok_iff isText fun rename => exactRename_starts]
    constructor
    · exact fun found => .inr ⟨command, text, rfl, found⟩
    · rintro (nothing | ⟨other, rest, isAfter, found⟩)
      · exact foundExactly_of_nil nothing
      · obtain ⟨rfl, rfl⟩ := Prod.mk.inj (Option.some.inj isAfter)
        exact found
  · rw [strchr_eq_none member, renamedCommanded_single member isStr]
    exact ite_eq_ok_iff (by simp)

end Kinds

/-- `parse_line` writes the line that is to be written if and only if names are found
where they are. -/
theorem parseLine_eq_ok_iff (renames : List Rename) (str : List Char) :
    parseLine renames str = .ok (renamedLine renames str ++ ['\n']) ↔ NamesFound renames str := by
  cases parts : recordParts str with
  | none =>
    rw [parseLine_of_no_parts renames parts, renamedLine, NamesFound, parts]
    exact iff_of_true rfl trivial
  | some both =>
    obtain ⟨before, after⟩ := both
    have isStr := recordParts_eq_some parts
    rw [parseLine_of_parts renames parts, parseRecord, renamedLine, NamesFound, parts]
    dsimp only
    cases recordKind before with
    | named => exact parseNamed_eq_ok_iff isStr
    | commanded => exact parseCommanded_eq_ok_iff isStr
    | other => exact iff_of_true rfl trivial

theorem not_namesFound_web :
    parseLine [.host "web".toList "www".toList]
        "[1600000000] HOST ALERT: web2;DOWN;HARD;1;".toList =
      .ok "[1600000000] HOST ALERT: www2;DOWN;HARD;1;\n".toList ∧
    renamedLine [.host "web".toList "www".toList]
        "[1600000000] HOST ALERT: web2;DOWN;HARD;1;".toList =
      "[1600000000] HOST ALERT: web2;DOWN;HARD;1;".toList ∧
    parseLine [.host "web".toList "www".toList]
        "[1600000000] EXTERNAL COMMAND: RESTART_PROGRAM".toList = .error .missing := by
  refine ⟨by decide, by decide, by decide⟩

end MonitorMerlin
