import Mathlib.Algebra.Group.Nat.Defs
import Mathlib.Data.List.TakeWhile
import MonitorMerlin.Library.Fields

/-! # The rename tool -/

namespace MonitorMerlin

open List

/-- An entry of `renames`. -/
inductive Rename where
  | host (fromHost toHost : List Char)
  | service (fromHost fromService toHost toService : List Char)
  deriving DecidableEq, Repr

namespace Rename

/-- `from_name` of `find_renames`. -/
def fromName : Rename → List Char
  | .host fromHost _ => fromHost
  | .service fromHost fromService _ _ => fromHost ++ ';' :: fromService

def toName : Rename → List Char
  | .host _ toHost => toHost
  | .service _ _ toHost toService => toHost ++ ';' :: toService

end Rename

inductive RenameFault where
  | beyond
  | missing
  | tooLong
  deriving DecidableEq, Repr

/-- `strchr`. -/
def strchr (char : Char) (text : List Char) : Option (List Char × List Char) :=
  match text.dropWhile (· != char) with
  | [] => none
  | _ :: after => some (text.takeWhile (· != char), after)

def previousIs (before : List Char) (val : String) : Bool := val.toList.isSuffixOf before

inductive RecordKind where
  | named
  | commanded
  | other
  deriving DecidableEq, Repr

def recordKind (before : List Char) : RecordKind :=
  if previousIs before "ALERT" || previousIs before "HANDLER" || previousIs before "STATE" then
    .named
  else if previousIs before "NOTIFICATION" || previousIs before "COMMAND" then
    .commanded
  else
    .other

section

variable (renames : List Rename)

def textRename (text : List Char) : Option Rename :=
  renames.find? fun rename => rename.fromName.isPrefixOf text

def renameAt (str head text : List Char) : Except RenameFault (List Char) :=
  match textRename renames text with
  | none => .ok (str ++ ['\n'])
  | some rename =>
    let resStr := head ++ rename.toName ++ text.drop rename.fromName.length ++ ['\n']
    if resStr.length < 2 ^ 31 then .ok resStr else .error .tooLong

def parseNamed (str before after : List Char) :
    Except RenameFault (List Char) :=
  match after with
  | [] => if renames = [] then .ok (str ++ ['\n']) else .error .beyond
  | char :: text => renameAt renames str (before ++ [':', char]) text

def parseCommanded (str before after : List Char) :
    Except RenameFault (List Char) :=
  match strchr ';' after with
  | none => if renames = [] then .ok (str ++ ['\n']) else .error .missing
  | some (command, text) => renameAt renames str (before ++ ':' :: command ++ [';']) text

def parseRecord (str before after : List Char) :
    Except RenameFault (List Char) :=
  match recordKind before with
  | .named => parseNamed renames str before after
  | .commanded => parseCommanded renames str before after
  | .other => .ok (str ++ ['\n'])

/-- What `parse_line` writes. -/
def parseLine (str : List Char) : Except RenameFault (List Char) :=
  if str.length ≤ 13 then
    .ok (str ++ ['\n'])
  else
    match strchr ':' (str.drop 13) with
    | none => .ok (str ++ ['\n'])
    | some (front, after) => parseRecord renames str (str.take 13 ++ front) after

end

namespace Rename

def fromFields : Rename → List (List Char)
  | .host fromHost _ => [fromHost]
  | .service fromHost fromService _ _ => [fromHost, fromService]

def toFields : Rename → List (List Char)
  | .host _ toHost => [toHost]
  | .service _ _ toHost toService => [toHost, toService]

end Rename

section

variable (renames : List Rename)

def fieldsRename (fields : List (List Char)) : Option Rename :=
  renames.find? fun rename => rename.fromFields.isPrefixOf fields

def renamedFields (fields : List (List Char)) : List (List Char) :=
  match fieldsRename renames fields with
  | none => fields
  | some rename => rename.toFields ++ fields.drop rename.fromFields.length

def recordParts (str : List Char) : Option (List Char × List Char) :=
  (strchr ':' (str.drop 13)).map fun parts => (str.take 13 ++ parts.1, parts.2)

def renamedNamed (str before after : List Char) : List Char :=
  if after.head? = some ' ' then
    before ++ [':', ' '] ++ [';'].intercalate (renamedFields renames (after.tail.splitOn ';'))
  else
    str

def renamedCommanded (str before after : List Char) : List Char :=
  if after.head? = some ' ' then
    let fields := after.tail.splitOn ';'
    before ++ [':', ' '] ++
      [';'].intercalate (fields.take 1 ++ renamedFields renames (fields.drop 1))
  else
    str

def renamedLine (str : List Char) : List Char :=
  match recordParts str with
  | none => str
  | some (before, after) =>
    match recordKind before with
    | .named => renamedNamed renames str before after
    | .commanded => renamedCommanded renames str before after
    | .other => str

end

section Texts

variable {char : Char} {text front after : List Char}

theorem strchr_append (absent : char ∉ front) (after : List Char) :
    strchr char (front ++ char :: after) = some (front, after) := by
  have within : ∀ other ∈ front, (other != char) = true := by
    intro other member
    rw [bne_iff_ne]
    rintro rfl
    exact absent member
  have stops : ¬(char != char) = true := by
    rw [bne_self_eq_false]
    exact Bool.false_ne_true
  rw [strchr, dropWhile_append_of_pos within, takeWhile_append_of_pos within,
    dropWhile_cons_of_neg (p := fun other => other != char) stops,
    takeWhile_cons_of_neg (p := fun other => other != char) stops, append_nil]

theorem strchr_eq_none (absent : char ∉ text) : strchr char text = none := by
  have within : ∀ other ∈ text, (other != char) = true := by
    intro other member
    rw [bne_iff_ne]
    rintro rfl
    exact absent member
  rw [strchr, dropWhile_eq_nil_iff.mpr within]

theorem strchr_eq_some (found : strchr char text = some (front, after)) :
    text = front ++ char :: after ∧ char ∉ front := by
  by_cases member : char ∈ text
  · obtain ⟨other, rest, rfl, absent⟩ := eq_append_cons_of_mem member
    rw [strchr_append absent, Option.some.injEq, Prod.mk.injEq] at found
    rw [← found.1, ← found.2]
    exact ⟨rfl, absent⟩
  · rw [strchr_eq_none member] at found
    cases found

end Texts

namespace Rename

theorem fromName_eq (rename : Rename) : rename.fromName = [';'].intercalate rename.fromFields := by
  cases rename with
  | host fromHost toHost => exact List.intercalate_singleton.symm
  | service fromHost fromService toHost toService =>
    rw [fromFields, intercalate_cons_cons, intercalate_singleton, append_assoc]
    rfl

theorem toName_eq (rename : Rename) : rename.toName = [';'].intercalate rename.toFields := by
  cases rename with
  | host fromHost toHost => exact List.intercalate_singleton.symm
  | service fromHost fromService toHost toService =>
    rw [toFields, intercalate_cons_cons, intercalate_singleton, append_assoc]
    rfl

theorem fromFields_ne_nil (rename : Rename) : rename.fromFields ≠ [] := by
  cases rename with
  | host fromHost toHost | service fromHost fromService toHost toService => exact cons_ne_nil _ _

theorem toFields_ne_nil (rename : Rename) : rename.toFields ≠ [] := by
  cases rename with
  | host fromHost toHost | service fromHost fromService toHost toService => exact cons_ne_nil _ _

end Rename

def Rename.replaced (rename : Rename) (text : List Char) : List Char :=
  rename.toName ++ text.drop rename.fromName.length

variable {renames : List Rename} {rename : Rename} {text : List Char}

theorem textRename_starts (found : textRename renames text = some rename) :
    rename.fromName <+: text := by
  rw [textRename] at found
  have starts := find?_some found
  exact isPrefixOf_iff_prefix.mp starts

theorem not_starts_of_textRename (notFound : textRename renames text = none)
    (member : rename ∈ renames) : ¬rename.fromName <+: text := by
  have never := find?_eq_none.mp notFound rename member
  exact mt isPrefixOf_iff_prefix.mpr never

theorem exists_of_fieldsRename {fields : List (List Char)}
    (found : fieldsRename renames fields = some rename) :
    ∃ rest, fields = rename.fromFields ++ rest := by
  rw [fieldsRename] at found
  have starts := find?_some found
  obtain ⟨rest, isFields⟩ := isPrefixOf_iff_prefix.mp starts
  exact ⟨rest, isFields.symm⟩

theorem intercalate_renamedFields (renames : List Rename) (text : List Char) :
    [';'].intercalate (renamedFields renames (text.splitOn ';')) =
      (fieldsRename renames (text.splitOn ';')).elim text fun rename => rename.replaced text := by
  rw [renamedFields]
  cases found : fieldsRename renames (text.splitOn ';') with
  | none => exact intercalate_splitOn ';'
  | some rename =>
    obtain ⟨rest, isFields⟩ := exists_of_fieldsRename found
    have isDropped : (text.splitOn ';').drop rename.fromFields.length = rest := by
      rw [isFields, drop_left]
    dsimp only [Option.elim]
    rw [isDropped, Rename.replaced, rename.toName_eq, rename.fromName_eq]
    exact Fields.intercalate_replace rename.fromFields_ne_nil rename.toFields_ne_nil isFields

end MonitorMerlin
