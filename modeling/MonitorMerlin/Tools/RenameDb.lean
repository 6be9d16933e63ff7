import MonitorMerlin.Tools.RenameLog

/-! # Names in the database -/

namespace MonitorMerlin

open List

structure ReportRow where
  hostName : List Char
  serviceDescription : Option (List Char)
  deriving DecidableEq, Repr

/-- An `UPDATE` on a row. -/
def Rename.update (rename : Rename) (row : ReportRow) : ReportRow :=
  match rename with
  | .host fromHost toHost =>
    if row.hostName = fromHost then { row with hostName := toHost } else row
  | .service fromHost fromService toHost toService =>
    if row.hostName = fromHost ∧ row.serviceDescription = some fromService then
      { hostName := toHost, serviceDescription := some toService }
    else
      row

/-- `rename_db`. -/
def renameDb (renames : List Rename) (reportData : List ReportRow) : List ReportRow :=
  renames.foldl (fun rows rename => rows.map rename.update) reportData

def renamedRow (renames : List Rename) (row : ReportRow) : ReportRow :=
  renames.foldl (fun row rename => rename.update row) row

namespace ReportRow

def fields (row : ReportRow) (rest : List (List Char)) : List (List Char) :=
  row.hostName :: (row.serviceDescription.toList ++ rest)

def named (row : ReportRow) (fields : List (List Char)) : ReportRow :=
  { hostName := fields.headD []
    serviceDescription := row.serviceDescription.bind fun _ => fields[1]? }

end ReportRow

def loggedRow (renames : List Rename) (row : ReportRow) (rest : List (List Char)) : ReportRow :=
  row.named (renamedFields renames (row.fields rest))

def Rename.logged (rename : Rename) (row : ReportRow) : ReportRow :=
  match rename with
  | .host _ toHost => { row with hostName := toHost }
  | .service _ _ toHost toService =>
    { hostName := toHost, serviceDescription := row.serviceDescription.map fun _ => toService }

def renamesFrom (renames : List Rename) (fields : List (List Char)) : List Rename :=
  renames.dropWhile fun rename => !rename.fromFields.isPrefixOf fields

def Rename.Applies (rename : Rename) (row : ReportRow) : Prop :=
  match rename with
  | .host fromHost _ => row.hostName = fromHost
  | .service fromHost fromService _ _ =>
    row.hostName = fromHost ∧ row.serviceDescription = some fromService

inductive Leads : List Rename → ReportRow → ReportRow → Prop where
  | stays {renames : List Rename} {row : ReportRow}
      (never : ∀ rename ∈ renames, ¬ rename.Applies row) : Leads renames row row
  | moves {skipped later : List Rename} {rename : Rename} {row target : ReportRow}
      (never : ∀ other ∈ skipped, ¬ other.Applies row) (applies : rename.Applies row)
      (leads : Leads later (rename.logged row) target) :
      Leads (skipped ++ rename :: later) row target

def LeadsBack (renames : List Rename) (row : ReportRow) (rest : List (List Char)) : Prop :=
  match renamesFrom renames (row.fields rest) with
  | [] => True
  | first :: later =>
    (first.Applies row → Leads later (first.logged row) (first.logged row)) ∧
      (¬ first.Applies row → Leads later row (first.logged row))

section Rows

variable {renames after : List Rename} {row : ReportRow} {rest : List (List Char)} {rename : Rename}

theorem renameDb_eq_map (renames : List Rename) (reportData : List ReportRow) :
    renameDb renames reportData = reportData.map (renamedRow renames) := by
  induction renames generalizing reportData with
  | nil => exact (map_id' reportData).symm
  | cons rename renames step =>
    calc
      renameDb (rename :: renames) reportData = renameDb renames (reportData.map rename.update) :=
        rfl
      _ = (reportData.map rename.update).map (renamedRow renames) := step _
      _ = reportData.map (renamedRow (rename :: renames)) := map_map

theorem Rename.update_of_applies (applies : rename.Applies row) :
    rename.update row = rename.logged row := by
  cases rename with
  | host fromHost toHost => exact if_pos applies
  | service fromHost fromService toHost toService =>
    have isService : row.serviceDescription = some fromService := applies.2
    rw [Rename.logged, isService]
    exact if_pos applies

theorem Rename.update_of_not_applies (other : ¬ rename.Applies row) : rename.update row = row := by
  cases rename with
  | host fromHost toHost | service fromHost fromService toHost toService => exact if_neg other

theorem Rename.Applies.starts (applies : rename.Applies row) (rest : List (List Char)) :
    rename.fromFields <+: row.fields rest := by
  cases rename with
  | host fromHost toHost =>
    obtain rfl : row.hostName = fromHost := applies
    exact ⟨row.serviceDescription.toList ++ rest, rfl⟩
  | service fromHost fromService toHost toService =>
    obtain ⟨rfl, isService⟩ := applies
    rw [ReportRow.fields, isService]
    exact ⟨rest, rfl⟩

theorem renamedRow_renamesFrom (renames : List Rename) (row : ReportRow) (rest : List (List Char)) :
    renamedRow renames row = renamedRow (renamesFrom renames (row.fields rest)) row := by
  induction renames with
  | nil => rfl
  | cons rename renames step =>
    by_cases starts : rename.fromFields <+: row.fields rest
    · have found := isPrefixOf_iff_prefix.mpr starts
      rw [renamesFrom, dropWhile_cons_of_neg]
      rw [found]
      exact Bool.false_ne_true
    · have skipped : renamesFrom (rename :: renames) (row.fields rest) =
          renamesFrom renames (row.fields rest) := by
        rw [renamesFrom, dropWhile_cons_of_pos]
        · rfl
        · rw [Bool.not_eq_true', ← Bool.not_eq_true, isPrefixOf_iff_prefix]
          exact starts
      calc
        renamedRow (rename :: renames) row = renamedRow renames (rename.update row) := rfl
        _ = renamedRow renames row := by
          rw [rename.update_of_not_applies fun applies => starts (applies.starts rest)]
        _ = renamedRow (renamesFrom (rename :: renames) (row.fields rest)) row := by
          rw [skipped, step]

theorem loggedRow_of_none (isNone : fieldsRename renames (row.fields rest) = none) :
    loggedRow renames row rest = row := by
  rw [loggedRow, renamedFields, isNone]
  obtain ⟨hostName, serviceDescription⟩ := row
  cases serviceDescription with
  | none | some service => rfl

theorem loggedRow_of_some (isSome : fieldsRename renames (row.fields rest) = some rename) :
    loggedRow renames row rest = rename.logged row := by
  rw [loggedRow, renamedFields, isSome]
  obtain ⟨hostName, serviceDescription⟩ := row
  cases rename with
  | host fromHost toHost | service fromHost fromService toHost toService =>
    cases serviceDescription with
    | none | some service => rfl

theorem renamedRow_of_never (never : ∀ rename ∈ renames, ¬ rename.Applies row) :
    renamedRow renames row = row := by
  induction renames with
  | nil => rfl
  | cons rename renames ih =>
    rw [forall_mem_cons] at never
    rw [renamedRow, foldl_cons, rename.update_of_not_applies never.1]
    exact ih never.2

theorem Leads.cons (other : ¬ rename.Applies row) {target : ReportRow}
    (leads : Leads renames row target) : Leads (rename :: renames) row target := by
  cases leads with
  | stays never => exact .stays (forall_mem_cons.mpr ⟨other, never⟩)
  | moves never applies leads =>
    rw [← cons_append]
    exact .moves (forall_mem_cons.mpr ⟨other, never⟩) applies leads

theorem leads_renamedRow (renames : List Rename) (row : ReportRow) :
    Leads renames row (renamedRow renames row) := by
  induction renames generalizing row with
  | nil => exact .stays nofun
  | cons rename renames ih =>
    rw [renamedRow, foldl_cons]
    by_cases applies : rename.Applies row
    · rw [rename.update_of_applies applies, ← nil_append (rename :: renames)]
      exact .moves nofun applies (ih _)
    · rw [rename.update_of_not_applies applies]
      exact (ih row).cons applies

theorem leads_iff {target : ReportRow} :
    Leads renames row target ↔ renamedRow renames row = target := by
  constructor
  · intro leads
    induction leads with
    | stays never => exact renamedRow_of_never never
    | @moves skipped later rename row target never applies _ ih =>
      calc renamedRow (skipped ++ rename :: later) row
        _ = renamedRow (rename :: later) (renamedRow skipped row) := foldl_append
        _ = renamedRow later (rename.update row) := by
          rw [renamedRow_of_never never]
          rfl
        _ = target := by rw [rename.update_of_applies applies, ih]
  · rintro rfl
    exact leads_renamedRow renames row

theorem renamedRow_eq_loggedRow_iff (renames : List Rename) (row : ReportRow)
    (rest : List (List Char)) :
    renamedRow renames row = loggedRow renames row rest ↔ LeadsBack renames row rest := by
  have isFirst : fieldsRename renames (row.fields rest) =
      (renamesFrom renames (row.fields rest)).head? :=
    find?_eq_head?_dropWhile_not _ renames
  rw [renamedRow_renamesFrom renames row rest, LeadsBack]
  cases isFrom : renamesFrom renames (row.fields rest) with
  | nil =>
    rw [isFrom] at isFirst
    rw [loggedRow_of_none isFirst]
    exact iff_of_true rfl trivial
  | cons rename later =>
    rw [isFrom] at isFirst
    rw [loggedRow_of_some isFirst, renamedRow, foldl_cons, ← renamedRow, ← leads_iff]
    by_cases applies : rename.Applies row
    · rw [rename.update_of_applies applies]
      simp [applies]
    · rw [rename.update_of_not_applies applies]
      simp [applies]

end Rows

def alertHead (stamp : List Char) (row : ReportRow) : List Char :=
  stamp ++ (if row.serviceDescription = none then "HOST ALERT" else "SERVICE ALERT").toList

def alertLine (stamp : List Char) (row : ReportRow) (rest : List (List Char)) : List Char :=
  alertHead stamp row ++ [':', ' '] ++ [';'].intercalate (row.fields rest)

def ReportRow.nameIn (row : ReportRow) (line : List Char) : ReportRow :=
  row.named ((recordParts line).elim [] fun parts => parts.2.tail.splitOn ';')

def NoSemicolon (fields : List (List Char)) : Prop := ∀ field ∈ fields, ';' ∉ field

instance (fields : List (List Char)) : Decidable (NoSemicolon fields) :=
  inferInstanceAs (Decidable (∀ field ∈ fields, ';' ∉ field))

section Lines

variable {renames : List Rename} {row : ReportRow} {rest fields : List (List Char)}
  {stamp : List Char}

theorem recordKind_alertHead (stamp : List Char) (row : ReportRow) :
    recordKind (alertHead stamp row) = .named := by
  have ends : "ALERT".toList <:+ alertHead stamp row := by
    rw [alertHead]
    split
    · exact ⟨stamp ++ "HOST ".toList, append_assoc _ _ _⟩
    · exact ⟨stamp ++ "SERVICE ".toList, append_assoc _ _ _⟩
  have found : previousIs (alertHead stamp row) "ALERT" = true := isSuffixOf_iff_suffix.mpr ends
  rw [recordKind, found]
  rfl

theorem recordParts_alertHead (isStamp : stamp.length = 13) (row : ReportRow) (text : List Char) :
    recordParts (alertHead stamp row ++ [':', ' '] ++ text) =
      some (alertHead stamp row, ' ' :: text) := by
  have absent : ':' ∉
      (if row.serviceDescription = none then "HOST ALERT" else "SERVICE ALERT").toList := by
    split <;> decide
  rw [alertHead, recordParts, append_assoc, append_assoc, ← isStamp, drop_left, take_left,
    cons_append, strchr_append absent]
  rfl

theorem NoSemicolon.renamedFields (noFields : NoSemicolon fields)
    (noNames : ∀ rename ∈ renames, NoSemicolon rename.toFields) :
    NoSemicolon (renamedFields renames fields) := by
  rw [MonitorMerlin.renamedFields]
  cases found : fieldsRename renames fields with
  | none => exact noFields
  | some rename =>
    intro field member
    rcases mem_append.mp member with inName | inRest
    · exact noNames rename (mem_of_find?_eq_some found) field inName
    · exact noFields field (mem_of_mem_drop inRest)

theorem nameIn_renamedLine (isStamp : stamp.length = 13) (noFields : NoSemicolon (row.fields rest))
    (noNames : ∀ rename ∈ renames, NoSemicolon rename.toFields) :
    row.nameIn (renamedLine renames (alertLine stamp row rest)) = loggedRow renames row rest := by
  have notEmpty : row.fields rest ≠ [] := cons_ne_nil _ _
  have written : renamedLine renames (alertLine stamp row rest) =
      alertHead stamp row ++ [':', ' '] ++
        [';'].intercalate (renamedFields renames (row.fields rest)) := by
    rw [alertLine, renamedLine, recordParts_alertHead isStamp]
    dsimp only
    rw [recordKind_alertHead]
    dsimp only
    rw [renamedNamed, head?_cons, if_pos rfl, tail_cons, splitOn_intercalate ';' noFields notEmpty]
  rw [written, ReportRow.nameIn, recordParts_alertHead isStamp, Option.elim_some, tail_cons,
    splitOn_intercalate ';' (noFields.renamedFields noNames) (renamedFields_ne_nil notEmpty)]
  rfl

end Lines

/-- The rows are given the names that `parse_line` writes in alerts of their objects,
with whole fields compared, if and only if the renames behind the first of each line
lead back to the name that it gives. -/
theorem renameDb_eq_logged_iff (renames : List Rename) (reportData : List ReportRow)
    (stamp : ReportRow → List Char) (rest : ReportRow → List (List Char))
    (isStamp : ∀ row ∈ reportData, (stamp row).length = 13)
    (noFields : ∀ row ∈ reportData, NoSemicolon (row.fields (rest row)))
    (noNames : ∀ rename ∈ renames, NoSemicolon rename.toFields) :
    renameDb renames reportData = reportData.map (fun row =>
        row.nameIn (renamedLine renames (alertLine (stamp row) row (rest row)))) ↔
      ∀ row ∈ reportData, LeadsBack renames row (rest row) := by
  rw [renameDb_eq_map, map_inj_left]
  refine forall₂_congr fun row member => ?_
  rw [nameIn_renamedLine (isStamp row member) (noFields row member) noNames]
  exact renamedRow_eq_loggedRow_iff renames row (rest row)

theorem renameDb_eq_logged_back :
    let renames : List Rename := [.service ['x'] ['s'] ['y'] ['t'], .host ['a'] ['b'],
      .host ['b'] ['c'], .host ['c'] ['b']]
    let reportData : List ReportRow := [⟨['x'], some ['s']⟩, ⟨['a'], none⟩]
    renameDb renames reportData = reportData.map fun row =>
      row.nameIn (renamedLine renames (alertLine "[1600000000] ".toList row [['D']])) := by
  refine (renameDb_eq_logged_iff _ _ (fun _ => "[1600000000] ".toList) (fun _ => [['D']])
    (by decide) (by decide) (by decide)).mpr ?_
  simp only [forall_mem_cons]
  refine ⟨⟨fun _ => leads_iff.mpr (by decide), fun other => absurd ⟨rfl, rfl⟩ other⟩,
    ⟨fun _ => leads_iff.mpr (by decide), fun other => absurd rfl other⟩, nofun⟩

theorem renameDb_ne_logged :
    renameDb [.host ['a'] ['b'], .host ['b'] ['c']] [⟨['a'], none⟩] = [⟨['c'], none⟩] ∧
    ReportRow.nameIn ⟨['a'], none⟩ (renamedLine [.host ['a'] ['b'], .host ['b'] ['c']]
      (alertLine "[1600000000] ".toList ⟨['a'], none⟩ ["DOWN".toList])) = ⟨['b'], none⟩ ∧
    parseLine [.host ['a'] ['b'], .host ['b'] ['c']] "[1600000000] HOST ALERT: a;DOWN".toList =
      .ok "[1600000000] HOST ALERT: b;DOWN\n".toList := by
  refine ⟨by decide, by decide, by decide⟩

end MonitorMerlin
