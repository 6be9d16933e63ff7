import MonitorMerlin.Library.Trim
import MonitorMerlin.Pgroup.Init

/-! # Who is in the same poller group -/

namespace MonitorMerlin

open List
open Sorting
open Text
open Trim

def reSplitFrom : List Char → List (List Char) → List (List Char)
  | field, [] => [field]
  | field, piece :: pieces =>
    field.rdropWhile isBlank :: reSplitFrom (piece.dropWhile isBlank) pieces

/-- `merlin_node.set` of `hostgroups`. -/
def setHostgroups (v : List Char) : List (List Char) :=
  match v.splitOn ',' with
  | [] => []
  | field :: pieces => reSplitFrom field pieces

/-- `parse_hostgroups`. -/
def parseHostgroups (isspace : Char → Bool) (hostgroups : List Char) : List (List Char) :=
  (hostgroups.splitOn ',').map (trim isspace)

def moduleSameGroup (sorter : Sorter (List Char)) (hgs hgs2 : List Char) : Option Bool := do
  let csstr ← getSortedCsstr sorter hgs
  let csstr2 ← getSortedCsstr sorter hgs2
  return decide (csstr = csstr2)

/-- The test of `parse` in `merlin_conf`. -/
def confSameGroup (hg1 hg2 : List Char) : Bool :=
  decide ((setHostgroups hg1).toFinset = (setHostgroups hg2).toFinset)

def toolSameGroup (isspace : Char → Bool) (hostgroups pollerHostgroups : List Char) : Bool :=
  decide (parseHostgroups isspace hostgroups = parseHostgroups isspace pollerHostgroups)

def HostgroupSetting.stripped (isspace : Char → Bool) (setting : HostgroupSetting) :
    List (List Char) :=
  setting.names.map fun name => trim isspace name.toList

theorem reSplitFrom_settingPieces
    {blanks : List Char} {name : String} {others : List (Joint × String)}
    (clean : ∀ other ∈ name :: others.map Prod.snd, CleanName other) {piece : List Char}
    {pieces : List (List Char)} (isPieces : settingPieces blanks name others = piece :: pieces)
    (blank : ∀ char ∈ blanks, isBlank char = true) :
    reSplitFrom (piece.dropWhile isBlank) pieces =
      (name :: others.map Prod.snd).map String.toList := by
  induction others generalizing blanks name piece pieces with
  | nil =>
    cases isPieces
    rw [reSplitFrom, (clean name mem_cons_self).dropWhile_last blank]
    rfl
  | cons other others ih =>
    obtain ⟨joint, next⟩ := other
    obtain ⟨isClean, later⟩ := forall_mem_cons.mp clean
    obtain ⟨second, rest, isRest⟩ :=
      exists_cons_of_ne_nil (@settingPieces_ne_nil joint.behind next others)
    rw [settingPieces, isRest] at isPieces
    cases isPieces
    rw [reSplitFrom, isClean.stripped.dropWhile_front isClean.nonempty blank,
      rdropWhile_blanks joint.blankBefore isClean.stripped.back,
      ih later isRest joint.blankBehind]
    rfl

theorem setHostgroups_value (setting : HostgroupSetting) :
    setHostgroups setting.value = setting.names.map String.toList := by
  obtain ⟨first, others, clean⟩ := setting
  have isClean := clean first mem_cons_self
  rw [setHostgroups, HostgroupSetting.splitOn_value, HostgroupSetting.pieces]
  cases isPieces : settingPieces [] first others with
  | nil => exact absurd isPieces settingPieces_ne_nil
  | cons piece pieces =>
    have fields := reSplitFrom_settingPieces clean isPieces (by simp)
    have noBlanks : piece.dropWhile isBlank = piece := by
      cases others with
      | nil =>
        cases isPieces
        exact isClean.stripped.front
      | cons other others =>
        cases isPieces
        rw [nil_append]
        exact dropWhile_append_of_stripped isClean.nonempty isClean.stripped.front _
    rw [noBlanks] at fields
    exact fields

section Strip

variable {isspace : Char → Bool} (blanks : ∀ char, isBlank char = true → isspace char = true)

include blanks in
theorem trim_settingPieces {front : List Char} (blank : Blank isspace front) (name : String)
    (others : List (Joint × String)) :
    (settingPieces front name others).map (trim isspace) =
      (name :: others.map Prod.snd).map fun name => trim isspace name.toList := by
  induction others generalizing front name with
  | nil =>
    have around := trim_around blank blank_nil name.toList
    rw [append_nil] at around
    rw [settingPieces, map_singleton, around]
    rfl
  | cons other others ih =>
    obtain ⟨joint, next⟩ := other
    have blankBehind : Blank isspace joint.behind :=
      fun char member => blanks char (joint.blankBehind char member)
    rw [settingPieces, map_cons, ih blankBehind,
      trim_around blank fun char member => blanks char (joint.blankBefore char member)]
    rfl

include blanks in
theorem parseHostgroups_value (setting : HostgroupSetting) :
    parseHostgroups isspace setting.value = setting.stripped isspace := by
  rw [parseHostgroups, HostgroupSetting.splitOn_value]
  exact trim_settingPieces blanks blank_nil setting.first setting.others

theorem moduleSameGroup_eq_some_iff (sorter : Sorter (List Char))
    (first second : HostgroupSetting) (answer : Bool) :
    moduleSameGroup sorter first.value second.value = some answer ↔
      (first.Roomy ∧ second.Roomy) ∧ (first.names.Perm second.names ↔ answer = true) := by
  have perms : first.csstr sorter = second.csstr sorter ↔ first.names.Perm second.names :=
    HostgroupSetting.csstr_eq_iff sorter
  rw [moduleSameGroup]
  by_cases roomy : first.Roomy
  · rw [HostgroupSetting.getSortedCsstr_of_roomy sorter roomy]
    by_cases otherRoomy : second.Roomy
    · rw [HostgroupSetting.getSortedCsstr_of_roomy sorter otherRoomy]
      show some (decide _) = some answer ↔ _
      rw [Option.some.injEq, Bool.eq_iff_iff, decide_eq_true_iff, perms]
      simp [roomy, otherRoomy]
    · rw [HostgroupSetting.getSortedCsstr_of_not_roomy sorter otherRoomy]
      simp [otherRoomy]
  · rw [HostgroupSetting.getSortedCsstr_of_not_roomy sorter roomy]
    simp [roomy]

include blanks in
/-- The answers are the same when the names are the same in the same order, or when
some name is only in one of the settings, and the arrays of the module are large
enough. -/
theorem same_answers_iff (sorter : Sorter (List Char)) (first second : HostgroupSetting) :
    (moduleSameGroup sorter first.value second.value =
        some (confSameGroup first.value second.value) ∧
      toolSameGroup isspace first.value second.value =
        confSameGroup first.value second.value) ↔
      (first.Roomy ∧ second.Roomy) ∧
        (first.names.Perm second.names ∧ first.stripped isspace = second.stripped isspace ∨
          first.names.toFinset ≠ second.names.toFinset ∧
            first.stripped isspace ≠ second.stripped isspace) := by
  have image : ∀ names : List String,
      (names.map String.toList).toFinset = names.toFinset.image String.toList :=
    fun names => Multiset.toFinset_map String.toList (names : Multiset String)
  have sets : confSameGroup first.value second.value = true ↔
      first.names.toFinset = second.names.toFinset := by
    rw [confSameGroup, decide_eq_true_iff, setHostgroups_value, setHostgroups_value, image, image]
    exact (Finset.image_injective fun _ _ same => String.toList_inj.mp same).eq_iff
  have coarser : first.names.Perm second.names → first.names.toFinset = second.names.toFinset :=
    toFinset_eq_of_perm _ _
  rw [moduleSameGroup_eq_some_iff, sets, toolSameGroup, Bool.eq_iff_iff, decide_eq_true_iff, sets,
    parseHostgroups_value blanks, parseHostgroups_value blanks]
  tauto

end Strip

theorem same_answers_blankSetting :
    moduleSameGroup (insertionSorter _) blankSetting.value tightSetting.value =
        some (confSameGroup blankSetting.value tightSetting.value) ∧
      toolSameGroup isBlank blankSetting.value tightSetting.value =
        confSameGroup blankSetting.value tightSetting.value := by
  have long : ∃ name ∈ blankSetting.names, 1 < name.toList.length := ⟨"none", by decide, by decide⟩
  exact (same_answers_iff (fun _ => id) (insertionSorter _) blankSetting tightSetting).mpr
    ⟨⟨.inl long, .inl long⟩, .inl ⟨.refl _, rfl⟩⟩

def reversedSetting : HostgroupSetting where
  first := "none"
  others := tightSetting.others.map fun pair => (pair.1, "b")
  clean := fun name member => tightSetting.clean name (mem_reverse.mp member)

theorem different_answers_reversedSetting :
    ¬ (moduleSameGroup (insertionSorter _) tightSetting.value reversedSetting.value =
        some (confSameGroup tightSetting.value reversedSetting.value) ∧
      toolSameGroup isBlank tightSetting.value reversedSetting.value =
        confSameGroup tightSetting.value reversedSetting.value) := by
  rintro ⟨_, same⟩
  exact absurd same (by decide)

end MonitorMerlin
