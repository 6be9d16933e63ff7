import MonitorMerlin.Library.Grouping
import MonitorMerlin.Library.Text
import MonitorMerlin.Pgroup.Objects

/-! # The hostgroups of pollers -/

namespace MonitorMerlin

open Grouping List
open Sorting
open Text

universe u

structure CleanName (name : String) : Prop where
  nonempty : name.toList ≠ []
  noComma : ',' ∉ name.toList
  stripped : Stripped name.toList

structure Joint where
  before : List Char
  behind : List Char
  blankBefore : ∀ char ∈ before, isBlank char = true
  blankBehind : ∀ char ∈ behind, isBlank char = true

def Joint.Tight (joint : Joint) : Prop := joint.before = [] ∧ joint.behind = []

instance (joint : Joint) : Decidable joint.Tight := inferInstanceAs (Decidable (_ ∧ _))

structure HostgroupSetting where
  first : String
  others : List (Joint × String)
  clean : ∀ name ∈ first :: others.map Prod.snd, CleanName name

def settingPieces : List Char → String → List (Joint × String) → List (List Char)
  | blanks, name, [] => [blanks ++ name.toList]
  | blanks, name, (joint, next) :: others =>
    (blanks ++ name.toList ++ joint.before) :: settingPieces joint.behind next others

namespace HostgroupSetting

def pieces (setting : HostgroupSetting) : List (List Char) :=
  settingPieces [] setting.first setting.others

def value (setting : HostgroupSetting) : List Char := [','].intercalate setting.pieces

def names (setting : HostgroupSetting) : List String := setting.first :: setting.others.map Prod.snd

def Tight (setting : HostgroupSetting) : Prop := ∀ other ∈ setting.others, other.1.Tight

instance (setting : HostgroupSetting) : Decidable setting.Tight :=
  inferInstanceAs (Decidable (∀ other ∈ setting.others, _))

def Roomy (setting : HostgroupSetting) : Prop :=
  (∃ name ∈ setting.names, 1 < name.toList.length) ∨ ¬ setting.Tight

end HostgroupSetting

section Pieces

variable {blanks : List Char} {name : String} {others : List (Joint × String)}

theorem settingPieces_ne_nil : settingPieces blanks name others ≠ [] := by
  cases others <;> simp [settingPieces]

theorem comma_notMem_blanks (blank : ∀ char ∈ blanks, isBlank char = true) : ',' ∉ blanks :=
  fun member => absurd (blank ',' member) (by decide)

theorem CleanName.dropWhile_last (clean : CleanName name)
    (blank : ∀ char ∈ blanks, isBlank char = true) :
    (blanks ++ name.toList).dropWhile isBlank = name.toList := by
  have front := clean.stripped.dropWhile_front clean.nonempty blank []
  rwa [append_nil, append_nil] at front

theorem comma_notMem_settingPieces (blank : ∀ char ∈ blanks, isBlank char = true)
    (clean : ∀ other ∈ name :: others.map Prod.snd, CleanName other) :
    ∀ piece ∈ settingPieces blanks name others, ',' ∉ piece := by
  induction others generalizing blanks name with
  | nil =>
    intro piece member
    rw [settingPieces, mem_singleton] at member
    rw [member, mem_append, not_or]
    exact ⟨comma_notMem_blanks blank, (clean name mem_cons_self).noComma⟩
  | cons other others ih =>
    obtain ⟨joint, next⟩ := other
    intro piece member
    rcases mem_cons.mp member with rfl | later
    · rw [mem_append, mem_append, not_or, not_or]
      exact ⟨⟨comma_notMem_blanks blank, (clean name mem_cons_self).noComma⟩,
        comma_notMem_blanks joint.blankBefore⟩
    · apply ih joint.blankBehind _ piece later
      exact fun other isOther => clean other (mem_cons_of_mem _ isOther)

end Pieces

theorem HostgroupSetting.splitOn_value (setting : HostgroupSetting) :
    setting.value.splitOn ',' = setting.pieces := by
  apply splitOn_intercalate
  · exact comma_notMem_settingPieces (by simp) setting.clean
  · exact settingPieces_ne_nil

section Tight

variable {blanks : List Char} {name : String} {others : List (Joint × String)}

theorem settingPieces_of_tight (tight : ∀ other ∈ others, other.1.Tight) :
    settingPieces [] name others = (name :: others.map Prod.snd).map String.toList := by
  induction others generalizing name with
  | nil => rfl
  | cons other others ih =>
    obtain ⟨joint, next⟩ := other
    obtain ⟨noneBefore, noneBehind⟩ := tight (joint, next) mem_cons_self
    have rest := @ih next fun other member => tight other (mem_cons_of_mem _ member)
    rw [settingPieces, show joint.before = [] from noneBefore,
      show joint.behind = [] from noneBehind, rest]
    simp

theorem tight_of_stripped (blank : ∀ char ∈ blanks, isBlank char = true)
    (stripped : ∀ piece ∈ settingPieces blanks name others, Stripped piece) :
    blanks = [] ∧ ∀ other ∈ others, other.1.Tight := by
  induction others generalizing blanks name with
  | nil =>
    have whole := stripped (blanks ++ name.toList) mem_cons_self
    exact ⟨eq_nil_of_dropWhile blank whole.front, by simp⟩
  | cons other others ih =>
    obtain ⟨joint, next⟩ := other
    have whole := stripped (blanks ++ name.toList ++ joint.before) mem_cons_self
    have front := whole.front
    rw [append_assoc] at front
    obtain ⟨noneBehind, tight⟩ := @ih joint.behind next joint.blankBehind
      fun piece member => stripped piece (mem_cons_of_mem _ member)
    refine ⟨eq_nil_of_dropWhile blank front, ?_⟩
    intro other member
    rcases mem_cons.mp member with rfl | later
    · exact ⟨eq_nil_of_rdropWhile joint.blankBefore whole.back, noneBehind⟩
    · exact tight other later

end Tight

/-- The names that `add_selection` adds. -/
def addSelectionNames (value : List Char) : List String :=
  match value.splitOn ',' with
  | [] => []
  | first :: rest =>
    (first :: rest.map fun name => name.dropWhile isBlank).map fun name =>
      String.ofList (name.rdropWhile isBlank)

section Stripping

variable {blanks : List Char} {name : String} {others : List (Joint × String)}

theorem strip_settingPieces (blank : ∀ char ∈ blanks, isBlank char = true)
    (clean : ∀ other ∈ name :: others.map Prod.snd, CleanName other) :
    (settingPieces blanks name others).map
        (fun piece => String.ofList ((piece.dropWhile isBlank).rdropWhile isBlank)) =
      name :: others.map Prod.snd := by
  induction others generalizing blanks name with
  | nil =>
    have isClean := clean name mem_cons_self
    simp only [settingPieces, map_cons, map_nil]
    rw [isClean.dropWhile_last blank, isClean.stripped.back, String.ofList_toList]
  | cons other others ih =>
    obtain ⟨joint, next⟩ := other
    obtain ⟨isClean, later⟩ := forall_mem_cons.mp clean
    simp only [settingPieces, map_cons]
    rw [isClean.stripped.dropWhile_front isClean.nonempty blank,
      rdropWhile_blanks joint.blankBefore isClean.stripped.back, String.ofList_toList,
      @ih joint.behind next joint.blankBehind later]

end Stripping

theorem addSelectionNames_value (setting : HostgroupSetting) :
    addSelectionNames setting.value = setting.names := by
  obtain ⟨first, others, clean⟩ := setting
  have isClean := clean first mem_cons_self
  rw [addSelectionNames, HostgroupSetting.splitOn_value, HostgroupSetting.names,
    HostgroupSetting.pieces]
  cases others with
  | nil => simp [settingPieces, isClean.stripped.back]
  | cons other others =>
    obtain ⟨joint, next⟩ := other
    have stripped := @strip_settingPieces joint.behind next others joint.blankBehind
      (forall_mem_cons.mp clean).2
    simp only [settingPieces, map_cons, map_map, nil_append]
    rw [rdropWhile_blanks joint.blankBefore isClean.stripped.back, String.ofList_toList]
    congr 1

def csstrEntries : List (List Char) → List (List Char)
  | [] => []
  | [last] => [last.dropWhile isBlank]
  | piece :: next :: pieces =>
    let entry := piece.dropWhile isBlank
    if entry = [] then
      csstrEntries (next :: pieces)
    else
      entry.rdropWhile isBlank :: csstrEntries (next :: pieces)

/-- `ret` with another entry. -/
def csstrAppend (ret entry : List Char) : List Char :=
  if ret = [] then entry else ret ++ ',' :: entry

/-- `get_sorted_csstr`, with room for entries. -/
def getSortedCsstrIn (sorter : Sorter (List Char)) (room : Nat) (origStr : List Char) :
    Option (List Char) :=
  let entries := csstrEntries (origStr.splitOn ',')
  if entries.length ≤ room then
    some ((sorter.sort strcmp entries).foldl csstrAppend [])
  else
    none

/-- `get_sorted_csstr`. -/
def getSortedCsstr (sorter : Sorter (List Char)) (origStr : List Char) : Option (List Char) :=
  getSortedCsstrIn sorter (origStr.length / 2) origStr

theorem csstrEntries_settingPieces
    {blanks : List Char} {name : String} {others : List (Joint × String)}
    (blank : ∀ char ∈ blanks, isBlank char = true)
    (clean : ∀ other ∈ name :: others.map Prod.snd, CleanName other) :
    csstrEntries (settingPieces blanks name others) =
      (name :: others.map Prod.snd).map String.toList := by
  induction others generalizing blanks name with
  | nil =>
    simp only [settingPieces, csstrEntries, map_cons, map_nil]
    rw [(clean name mem_cons_self).dropWhile_last blank]
  | cons other others ih =>
    obtain ⟨joint, next⟩ := other
    obtain ⟨isClean, later⟩ := forall_mem_cons.mp clean
    have rest := @ih joint.behind next joint.blankBehind later
    have some : settingPieces joint.behind next others ≠ [] := settingPieces_ne_nil
    obtain ⟨second, pieces, isRest⟩ := exists_cons_of_ne_nil some
    rw [settingPieces, isRest, csstrEntries,
      isClean.stripped.dropWhile_front isClean.nonempty blank,
      if_neg (by simp [isClean.nonempty]),
      rdropWhile_blanks joint.blankBefore isClean.stripped.back, ← isRest, rest]
    rfl

theorem foldl_csstrAppend {ret : List Char} (some : ret ≠ []) (entries : List (List Char)) :
    entries.foldl csstrAppend ret = [','].intercalate (ret :: entries) := by
  induction entries generalizing ret with
  | nil => simp [List.intercalate]
  | cons entry entries ih =>
    rw [foldl_cons, csstrAppend, if_neg some, ih (by simp)]
    cases entries <;> simp [List.intercalate]

theorem foldl_csstrAppend_nil
    {entries : List (List Char)} (nonempty : ∀ entry ∈ entries, entry ≠ []) :
    entries.foldl csstrAppend [] = [','].intercalate entries := by
  cases entries with
  | nil => rfl
  | cons entry entries =>
    rw [foldl_cons, csstrAppend, if_pos rfl, foldl_csstrAppend (nonempty entry mem_cons_self)]

namespace HostgroupSetting

variable (sorter : Sorter (List Char)) (setting : HostgroupSetting)

def sortedNames : List (List Char) := sorter.sort strcmp (setting.names.map String.toList)

def csstr : List Char := [','].intercalate (setting.sortedNames sorter)

theorem sortedNames_perm : (setting.sortedNames sorter).Perm (setting.names.map String.toList) :=
  sorter.perm (strcmp_consistent _)

theorem clean_of_mem_sortedNames {text : List Char} (member : text ∈ setting.sortedNames sorter) :
    ∃ name ∈ setting.names, name.toList = text ∧ CleanName name := by
  obtain ⟨name, isName, same⟩ := mem_map.mp ((setting.sortedNames_perm sorter).mem_iff.mp member)
  exact ⟨name, isName, same, setting.clean name isName⟩

theorem splitOn_csstr : (setting.csstr sorter).splitOn ',' = setting.sortedNames sorter := by
  apply splitOn_intercalate
  · intro text member
    obtain ⟨name, _, rfl, isClean⟩ := setting.clean_of_mem_sortedNames sorter member
    exact isClean.noComma
  · intro none
    have perm := setting.sortedNames_perm sorter
    rw [none] at perm
    exact absurd perm.nil_eq (by simp [names])

theorem csstr_eq_iff {setting other : HostgroupSetting} :
    setting.csstr sorter = other.csstr sorter ↔ setting.names.Perm other.names := by
  have texts : setting.csstr sorter = other.csstr sorter ↔
      setting.sortedNames sorter = other.sortedNames sorter := by
    constructor
    · intro same
      rw [← splitOn_csstr, same, splitOn_csstr]
    · exact fun same => congrArg [','].intercalate same
  rw [texts, sortedNames, sortedNames, sort_eq_iff_perm]
  constructor
  · intro perm
    simpa [Function.comp_def] using perm.map String.ofList
  · exact fun perm => perm.map String.toList

end HostgroupSetting

theorem Joint.not_tight_iff (joint : Joint) :
    ¬ joint.Tight ↔ 0 < joint.before.length ∨ 0 < joint.behind.length := by
  simp only [Joint.Tight, length_pos_iff]
  tauto

section Room

variable {blanks : List Char} {name : String} {others : List (Joint × String)}

theorem room_settingPieces (clean : ∀ other ∈ name :: others.map Prod.snd, CleanName other) :
    2 * others.length + 1 ≤ ([','].intercalate (settingPieces blanks name others)).length ∧
      (2 * others.length + 2 ≤ ([','].intercalate (settingPieces blanks name others)).length ↔
        0 < blanks.length ∨ (∃ other ∈ name :: others.map Prod.snd, 1 < other.toList.length) ∨
          ∃ other ∈ others, ¬ other.1.Tight) := by
  have nonempty : 0 < name.toList.length := length_pos_iff.mpr (clean name mem_cons_self).nonempty
  induction others generalizing blanks name with
  | nil =>
    have length : ([','].intercalate (settingPieces blanks name [])).length =
        blanks.length + name.toList.length := by
      simp [settingPieces]
    rw [length]
    simp only [map_nil, mem_singleton, exists_eq_left, not_mem_nil, false_and,
      exists_false, or_false, length_nil]
    omega
  | cons other others ih =>
    obtain ⟨joint, next⟩ := other
    have later := (forall_mem_cons.mp clean).2
    have nextNonempty := length_pos_iff.mpr (later next mem_cons_self).nonempty
    obtain ⟨atLeast, more⟩ := @ih joint.behind next later nextNonempty
    rw [settingPieces, intercalate_cons_of_ne_nil settingPieces_ne_nil]
    simp only [length_append, length_singleton]
    rw [length_cons]
    have arithmetic :
        2 * (others.length + 1) + 2 ≤
            blanks.length + name.toList.length + joint.before.length + 1 +
              ([','].intercalate (settingPieces joint.behind next others)).length ↔
          0 < blanks.length ∨ 1 < name.toList.length ∨ 0 < joint.before.length ∨
            2 * others.length + 2 ≤
              ([','].intercalate (settingPieces joint.behind next others)).length := by
      omega
    have loose : (∃ other ∈ (joint, next) :: others, ¬ other.1.Tight) ↔
        (0 < joint.before.length ∨ 0 < joint.behind.length) ∨
          ∃ other ∈ others, ¬ other.1.Tight := by
      rw [exists_mem_cons_iff, Joint.not_tight_iff]
    have long :
        (∃ other ∈ name :: ((joint, next) :: others).map Prod.snd, 1 < other.toList.length) ↔
          1 < name.toList.length ∨
            ∃ other ∈ next :: others.map Prod.snd, 1 < other.toList.length := by
      rw [exists_mem_cons_iff, map_cons]
    rw [arithmetic, more, loose, long]
    refine ⟨by omega, ?_⟩
    simp only [or_assoc, or_left_comm]

end Room

theorem HostgroupSetting.fits_iff (setting : HostgroupSetting) :
    setting.names.length ≤ setting.value.length / 2 ↔ setting.Roomy := by
  obtain ⟨_, room⟩ := @room_settingPieces [] setting.first setting.others setting.clean
  have half : setting.names.length ≤ setting.value.length / 2 ↔
      2 * setting.others.length + 2 ≤ setting.value.length := by
    rw [names, length_cons, length_map]
    omega
  rw [half, value, pieces, room]
  simp [Roomy, Tight, names]

theorem HostgroupSetting.getSortedCsstr_value
    (sorter : Sorter (List Char)) (setting : HostgroupSetting) :
    getSortedCsstr sorter setting.value = if setting.names.length ≤ setting.value.length / 2 then
        some (setting.csstr sorter)
      else
        none := by
  have entries : csstrEntries (setting.value.splitOn ',') = setting.names.map String.toList := by
    rw [setting.splitOn_value]
    exact csstrEntries_settingPieces (by simp) setting.clean
  rw [getSortedCsstr, getSortedCsstrIn, entries, length_map]
  congr 2
  apply foldl_csstrAppend_nil
  intro text member
  obtain ⟨name, _, rfl, isClean⟩ := setting.clean_of_mem_sortedNames sorter member
  exact isClean.nonempty

theorem length_csstrEntries (last : List Char) (pieces : List (List Char)) :
    (csstrEntries (pieces ++ [last])).length =
      pieces.countP (fun piece => piece.dropWhile isBlank ≠ []) + 1 := by
  induction pieces with
  | nil => rfl
  | cons piece pieces ih =>
    obtain ⟨next, rest, isRest⟩ := exists_cons_of_ne_nil (concat_ne_nil last pieces)
    rw [cons_append, isRest, csstrEntries, ← isRest, countP_cons]
    split_ifs with blank notBlank notBlank
    · simp [blank] at notBlank
    · rw [ih]
    · rw [length_cons, ih]
    · simp [blank] at notBlank

/-- Each piece in front of the last comma that is not blank is an entry, and so is
what stands behind it. -/
theorem csstrEntries_fit_iff (origStr : List Char) :
    (csstrEntries (origStr.splitOn ',')).length ≤ origStr.length / 2 ↔
      2 * ((origStr.splitOn ',').dropLast.countP fun piece => piece.dropWhile isBlank ≠ []) + 2 ≤
        origStr.length := by
  obtain ⟨pieces, last, isPieces⟩ :=
    (eq_nil_or_concat' (origStr.splitOn ',')).resolve_left (splitOn_ne_nil ',' origStr)
  rw [isPieces, dropLast_concat, length_csstrEntries]
  omega

theorem csstrEntries_single_overflow :
    ¬ (csstrEntries ("a".toList.splitOn ',')).length ≤ "a".toList.length / 2 := by
  decide

variable {setting : HostgroupSetting}

theorem HostgroupSetting.getSortedCsstr_of_roomy (sorter : Sorter (List Char))
    (roomy : setting.Roomy) :
    getSortedCsstr sorter setting.value = some (setting.csstr sorter) := by
  rw [getSortedCsstr_value, if_pos (setting.fits_iff.mpr roomy)]

theorem HostgroupSetting.getSortedCsstr_of_not_roomy (sorter : Sorter (List Char))
    (short : ¬ setting.Roomy) : getSortedCsstr sorter setting.value = none := by
  rw [getSortedCsstr_value, if_neg (mt setting.fits_iff.mp short)]

end MonitorMerlin
