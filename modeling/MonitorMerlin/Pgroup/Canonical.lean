import MonitorMerlin.Library.Fields
import MonitorMerlin.Pgroup.Init

/-! # Canonical hostgroup lists -/

namespace MonitorMerlin

open Grouping List
open Sorting
open Text

universe u

def csstrItems (text : List Char) : List (List Char) :=
  ((text.splitOn ',').map strip).filter (· ≠ [])

theorem filter_csstrEntries
    {pieces : List (List Char)} (trimmed : ∀ last ∈ pieces.getLast?, Trimmed last) :
    (csstrEntries pieces).filter (· ≠ []) = (pieces.map strip).filter (· ≠ []) := by
  induction pieces using csstrEntries.induct with
  | case1 => rfl
  | case2 last =>
    have isTrimmed := trimmed last (by simp)
    rw [csstrEntries, map_singleton, isTrimmed.strip_eq]
  | case3 piece next pieces entry blank ih =>
    have noItem : strip piece = [] := by
      rw [strip, show piece.dropWhile isBlank = [] from blank]
      rfl
    have later := ih (by simpa using trimmed)
    rw [csstrEntries, if_pos blank, later]
    conv_rhs => rw [map_cons, noItem, filter_cons_of_neg (by simp)]
  | case4 piece next pieces entry some ih =>
    have later := ih (by simpa using trimmed)
    rw [csstrEntries, if_neg some, map_cons, ← strip, filter_cons, later, filter_cons]

/-- In the order of `strcmp`. -/
def StrcmpSorted (texts : List (List Char)) : Prop :=
  texts.Pairwise fun first second => strcmp first second ≤ 0

theorem foldl_csstrAppend_inOrder {entries : List (List Char)} (inOrder : StrcmpSorted entries) :
    entries.foldl csstrAppend [] = [','].intercalate (entries.filter (· ≠ [])) := by
  induction entries with
  | nil => rfl
  | cons entry entries ih =>
    obtain ⟨first, rest⟩ := pairwise_cons.mp inOrder
    by_cases empty : entry = []
    · rw [foldl_cons, csstrAppend, if_pos rfl, empty, ih rest, filter_cons_of_neg (by simp)]
    · have nonempty : ∀ other ∈ entry :: entries, other ≠ [] := by
        intro other member
        rcases mem_cons.mp member with rfl | later
        · exact empty
        · rintro rfl
          have compared := first [] later
          obtain ⟨char, chars, rfl⟩ := exists_cons_of_ne_nil empty
          simp [strcmp] at compared
      have allKept : (entry :: entries).filter (· ≠ []) = entry :: entries := by
        rw [filter_eq_self]
        intro other member
        simpa using nonempty other member
      rw [allKept, foldl_csstrAppend_nil nonempty]

theorem StrcmpSorted.eq_of_perm {texts others : List (List Char)}
    (inOrder : StrcmpSorted texts) (othersInOrder : StrcmpSorted others)
    (perm : texts.Perm others) : texts = others := by
  refine List.Perm.eq_of_pairwise ?_ inOrder othersInOrder perm
  intro first second _ _ before after
  rw [strcmp_swap] at after
  exact (strcmp_eq_zero_iff first second).mp (by omega)

theorem StrcmpSorted.filter
    {texts : List (List Char)} (inOrder : StrcmpSorted texts) (kept : List Char → Bool) :
    StrcmpSorted (texts.filter kept) := List.Pairwise.filter kept inOrder

variable {text : List Char}

theorem trimmed_last_piece (trimmed : Trimmed text) :
    ∀ last ∈ (text.splitOn ',').getLast?, Trimmed last := by
  intro last isLast
  have some : text.splitOn ',' ≠ [] := splitOn_ne_nil ',' text
  rw [getLast?_eq_getLast_of_ne_nil some, Option.mem_some_iff] at isLast
  have behind := getLast_suffix_intercalate [','] (text.splitOn ',') some
  rw [intercalate_splitOn, isLast] at behind
  exact trimmed.of_suffix behind

theorem getSortedCsstrIn_eq (sorter : Sorter (List Char)) {room : Nat} (trimmed : Trimmed text)
    (sufficient : (csstrEntries (text.splitOn ',')).length ≤ room) :
    ∃ names, getSortedCsstrIn sorter room text = some ([','].intercalate names) ∧
      names.Perm (csstrItems text) ∧ StrcmpSorted names := by
  have consistent := strcmp_consistent (csstrEntries (text.splitOn ','))
  have inOrder : StrcmpSorted (sorter.sort strcmp (csstrEntries (text.splitOn ','))) :=
    sorter.sorted consistent
  refine ⟨(sorter.sort strcmp (csstrEntries (text.splitOn ','))).filter (· ≠ []), ?_, ?_,
    inOrder.filter _⟩
  · rw [getSortedCsstrIn, if_pos sufficient, foldl_csstrAppend_inOrder inOrder]
  · rw [csstrItems, ← filter_csstrEntries (trimmed_last_piece trimmed)]
    exact (sorter.perm consistent).filter _

structure CleanItem (item : List Char) : Prop where
  nonempty : item ≠ []
  noComma : ',' ∉ item
  stripped : strip item = item

theorem cleanItem_of_mem {text item : List Char} (member : item ∈ csstrItems text) :
    CleanItem item := by
  obtain ⟨isPiece, nonempty⟩ := mem_filter.mp member
  obtain ⟨piece, fromText, rfl⟩ := mem_map.mp isPiece
  refine ⟨by simpa using nonempty, ?_, strip_idempotent piece⟩
  have noComma : ',' ∉ piece := Fields.notMem_of_mem_splitOn fromText
  have front := rdropWhile_prefix isBlank (piece.dropWhile isBlank)
  intro isComma
  exact noComma ((dropWhile_suffix isBlank).subset (front.subset isComma))

variable {names : List (List Char)}

theorem csstrItems_intercalate (clean : ∀ name ∈ names, CleanItem name) :
    csstrItems ([','].intercalate names) = names := by
  cases names with
  | nil => rfl
  | cons name names =>
    have pieces : ([','].intercalate (name :: names)).splitOn ',' = name :: names :=
      splitOn_intercalate _ (fun item member => (clean item member).noComma) (by simp)
    have stripped : (name :: names).map strip = name :: names := by
      rw [map_congr_left fun item member => (clean item member).stripped]
      exact map_id' _
    rw [csstrItems, pieces, stripped, filter_eq_self]
    intro item member
    simpa using (clean item member).nonempty

theorem trimmed_intercalate (clean : ∀ name ∈ names, CleanItem name) :
    Trimmed ([','].intercalate names) := by
  by_cases some : names = []
  · subst some
    rfl
  · have isClean := clean (names.getLast some) (getLast_mem some)
    have trimmedLast : Trimmed (names.getLast some) := by
      rw [← isClean.stripped]
      exact trimmed_rdropWhile _
    rw [trimmed_iff] at trimmedLast ⊢
    intro joined
    rw [← (getLast_suffix_intercalate [','] names some).getLast isClean.nonempty]
    exact trimmedLast isClean.nonempty

variable {ι : Type u}

theorem insert_populated {groups : List (GroupedPollers ι)}
    (populated : ∀ pg ∈ groups, pg.nodes ≠ []) {hgs : List Char} {node : ι} :
    ∀ pg ∈ groupCollector.insert hgs node groups, pg.nodes ≠ [] := by
  induction groups with
  | nil => simp [Collector.insert, groupCollector]
  | cons first groups ih =>
    rw [forall_mem_cons] at populated
    rw [Collector.insert]
    split
    · rw [forall_mem_cons]
      exact ⟨by simp [groupCollector], populated.2⟩
    · rw [forall_mem_cons]
      exact ⟨populated.1, ih populated.2⟩

theorem pgroupAddPollersIn_populated {sorter : Sorter (List Char)} {room : List Char → Nat}
    {pollers : List (ι × List Char)} {groups result : List (GroupedPollers ι)}
    (added : pgroupAddPollersIn sorter room pollers groups = some result)
    (populated : ∀ pg ∈ groups, pg.nodes ≠ []) : ∀ pg ∈ result, pg.nodes ≠ [] := by
  induction pollers generalizing groups with
  | nil =>
    cases added
    exact populated
  | cons poller pollers ih =>
    obtain ⟨hgs, _, rest⟩ := Option.bind_eq_some_iff.mp added
    exact ih rest (insert_populated populated)

def Sufficient (room : List Char → Nat) : Prop :=
  ∀ text : List Char, (csstrEntries (text.splitOn ',')).length ≤ room text

variable {sorter : Sorter (List Char)} {room : List Char → Nat}

theorem getSortedCsstrIn_eq_iff (sufficient : Sufficient room) {text other : List Char}
    (trimmed : Trimmed text) (otherTrimmed : Trimmed other) :
    getSortedCsstrIn sorter (room text) text = getSortedCsstrIn sorter (room other) other ↔
      (csstrItems text).Perm (csstrItems other) := by
  obtain ⟨names, result, perm, inOrder⟩ := getSortedCsstrIn_eq sorter trimmed (sufficient text)
  obtain ⟨otherNames, otherResult, otherPerm, otherInOrder⟩ :=
    getSortedCsstrIn_eq sorter otherTrimmed (sufficient other)
  have clean : ∀ name ∈ names, CleanItem name :=
    fun name member => cleanItem_of_mem (perm.mem_iff.mp member)
  have otherClean : ∀ name ∈ otherNames, CleanItem name :=
    fun name member => cleanItem_of_mem (otherPerm.mem_iff.mp member)
  rw [result, otherResult, Option.some.injEq]
  constructor
  · intro same
    have sameNames : names = otherNames := by
      rw [← csstrItems_intercalate clean, same, csstrItems_intercalate otherClean]
    exact perm.symm.trans (sameNames ▸ otherPerm)
  · intro samePerm
    rw [inOrder.eq_of_perm otherInOrder ((perm.trans samePerm).trans otherPerm.symm)]

theorem getSortedCsstrIn_idempotent (sufficient : Sufficient room) {text result : List Char}
    (trimmed : Trimmed text) (found : getSortedCsstrIn sorter (room text) text = some result) :
    getSortedCsstrIn sorter (room result) result = some result := by
  obtain ⟨names, isResult, perm, inOrder⟩ := getSortedCsstrIn_eq sorter trimmed (sufficient text)
  have clean : ∀ name ∈ names, CleanItem name :=
    fun name member => cleanItem_of_mem (perm.mem_iff.mp member)
  obtain rfl : [','].intercalate names = result := Option.some.inj (isResult.symm.trans found)
  rw [← isResult, getSortedCsstrIn_eq_iff sufficient (trimmed_intercalate clean) trimmed,
    csstrItems_intercalate clean]
  exact perm

def groupKey (sorter : Sorter (List Char)) (room : List Char → Nat) (hostgroups : List Char) :
    List Char :=
  (getSortedCsstrIn sorter (room hostgroups) hostgroups).getD []

theorem getSortedCsstrIn_eq_groupKey (sufficient : Sufficient room) (hostgroups : List Char) :
    getSortedCsstrIn sorter (room hostgroups) hostgroups =
      some (groupKey sorter room hostgroups) := by
  rw [groupKey, getSortedCsstrIn, if_pos (sufficient hostgroups)]
  rfl

theorem pgroupAddPollersIn_eq (sufficient : Sufficient room) (pollers : List (ι × List Char))
    (groups : List (GroupedPollers ι)) :
    pgroupAddPollersIn sorter room pollers groups =
      some ((pollers.map fun poller => (groupKey sorter room poller.2, poller.1)).foldl
        (fun groups keyed => groupCollector.insert keyed.1 keyed.2 groups) groups) := by
  induction pollers generalizing groups with
  | nil => rfl
  | cons poller pollers ih =>
    rw [pgroupAddPollersIn, getSortedCsstrIn_eq_groupKey sufficient, Option.bind_some, ih]
    rfl

theorem pgroupAddPollersIn_together_iff (sufficient : Sufficient room)
    {pollers : List (ι × List Char)} {groups : List (GroupedPollers ι)}
    (distinct : (pollers.map Prod.fst).Nodup)
    (added : pgroupAddPollersIn sorter room pollers [] = some groups)
    {first second : ι × List Char} (isFirst : first ∈ pollers) (isSecond : second ∈ pollers) :
    (∃ pg ∈ groups, first.1 ∈ pg.nodes ∧ second.1 ∈ pg.nodes) ↔
      groupKey sorter room first.2 = groupKey sorter room second.2 := by
  have collects := Collector.collect_collects groupCollector
    (pollers.map fun poller => (groupKey sorter room poller.2, poller.1))
  rw [pgroupAddPollersIn_eq sufficient, Option.some.injEq] at added
  rw [Collector.collect, added] at collects
  have holds : ∀ pg ∈ groups, ∀ poller ∈ pollers,
      poller.1 ∈ pg.nodes ↔ groupKey sorter room poller.2 = pg.hostgroups := by
    intro pg member poller isPoller
    refine (collects.holds pg member poller.1).trans ?_
    rw [mem_map]
    constructor
    · rintro ⟨other, isOther, same⟩
      obtain ⟨sameKey, sameNode⟩ := Prod.mk.inj same
      rw [← inj_on_of_nodup_map distinct isOther isPoller sameNode]
      exact sameKey
    · exact fun sameKey => ⟨poller, isPoller, Prod.ext sameKey rfl⟩
  constructor
  · rintro ⟨pg, member, firstInside, secondInside⟩
    rw [(holds pg member first isFirst).mp firstInside,
      (holds pg member second isSecond).mp secondInside]
  · intro sameKey
    have hasGroup : groupKey sorter room first.2 ∈ groups.map GroupedPollers.hostgroups := by
      refine (collects.keys _).mpr ?_
      rw [map_map, mem_map]
      exact ⟨first, isFirst, rfl⟩
    obtain ⟨pg, member, isKey⟩ := mem_map.mp hasGroup
    exact ⟨pg, member, (holds pg member first isFirst).mpr isKey.symm,
      (holds pg member second isSecond).mpr (sameKey.symm.trans isKey.symm)⟩

/-- `get_sorted_csstr` gives the items in order, depends on the items only and is its own list;
pollers with the same items come into one group. -/
theorem getSortedCsstr_canonical
    {ι : Type u} (sorter : Sorter (List Char)) (sufficient : Sufficient room) :
    (∀ text, Trimmed text →
        ∃ names, getSortedCsstrIn sorter (room text) text = some ([','].intercalate names) ∧
          names.Perm (csstrItems text) ∧ StrcmpSorted names) ∧
      (∀ text other, Trimmed text → Trimmed other → (csstrItems text).Perm (csstrItems other) →
        getSortedCsstrIn sorter (room text) text = getSortedCsstrIn sorter (room other) other) ∧
      (∀ text result, Trimmed text → getSortedCsstrIn sorter (room text) text = some result →
        getSortedCsstrIn sorter (room result) result = some result) ∧
      ∀ pollers : List (ι × List Char), (pollers.map Prod.fst).Nodup →
        (∀ poller ∈ pollers, Trimmed poller.2) →
        ∃ groups, pgroupAddPollersIn sorter room pollers [] = some groups ∧
          ∀ first ∈ pollers, ∀ second ∈ pollers,
            (∃ pg ∈ groups, first.1 ∈ pg.nodes ∧ second.1 ∈ pg.nodes) ↔
              (csstrItems first.2).Perm (csstrItems second.2) := by
  refine ⟨?_, ?_, ?_, ?_⟩
  · intro text trimmed
    exact getSortedCsstrIn_eq sorter trimmed (sufficient text)
  · intro text other trimmed otherTrimmed perm
    exact (getSortedCsstrIn_eq_iff sufficient trimmed otherTrimmed).mpr perm
  · intro text result trimmed found
    exact getSortedCsstrIn_idempotent sufficient trimmed found
  · intro pollers distinct trimmed
    refine ⟨_, pgroupAddPollersIn_eq sufficient pollers [], ?_⟩
    intro first isFirst second isSecond
    rw [pgroupAddPollersIn_together_iff sufficient distinct
        (pgroupAddPollersIn_eq sufficient pollers []) isFirst isSecond,
      ← getSortedCsstrIn_eq_iff sufficient (trimmed first isFirst) (trimmed second isSecond),
      getSortedCsstrIn_eq_groupKey sufficient, getSortedCsstrIn_eq_groupKey sufficient,
      Option.some.injEq]

theorem getSortedCsstr_canonical_two :
    Sufficient (fun text => (csstrEntries (text.splitOn ',')).length) ∧
      getSortedCsstrIn (insertionSorter (List Char)) 2 ['b', ' ', ',', ',', 'a'] =
        getSortedCsstrIn (insertionSorter (List Char)) 2 ['a', ',', '\t', 'b'] := by
  have sufficient : Sufficient (fun text => (csstrEntries (text.splitOn ',')).length) :=
    fun _ => Nat.le_refl _
  refine ⟨sufficient, ?_⟩
  exact (@getSortedCsstr_canonical _ Nat (insertionSorter (List Char)) sufficient).2.1
    ['b', ' ', ',', ',', 'a'] ['a', ',', '\t', 'b'] (by decide) (by decide) (by decide)

end MonitorMerlin
