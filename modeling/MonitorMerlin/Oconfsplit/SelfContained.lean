import Mathlib.Data.Prod.Lex
import MonitorMerlin.Oconfsplit.Closure

/-! # A file stands for itself -/

namespace MonitorMerlin

open Ledger List
open Sorting
open Text

universe u

variable {τ : Type u}

theorem serviceCmp_swap (graph : ObjectGraph τ) (first second : Nat) :
    serviceCmp graph second first = -serviceCmp graph first second := by
  rw [serviceCmp, serviceCmp, strcmp_swap (graph.hostName (graph.hostOf second)),
    strcmp_swap (graph.description second)]
  split_ifs with same other other
  · rfl
  · exact absurd (Int.neg_eq_zero.mp same) other
  · exact absurd (Int.neg_eq_zero.mpr other) same
  · rfl

def serviceKey (graph : ObjectGraph τ) (id : Nat) : (List Char ×ₗ List Char)ᵒᵈ :=
  OrderDual.toDual (toLex (graph.hostName (graph.hostOf id), graph.description id))

theorem serviceCmp_neg_iff (graph : ObjectGraph τ) (first second : Nat) :
    serviceCmp graph first second < 0 ↔ serviceKey graph first < serviceKey graph second := by
  rw [serviceCmp, serviceKey, serviceKey, OrderDual.toDual_lt_toDual, Prod.Lex.toLex_lt_toLex]
  split_ifs with same
  · have equal := (strcmp_eq_zero_iff _ _).mp same
    simp [strcmp_neg_iff, equal]
  · have different := mt (strcmp_eq_zero_iff _ _).mpr same
    simp [strcmp_neg_iff, different]

theorem serviceCmp_consistent (graph : ObjectGraph τ) (items : List Nat) :
    Consistent (serviceCmp graph) items := by
  apply Consistent.of_order (serviceCmp_neg_iff graph)
  intro first second
  rw [← serviceCmp_neg_iff, serviceCmp_swap graph first second, Int.neg_lt_zero_iff]

variable {selected : Finset Nat}

section Writing

variable [DecidableEq τ]

structure SplitInvariant (graph : ObjectGraph τ) (selected : Finset Nat) (state : SplitState τ) :
    Prop where
  covers : Covers graph.format (Produced graph selected) [] ⟨∅, []⟩ state.file
  nodup : (writtenHosts state.file.out).Nodup
  tracked : ∀ id, id ∈ writtenHosts state.file.out ↔ id ∈ state.htrack
  services : writtenServices state.file.out = (writtenHosts state.file.out).flatMap graph.services

section Hosts

variable {graph : ObjectGraph τ} {state : SplitState τ}

theorem SplitInvariant.of_attached
    (invariant : SplitInvariant graph selected state) {file : SplitFile τ}
    (writes : WritesObjects graph selected [] [] state.file file) (hostgroups : Finset String) :
    SplitInvariant graph selected { state with file := file, hostgroups := hostgroups } where
  covers := invariant.covers.trans writes.covers
  nodup := by
    rw [writes.hosts, append_nil]
    exact invariant.nodup
  tracked := by
    rw [writes.hosts, append_nil]
    exact invariant.tracked
  services := by
    rw [writes.services, writes.hosts, append_nil, append_nil]
    exact invariant.services

variable [Fintype τ]

theorem nsplitCacheHost_invariant
    (invariant : SplitInvariant graph selected state) {id : Nat} (isSelected : id ∈ selected)
    (bound : id < graph.numHosts) :
    SplitInvariant graph selected (nsplitCacheHost graph selected state id) ∧
      (nsplitCacheHost graph selected state id).htrack = insert id state.htrack := by
  rw [nsplitCacheHost]
  split_ifs with present
  · exact ⟨invariant, (Finset.insert_eq_of_mem present).symm⟩
  · have writes := nsplitWriteHost_writesObjects isSelected (graph.hostOf_eq id bound) state.file
    have new : id ∉ writtenHosts state.file.out := fun written =>
      present ((invariant.tracked id).mp written)
    refine ⟨⟨invariant.covers.trans writes.covers, ?_, ?_, ?_⟩, rfl⟩
    · rw [writes.hosts, ← concat_eq_append]
      exact invariant.nodup.concat new
    · intro other
      rw [writes.hosts, mem_append, mem_singleton, invariant.tracked, Finset.mem_insert, or_comm]
    · rw [writes.services, writes.hosts, invariant.services, flatMap_append, flatMap_singleton]

theorem nsplitCacheHost_foldl (invariant : SplitInvariant graph selected state) {members : List Nat}
    (areSelected : ∀ id ∈ members, id ∈ selected) (bound : ∀ id ∈ members, id < graph.numHosts) :
    SplitInvariant graph selected (members.foldl (nsplitCacheHost graph selected) state) ∧
      (members.foldl (nsplitCacheHost graph selected) state).htrack =
        state.htrack ∪ members.toFinset := by
  induction members generalizing state with
  | nil => exact ⟨invariant, by simp⟩
  | cons id members ih =>
    obtain ⟨first, tracked⟩ := nsplitCacheHost_invariant invariant
      (areSelected id mem_cons_self) (bound id mem_cons_self)
    obtain ⟨last, all⟩ := ih first
      (fun other member => areSelected other (mem_cons_of_mem _ member))
      (fun other member => bound other (mem_cons_of_mem _ member))
    refine ⟨last, ?_⟩
    rw [foldl_cons, all, tracked, toFinset_cons, Finset.insert_union, Finset.union_insert]

end Hosts

variable {graph : ObjectGraph τ}

theorem attached_write {record : Written τ} (attached : Attached graph selected record)
    (untracked : record.slaveId = none) (noRefs : record.slaveRefs graph = [])
    (file : SplitFile τ) :
    Covers graph.format (Attached graph selected) [] file (file.write record) := by
  apply Covers.write attached untracked
  intro ref isRef
  rw [show graph.format.refs record = [] from noRefs] at isRef
  cases isRef

theorem attached_hostgroup (name : String) {members : List Nat}
    (areSelected : ∀ id ∈ members, id ∈ selected) (file : SplitFile τ) :
    Covers graph.format (Attached graph selected) [] file (file.write (.hostgroup name members)) :=
  attached_write ⟨.hostgroup name areSelected, rfl, rfl⟩ rfl rfl file

section Groups

theorem nsplitPartialGroups_attached (sorter : Sorter Nat) (state : SplitState τ) :
    Covers graph.format (Attached graph selected) [] state.file
      (nsplitPartialGroups graph sorter selected state) := by
  have hostgroups : Covers graph.format (Attached graph selected) [] state.file
      (graph.hostgroupList.foldl (nsplitPartialHostgroup graph selected state.hostgroups)
        state.file) := by
    apply Covers.foldl_nil
    intro name _ book
    rw [nsplitPartialHostgroup]
    split
    · exact Covers.refl _ _ (by simp)
    · dsimp only
      split
      · exact Covers.refl _ _ (by simp)
      · apply attached_hostgroup
        intro id member
        exact of_decide_eq_true (mem_filter.mp member).2
  have servicegroups : ∀ file : SplitFile τ, Covers graph.format (Attached graph selected) [] file
      (graph.servicegroupList.foldl (nsplitPartialServicegroup graph sorter selected) file) := by
    intro file
    apply Covers.foldl_nil
    intro servicegroup _ book
    rw [nsplitPartialServicegroup]
    split
    · exact Covers.refl _ _ (by simp)
    · refine attached_write ⟨.servicegroup _ fun id member => ?_, rfl, rfl⟩ rfl rfl book
      rw [partialServicegroup, mem_reverse,
        (sorter.perm (serviceCmp_consistent graph _)).mem_iff, mem_reverse] at member
      exact of_decide_eq_true (mem_filter.mp member).2
  exact hostgroups.trans (servicegroups _)

variable [Fintype τ] {state : SplitState τ}

theorem nsplitCacheGroup_invariant (invariant : SplitInvariant graph selected state) {name : String}
    (areSelected : ∀ id ∈ graph.members name, id ∈ selected) :
    SplitInvariant graph selected (nsplitCacheGroup graph selected state name) ∧
      (nsplitCacheGroup graph selected state name).htrack =
        state.htrack ∪ (graph.members name).toFinset := by
  have written := invariant.of_attached
    (writesObjects_of_attached (attached_hostgroup name areSelected state.file))
    (insert name state.hostgroups)
  exact nsplitCacheHost_foldl written areSelected fun _ member => ObjectConfig.members_bound member

theorem nsplitCacheGroup_foldl
    (invariant : SplitInvariant graph selected state) {names : List String}
    (areSelected : ∀ name ∈ names, ∀ id ∈ graph.members name, id ∈ selected) :
    SplitInvariant graph selected (names.foldl (nsplitCacheGroup graph selected) state) ∧
      (names.foldl (nsplitCacheGroup graph selected) state).htrack =
        state.htrack ∪ (names.flatMap graph.members).toFinset := by
  induction names generalizing state with
  | nil => exact ⟨invariant, by simp⟩
  | cons name names ih =>
    obtain ⟨first, tracked⟩ := nsplitCacheGroup_invariant invariant (areSelected name mem_cons_self)
    obtain ⟨last, all⟩ := ih first fun other member => areSelected other (mem_cons_of_mem _ member)
    refine ⟨last, ?_⟩
    rw [foldl_cons, all, tracked, flatMap_cons, toFinset_append, Finset.union_assoc]

end Groups

end Writing

variable {objects : ObjectConfig} {names : List String}

theorem mapGroupHosts_of_known (known : ∀ name ∈ names, (objects.hostgroup name).isSome = true) :
    mapGroupHosts objects names = some (names.flatMap objects.members).toFinset := by
  induction names with
  | nil => rfl
  | cons name names ih =>
    rw [mapGroupHosts, ObjectConfig.hostgroup_of_isSome (known name mem_cons_self),
      Option.bind_some,
      ih fun other member => known other (mem_cons_of_mem _ member),
      Option.map_some, flatMap_cons, toFinset_append]

theorem known_of_mapGroupHosts (mapped : mapGroupHosts objects names = some selected) :
    ∀ name ∈ names, (objects.hostgroup name).isSome = true := by
  induction names generalizing selected with
  | nil => simp
  | cons name names ih =>
    obtain ⟨members, found, rest⟩ := Option.bind_eq_some_iff.mp mapped
    obtain ⟨others, othersMapped, _⟩ := Option.map_eq_some_iff.mp rest
    intro other member
    rcases mem_cons.mp member with rfl | later
    · rw [found]
      rfl
    · exact ih othersMapped other later

structure SplitFileFor (graph : ObjectGraph τ) (selected : Finset Nat)
    (file : List (Written τ)) : Prop where
  produced : ∀ record ∈ file, Produced graph selected record
  slavesOnce : (writtenSlaves file).Nodup
  closed : ∀ record ∈ file, ∀ ref ∈ record.slaveRefs graph, ref ∈ writtenSlaves file
  hostsOnce : (writtenHosts file).Nodup
  hosts : ∀ id, id ∈ writtenHosts file ↔ id ∈ selected
  services : writtenServices file = (writtenHosts file).flatMap graph.services

section Files

variable [DecidableEq τ] {graph : ObjectGraph τ} {state : SplitState τ}

theorem SplitInvariant.splitFileFor (invariant : SplitInvariant graph selected state)
    (tracked : state.htrack = selected) : SplitFileFor graph selected state.file.out := by
  obtain ⟨⟨new, adds⟩, _⟩ := invariant.covers
  have out : state.file.out = new := adds.out
  have marked : state.file.marked = (writtenSlaves new).toFinset := by
    rw [adds.marked]
    exact Finset.empty_union _
  constructor
  · rw [out]
    exact adds.kind
  · rw [out]
    exact adds.nodup
  · rw [out]
    intro record member ref isRef
    have isMarked := adds.closed record member ref isRef
    rwa [marked, mem_toFinset] at isMarked
  · exact invariant.nodup
  · intro id
    rw [invariant.tracked, tracked]
  · exact invariant.services

theorem globalCommands_invariant (graph : ObjectGraph τ) (selected : Finset Nat) :
    SplitInvariant graph selected
      ⟨∅, ∅, graph.globalCommands.foldl nsplitCacheCommand ⟨∅, []⟩⟩ := by
  have commands : Covers graph.format (Attached graph selected)
      (graph.globalCommands.flatMap fun command => commandRefs command.toList) ⟨∅, []⟩
      (graph.globalCommands.foldl nsplitCacheCommand ⟨∅, []⟩) :=
    Covers.foldl fun command _ book _ =>
      covers_attached selected (nsplitCacheCommand_covers graph command book)
  have empty : SplitInvariant graph selected ⟨∅, ∅, ⟨∅, []⟩⟩ :=
    ⟨Covers.refl _ _ (by simp), nodup_nil, by simp [writtenHosts], rfl⟩
  exact empty.of_attached (writesObjects_of_attached commands) ∅

variable [Fintype τ]

def splitNames (graph : ObjectGraph τ) (sorter : Sorter Nat) (names : List String) :
    List (Written τ) :=
  let selected := (names.flatMap graph.members).toFinset
  (nsplitPartialGroups graph sorter selected
    (names.foldl (nsplitCacheGroup graph selected)
      ⟨∅, ∅, graph.globalCommands.foldl nsplitCacheCommand ⟨∅, []⟩⟩)).out

theorem splitNames_splitFileFor
    (graph : ObjectGraph τ) (sorter : Sorter Nat) (names : List String) :
    SplitFileFor graph (names.flatMap graph.members).toFinset (splitNames graph sorter names) := by
  have areSelected : ∀ name ∈ names, ∀ id ∈ graph.members name,
      id ∈ (names.flatMap graph.members).toFinset := by
    intro name isName id member
    exact mem_toFinset.mpr (mem_flatMap.mpr ⟨name, isName, member⟩)
  obtain ⟨invariant, tracked⟩ :=
    nsplitCacheGroup_foldl (globalCommands_invariant graph _) areSelected
  apply (invariant.of_attached
    (writesObjects_of_attached (nsplitPartialGroups_attached sorter _)) ∅).splitFileFor
  exact tracked.trans (Finset.empty_union _)

variable {file : List (Written τ)} {sorter : Sorter Nat}

theorem splitConfig_eq_some_iff {groups : List Char} :
    splitConfig graph sorter groups = some file ↔
      (∀ name ∈ (groups.splitOn ',').map String.ofList,
        (graph.hostgroup name).isSome = true) ∧
        splitNames graph sorter ((groups.splitOn ',').map String.ofList) = file := by
  rw [splitConfig, nsplitCacheStuff]
  constructor
  · intro written
    obtain ⟨cached, stuff, rfl⟩ := Option.map_eq_some_iff.mp written
    obtain ⟨selected, mapped, rfl⟩ := Option.map_eq_some_iff.mp stuff
    have known := known_of_mapGroupHosts mapped
    rw [mapGroupHosts_of_known known] at mapped
    cases mapped
    exact ⟨known, rfl⟩
  · rintro ⟨known, rfl⟩
    rw [mapGroupHosts_of_known known]
    rfl

theorem splitConfig_value_iff {setting : HostgroupSetting}
    (known : setting.Known graph.toObjectConfig) :
    splitConfig graph sorter setting.value = some file ↔
      setting.Tight ∧ splitNames graph sorter setting.names = file := by
  rw [splitConfig_eq_some_iff, setting.splitOn_value]
  have names : setting.Tight → setting.pieces.map String.ofList = setting.names := by
    intro tight
    rw [HostgroupSetting.pieces, settingPieces_of_tight tight]
    simp [HostgroupSetting.names, Function.comp_def]
  constructor
  · rintro ⟨found, rfl⟩
    have tight := HostgroupSetting.tight_of_known found
    exact ⟨tight, by rw [names tight]⟩
  · rintro ⟨tight, rfl⟩
    rw [names tight]
    exact ⟨known, rfl⟩

end Files

/-- All that the file refers to is in it, once. -/
structure SelfContained (graph : ObjectGraph τ) (selected : Finset Nat)
    (file : List (Written τ)) [DecidableEq τ] : Prop where
  hosts : ∀ id ∈ selected, (writtenHosts file).count id = 1
  services : ∀ id ∈ selected, ∀ service ∈ graph.services id,
    (writtenServices file).count service = 1
  slaves : ∀ record ∈ file, ∀ ref ∈ record.slaveRefs graph, (writtenSlaves file).count ref = 1
  hostRefs : ∀ record ∈ file, ∀ id ∈ record.hostRefs, id ∈ selected
  serviceRefs : ∀ record ∈ file, ∀ service ∈ record.serviceRefs, graph.hostOf service ∈ selected

def ParentsSelected (graph : ObjectGraph τ) (selected : Finset Nat) : Prop :=
  ∀ id ∈ selected, ∀ service ∈ graph.services id, ∀ parent ∈ (graph.service service).parents,
    graph.hostOf parent ∈ selected

instance (graph : ObjectGraph τ) (selected : Finset Nat) :
    Decidable (ParentsSelected graph selected) :=
  inferInstanceAs (Decidable (∀ id ∈ selected, _))

section References

variable {graph : ObjectGraph τ} {file : List (Written τ)} {record : Written τ}

theorem Produced.hostRefs (produced : Produced graph selected record) :
    ∀ id ∈ record.hostRefs, id ∈ selected := by
  cases produced with
  | slave | service | servicedependency | serviceescalation | servicegroup =>
    simp [Written.hostRefs]
  | host isSelected => simp [Written.hostRefs, isSelected]
  | hostdependency isSelected master => simp [Written.hostRefs, isSelected, master]
  | hostescalation _ isSelected => simp [Written.hostRefs, isSelected]
  | hostgroup _ areSelected => exact areSelected

theorem Produced.serviceRefs (produced : Produced graph selected record)
    (parents : ParentsSelected graph selected) :
    ∀ service ∈ record.serviceRefs, graph.hostOf service ∈ selected := by
  cases produced with
  | slave | host | hostdependency | hostescalation | hostgroup => simp [Written.serviceRefs]
  | @service id isSelected =>
    simpa [Written.serviceRefs, isSelected.host] using
      parents (graph.hostOf id) isSelected.host id isSelected.member
  | servicedependency isSelected master => simp [Written.serviceRefs, isSelected, master]
  | serviceescalation _ isSelected => simp [Written.serviceRefs, isSelected]
  | servicegroup _ areSelected => exact areSelected

theorem SplitFileFor.mem_service
    (isFile : SplitFileFor graph selected file) {id service : Nat} (isSelected : id ∈ selected)
    (member : service ∈ graph.services id) :
    Written.service service (graph.service service).parents ∈ file := by
  have written : service ∈ writtenServices file := by
    rw [isFile.services]
    exact mem_flatMap.mpr ⟨id, (isFile.hosts id).mpr isSelected, member⟩
  obtain ⟨record, inFile, isService⟩ := mem_filterMap.mp written
  have produced := isFile.produced record inFile
  cases produced with
  | slave | host | hostdependency | servicedependency | hostescalation | serviceescalation
    | hostgroup | servicegroup => cases isService
  | service =>
    cases isService
    exact inFile

theorem SplitFileFor.servicesOnce (isFile : SplitFileFor graph selected file)
    (bound : ∀ id ∈ selected, id < graph.numHosts) : (writtenServices file).Nodup := by
  have hostBound : ∀ id ∈ writtenHosts file, id < graph.numHosts := fun id member =>
    bound id ((isFile.hosts id).mp member)
  rw [isFile.services, nodup_flatMap]
  refine ⟨fun id member => graph.serviceOnce id (hostBound id member), ?_⟩
  apply isFile.hostsOnce.imp_of_mem
  intro first second isFirst isSecond different service inFirst inSecond
  exact different (graph.serviceUnique first (hostBound first isFirst) second
    (hostBound second isSecond) service inFirst inSecond)

end References

section Contained

variable [DecidableEq τ] {graph : ObjectGraph τ} {file : List (Written τ)}

theorem SplitFileFor.selfContained_iff (isFile : SplitFileFor graph selected file)
    (bound : ∀ id ∈ selected, id < graph.numHosts) :
    SelfContained graph selected file ↔ ParentsSelected graph selected := by
  constructor
  · intro contained id isSelected service member parent isParent
    apply contained.serviceRefs _ (isFile.mem_service isSelected member)
    exact mem_cons_of_mem _ isParent
  · intro parents
    constructor
    · intro id isSelected
      exact count_eq_one_of_mem isFile.hostsOnce ((isFile.hosts id).mpr isSelected)
    · intro id isSelected service member
      apply count_eq_one_of_mem (isFile.servicesOnce bound)
      rw [isFile.services]
      exact mem_flatMap.mpr ⟨id, (isFile.hosts id).mpr isSelected, member⟩
    · intro record member ref isRef
      exact count_eq_one_of_mem isFile.slavesOnce (isFile.closed record member ref isRef)
    · intro record member
      exact (isFile.produced record member).hostRefs
    · intro record member
      exact (isFile.produced record member).serviceRefs parents

end Contained

/-- A poller gets a file that stands for itself exactly when there are no blanks
in its setting and the parents of its services are on its hosts. -/
theorem splitConfig_selfContained_iff
    [DecidableEq τ] [Fintype τ] (sorter : Sorter Nat) (graph : ObjectGraph τ)
    (setting : HostgroupSetting) (known : setting.Known graph.toObjectConfig) :
    (∃ file, splitConfig graph sorter setting.value = some file ∧
        SelfContained graph (setting.hosts graph.toObjectConfig) file) ↔
      setting.Tight ∧ ParentsSelected graph (setting.hosts graph.toObjectConfig) := by
  have isFile : SplitFileFor graph (setting.hosts graph.toObjectConfig)
      (splitNames graph sorter setting.names) :=
    splitNames_splitFileFor graph sorter setting.names
  constructor
  · rintro ⟨file, written, contained⟩
    obtain ⟨tight, rfl⟩ := (splitConfig_value_iff known).mp written
    exact ⟨tight, (isFile.selfContained_iff setting.hosts_bound).mp contained⟩
  · rintro ⟨tight, parents⟩
    exact ⟨_, (splitConfig_value_iff known).mpr ⟨tight, rfl⟩,
      (isFile.selfContained_iff setting.hosts_bound).mpr parents⟩

def sampleGraph : ObjectGraph Bool where
  toHostgroupConfig := threeHostgroups
  host := fun _ =>
    ⟨⟨none, some 3, some true, none, [0], [1]⟩, [0, 2], [⟨0, none⟩], [], [⟨some false, [], [1]⟩]⟩
  service := fun id =>
    ⟨⟨some 4, some 3, none, some true, [], [0]⟩, if id = 0 then [1] else [id], [], [], []⟩
  hostOf := id
  hostName := fun id => [Char.ofNat (97 + id)]
  description := fun _ => ['s']
  contact := fun _ => ⟨some false, none, [5], [5]⟩
  contactgroupMembers := fun _ => [0, 1]
  exclusions := fun id => [!id]
  servicegroupList := [("all", [0, 1, 2])]
  globalCommands := [some 3, none]
  hostOf_eq := by
    intro id _ service member
    exact mem_singleton.mp member

theorem sampleGraph_selfContained :
    ∃ file, splitConfig sampleGraph (insertionSorter _) "b,none".toList = some file ∧
      SelfContained sampleGraph {1} file := by
  have contained := (splitConfig_selfContained_iff (insertionSorter _) sampleGraph tightSetting
    (by decide)).mpr ⟨by decide, by decide⟩
  exact contained

theorem sampleGraph_not_selfContained :
    (¬ ∃ file, splitConfig sampleGraph (insertionSorter _) "a".toList = some file ∧
        SelfContained sampleGraph {0} file) ∧
      splitConfig sampleGraph (insertionSorter _) "b, none".toList = none := by
  constructor
  · rintro ⟨file, written, contained⟩
    cases written
    exact absurd (contained.serviceRefs (.service 0 [1]) (by decide) 1 (by decide)) (by decide)
  · rfl

end MonitorMerlin
