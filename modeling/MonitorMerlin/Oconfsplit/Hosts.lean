import MonitorMerlin.Oconfsplit.SelfContained

/-! # The hosts in a file and the hosts of a group -/

namespace MonitorMerlin

open Sorting

universe u v

section Hosts

variable {τ : Type u} [DecidableEq τ] [Fintype τ]

def splitHosts (graph : ObjectGraph τ) (sorter : Sorter Nat) (groups : List Char) : Finset Nat :=
  match splitConfig graph sorter groups with
  | none => ∅
  | some file => (writtenHosts file).toFinset

variable {setting : HostgroupSetting} {graph : ObjectGraph τ} {sorter : Sorter Nat}

section

variable (known : setting.Known graph.toObjectConfig)

include known

theorem splitHosts_of_tight (tight : setting.Tight) :
    splitHosts graph sorter setting.value = setting.hosts graph.toObjectConfig := by
  have written := (splitConfig_value_iff known).mpr
    ⟨tight, show splitNames graph sorter setting.names = _ from rfl⟩
  rw [splitHosts, written]
  ext id
  rw [List.mem_toFinset]
  exact (splitNames_splitFileFor graph sorter setting.names).hosts id

theorem splitHosts_of_not_tight (blank : ¬ setting.Tight) :
    splitHosts graph sorter setting.value = ∅ := by
  have missing : splitConfig graph sorter setting.value = none := by
    apply Option.eq_none_iff_forall_ne_some.mpr
    intro file written
    exact blank ((splitConfig_value_iff known).mp written).1
  rw [splitHosts, missing]

theorem splitHosts_eq_iff :
    splitHosts graph sorter setting.value = setting.hosts graph.toObjectConfig ↔
      setting.Tight ∨ setting.hosts graph.toObjectConfig = ∅ := by
  by_cases tight : setting.Tight
  · exact iff_of_true (splitHosts_of_tight known tight) (.inl tight)
  · rw [splitHosts_of_not_tight known tight, eq_comm]
    simp [tight]

end

/-- The file of a poller has the hosts of its group, provided that there is room for every
setting and no blanks in that of the poller, or it has no hosts. -/
theorem splitHosts_eq_hostMap_iff
    {ι : Type v} (qsort : Sorter (List Char)) (listSort : Sorter Nat) (graph : ObjectGraph τ)
    (numPeers : Nat) (pollers : List (Poller ι))
    (known : ∀ poller ∈ pollers, poller.setting.Known graph.toObjectConfig)
    (poller : Poller ι) (isPoller : poller ∈ pollers) :
    (∃ (groups : List (GroupedPollers ι)) (mapped : Mapped) (group : Nat)
        (pg : GroupedPollers ι) (mappedGroup : MappedGroup),
        pgroupInit qsort graph.toObjectConfig numPeers (pollers.map Poller.configured) =
          some (groups, mapped) ∧
        groups[group]? = some pg ∧ mapped.groups[group]? = some mappedGroup ∧
        getSortedCsstr qsort poller.setting.value = some pg.hostgroups ∧ poller.node ∈ pg.nodes ∧
        splitHosts graph listSort poller.setting.value = mappedGroup.hosts.map) ↔
      (∀ other ∈ pollers, other.setting.Roomy) ∧
        (poller.setting.Tight ∨ poller.setting.hosts graph.toObjectConfig = ∅) := by
  constructor
  · rintro ⟨groups, mapped, group, pg, mappedGroup, result, found, foundMapped, csstr, _, same⟩
    have key : poller.csstr qsort = pg.hostgroups := by
      rw [HostgroupSetting.getSortedCsstr_value] at csstr
      split_ifs at csstr
      exact Option.some.inj csstr
    have hosts := (pgroupInit_initialised result).hosts_eq found foundMapped isPoller key
    exact ⟨(exists_pgroupInit_iff known).mp ⟨_, result⟩,
      (splitHosts_eq_iff (known poller isPoller)).mp (same.trans hosts)⟩
  · rintro ⟨roomy, agrees⟩
    obtain ⟨⟨groups, mapped⟩, result⟩ : ∃ result, pgroupInit qsort graph.toObjectConfig numPeers
        (pollers.map Poller.configured) = some result :=
      (exists_pgroupInit_iff known).mpr roomy
    have initialised := pgroupInit_initialised result
    obtain ⟨group, pg, mappedGroup, found, foundMapped, key⟩ := initialised.exists_group isPoller
    refine ⟨groups, mapped, group, pg, mappedGroup, result, found, foundMapped, ?_, ?_, ?_⟩
    · rw [← key]
      exact HostgroupSetting.getSortedCsstr_of_roomy qsort (roomy poller isPoller)
    · apply (initialised.collects.holds pg (List.mem_of_getElem? found) poller.node).mpr
      exact mem_keyedPollers_iff.mpr ⟨poller, isPoller, key, rfl⟩
    · rw [initialised.hosts_eq found foundMapped isPoller key]
      exact (splitHosts_eq_iff (known poller isPoller)).mpr agrees

end Hosts

theorem tightSetting_sameHosts :
    ∃ (groups : List (GroupedPollers Nat)) (mapped : Mapped) (group : Nat)
      (pg : GroupedPollers Nat) (mappedGroup : MappedGroup),
      pgroupInit (insertionSorter _) threeHosts 0 [(7, "b,none".toList)] = some (groups, mapped) ∧
      groups[group]? = some pg ∧ mapped.groups[group]? = some mappedGroup ∧
      getSortedCsstr (insertionSorter _) "b,none".toList = some pg.hostgroups ∧ 7 ∈ pg.nodes ∧
      splitHosts sampleGraph (insertionSorter _) "b,none".toList = mappedGroup.hosts.map := by
  have known : ∀ poller ∈ [(⟨7, tightSetting⟩ : Poller Nat)],
      poller.setting.Known sampleGraph.toObjectConfig := by
    decide
  have roomy : ∀ poller ∈ [(⟨7, tightSetting⟩ : Poller Nat)], poller.setting.Roomy := by
    intro poller member
    rw [List.mem_singleton.mp member]
    exact .inl ⟨"none", by decide, by decide⟩
  have value : tightSetting.value = "b,none".toList := rfl
  have same := (splitHosts_eq_hostMap_iff (insertionSorter _) (insertionSorter _) sampleGraph 0
    [⟨7, tightSetting⟩] known ⟨7, tightSetting⟩ (List.mem_singleton_self _)).mpr
      ⟨roomy, .inl (by decide)⟩
  rw [List.map_singleton, Poller.configured, value] at same
  exact same

theorem blankSetting_differentHosts :
    (∃ (groups : List (GroupedPollers Nat)) (mapped : Mapped) (mappedGroup : MappedGroup),
      pgroupInit (insertionSorter _) threeHosts 0 [(7, "b, none".toList)] = some (groups, mapped) ∧
      groups = [⟨"b,none".toList, [7]⟩] ∧ mapped.groups = [mappedGroup] ∧
      mappedGroup.hosts.map = {1} ∧
      splitHosts sampleGraph (insertionSorter _) "b, none".toList = ∅) ∧
      pgroupInit (insertionSorter _) threeHosts 0 [(7, "a".toList)] = none := by
  have init : (pgroupInit (insertionSorter _) threeHosts 0 [(7, "b, none".toList)]).map
      (fun result => (result.1, result.2.groups.map fun mappedGroup => mappedGroup.hosts.map)) =
        some ([⟨"b,none".toList, [7]⟩], [{1}]) := by
    decide +kernel
  obtain ⟨⟨groups, mapped⟩, result, same⟩ := Option.map_eq_some_iff.mp init
  obtain ⟨sameGroups, hosts⟩ := Prod.mk.inj same
  obtain ⟨mappedGroup, isGroup, hostMap⟩ := List.map_eq_singleton_iff.mp hosts
  have skipped : splitHosts sampleGraph (insertionSorter _) "b, none".toList = ∅ := by
    decide +kernel
  exact ⟨⟨groups, mapped, mappedGroup, result, sameGroups, isGroup, hostMap, skipped⟩, rfl⟩

end MonitorMerlin
