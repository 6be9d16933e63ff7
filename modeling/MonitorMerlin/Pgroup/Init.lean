import MonitorMerlin.Pgroup.Hostgroups
import MonitorMerlin.Pgroup.Tables

/-! # Starting the peer groups -/

namespace MonitorMerlin

open Grouping List
open Sorting
open Text

universe u

structure HostgroupConfig extends ObjectConfig where
  hostgroupList : List String
  listed : ∀ name, name ∈ hostgroupList ↔ (hostgroup name).isSome = true
  cleanList : ∀ name ∈ hostgroupList, CleanName name

def ObjectConfig.members (objects : ObjectConfig) (name : String) : List Nat :=
  (objects.hostgroup name).getD []

variable {objects : ObjectConfig} {name : String}

theorem ObjectConfig.hostgroup_of_isSome (known : (objects.hostgroup name).isSome = true) :
    objects.hostgroup name = some (objects.members name) := by
  obtain ⟨members, found⟩ := Option.isSome_iff_exists.mp known
  rw [ObjectConfig.members, found, Option.getD_some]

variable {host : Nat}

theorem ObjectConfig.members_bound (member : host ∈ objects.members name) :
    host < objects.numHosts := by
  rw [members] at member
  cases found : objects.hostgroup name with
  | none =>
    rw [found] at member
    cases member
  | some members =>
    rw [found] at member
    exact objects.memberBound name members found host member

def HostgroupSetting.hosts (objects : ObjectConfig) (setting : HostgroupSetting) : Finset Nat :=
  (setting.names.flatMap objects.members).toFinset

def HostgroupSetting.Known (objects : ObjectConfig) (setting : HostgroupSetting) : Prop :=
  ∀ name ∈ setting.names, (objects.hostgroup name).isSome = true

instance (objects : ObjectConfig) (setting : HostgroupSetting) :
    Decidable (setting.Known objects) :=
  inferInstanceAs (Decidable (∀ name ∈ setting.names, _))

variable {setting : HostgroupSetting}

theorem HostgroupSetting.mem_hosts_iff :
    host ∈ setting.hosts objects ↔ ∃ name ∈ setting.names, host ∈ objects.members name := by
  rw [hosts, mem_toFinset, mem_flatMap]

theorem HostgroupSetting.hosts_bound (setting : HostgroupSetting) :
    ∀ id ∈ setting.hosts objects, id < objects.numHosts := by
  intro id member
  obtain ⟨name, _, isMember⟩ := HostgroupSetting.mem_hosts_iff.mp member
  exact ObjectConfig.members_bound isMember

theorem HostgroupSetting.tight_of_known {objects : HostgroupConfig}
    (known : ∀ name ∈ setting.pieces.map String.ofList, (objects.hostgroup name).isSome = true) :
    setting.Tight := by
  have stripped : ∀ piece ∈ setting.pieces, Stripped piece := by
    intro piece member
    have listed := (objects.listed _).mpr (known _ (mem_map_of_mem member))
    have isClean := (objects.cleanList _ listed).stripped
    rwa [String.toList_ofList] at isClean
  exact (tight_of_stripped (by simp) stripped).2

structure Poller (ι : Type u) where
  node : ι
  setting : HostgroupSetting

structure GroupedPollers (ι : Type u) where
  hostgroups : List Char
  nodes : List ι
  deriving DecidableEq, Repr

section Groups

variable {ι : Type u}

/-- `pgroup_get_by_cshgs`, `pgroup_add_node`. -/
def groupCollector : Collector (List Char) ι (GroupedPollers ι) where
  key := GroupedPollers.hostgroups
  fresh := fun hgs node => ⟨hgs, [node]⟩
  add := fun node pg => { pg with nodes := pg.nodes ++ [node] }
  Holds := fun pg node => node ∈ pg.nodes
  key_fresh := fun _ _ => rfl
  key_add := fun _ _ => rfl
  holds_fresh := fun _ _ _ => mem_singleton
  holds_add := by
    intro node pg other
    rw [mem_append, mem_singleton, or_comm]

def pgroupAddPollersIn (sorter : Sorter (List Char)) (room : List Char → Nat) :
    List (ι × List Char) → List (GroupedPollers ι) → Option (List (GroupedPollers ι))
  | [], groups => some groups
  | (node, hostgroups) :: pollers, groups =>
    (getSortedCsstrIn sorter (room hostgroups) hostgroups).bind fun hgs =>
      pgroupAddPollersIn sorter room pollers (groupCollector.insert hgs node groups)

section

variable (sorter : Sorter (List Char))

/-- The loop, with arrays as they are allocated. -/
def pgroupAddPollers (pollers : List (ι × List Char))
    (groups : List (GroupedPollers ι)) : Option (List (GroupedPollers ι)) :=
  pgroupAddPollersIn sorter (fun hostgroups => hostgroups.length / 2) pollers groups

theorem pgroupAddPollers_cons (poller : ι × List Char)
    (pollers : List (ι × List Char)) (groups : List (GroupedPollers ι)) :
    pgroupAddPollers sorter (poller :: pollers) groups =
      (getSortedCsstr sorter poller.2).bind fun hgs =>
        pgroupAddPollers sorter pollers (groupCollector.insert hgs poller.1 groups) :=
  rfl

def GroupedPollers.spec (pg : GroupedPollers ι) : GroupSpec :=
  ⟨(pg.hostgroups.splitOn ',').map String.ofList, pg.nodes.length⟩

/-- `pgroup_init`. -/
def pgroupInit (objects : ObjectConfig) (numPeers : Nat)
    (pollers : List (ι × List Char)) : Option (List (GroupedPollers ι) × Mapped) :=
  (pgroupAddPollers sorter pollers []).bind fun groups =>
    (pgroupMapObjects objects numPeers (groups.map GroupedPollers.spec)).map fun mapped =>
      (groups, mapped)

def Poller.configured (poller : Poller ι) : ι × List Char := (poller.node, poller.setting.value)

def Poller.csstr (poller : Poller ι) : List Char :=
  poller.setting.csstr sorter

def keyedPollers (pollers : List (Poller ι)) : List (List Char × ι) :=
  pollers.map fun poller => (poller.csstr sorter, poller.node)

end

variable {sorter : Sorter (List Char)} {pollers : List (Poller ι)}

theorem mem_keyedPollers_iff {hgs : List Char} {node : ι} :
    (hgs, node) ∈ keyedPollers sorter pollers ↔
      ∃ poller ∈ pollers, poller.csstr sorter = hgs ∧ poller.node = node := by
  simp [keyedPollers]

theorem pgroupAddPollers_of_roomy (roomy : ∀ poller ∈ pollers, poller.setting.Roomy)
    (groups : List (GroupedPollers ι)) :
    pgroupAddPollers sorter (pollers.map Poller.configured) groups =
      some ((keyedPollers sorter pollers).foldl
        (fun groups keyed => groupCollector.insert keyed.1 keyed.2 groups) groups) := by
  induction pollers generalizing groups with
  | nil => rfl
  | cons poller pollers ih =>
    rw [map_cons, pgroupAddPollers_cons, Poller.configured,
      HostgroupSetting.getSortedCsstr_of_roomy sorter (roomy poller mem_cons_self),
      Option.bind_some,
      ih fun other member => roomy other (mem_cons_of_mem _ member)]
    rfl

theorem roomy_of_pgroupAddPollers {groups result : List (GroupedPollers ι)}
    (added : pgroupAddPollers sorter (pollers.map Poller.configured) groups = some result) :
    ∀ poller ∈ pollers, poller.setting.Roomy := by
  induction pollers generalizing groups with
  | nil => simp
  | cons poller pollers ih =>
    rw [map_cons, pgroupAddPollers_cons] at added
    obtain ⟨hgs, found, rest⟩ := Option.bind_eq_some_iff.mp added
    intro other member
    rcases mem_cons.mp member with rfl | later
    · by_contra short
      dsimp only [Poller.configured] at found
      rw [HostgroupSetting.getSortedCsstr_of_not_roomy sorter short] at found
      cases found
    · exact ih rest other later

end Groups

section Known

variable {names : List String}

theorem exists_mapHostgroups (known : ∀ name ∈ names, (objects.hostgroup name).isSome = true)
    (group : Nat) (current : MappedGroup × Mapping) :
    ∃ after, mapHostgroups objects group names current = some after := by
  induction names generalizing current with
  | nil => exact ⟨current, rfl⟩
  | cons name names ih =>
    rw [mapHostgroups, ObjectConfig.hostgroup_of_isSome (known name mem_cons_self),
      Option.bind_some]
    exact ih (fun other member => known other (mem_cons_of_mem _ member)) _

section

variable {specs : List GroupSpec}
  (known : ∀ spec ∈ specs, ∀ name ∈ spec.hostgroups, (objects.hostgroup name).isSome = true)

include known

theorem exists_mapGroups (numPeers group : Nat) (mapping : Mapping) :
    ∃ result, mapGroups objects numPeers group specs mapping = some result := by
  induction specs generalizing group mapping with
  | nil => exact ⟨_, rfl⟩
  | cons spec specs ih =>
    obtain ⟨first, firstMapped⟩ := exists_mapHostgroups (known spec mem_cons_self) group
      (pgroupAllocCounters numPeers spec.totalNodes, mapping)
    obtain ⟨others, othersMapped⟩ := ih
      (fun other member => known other (mem_cons_of_mem _ member)) (group + 1) first.2
    rw [mapGroups, firstMapped, Option.bind_some, othersMapped, Option.map_some]
    exact ⟨_, rfl⟩

theorem exists_pgroupMapObjects (numPeers : Nat) :
    ∃ mapped, pgroupMapObjects objects numPeers specs = some mapped := by
  obtain ⟨result, mapped⟩ := exists_mapGroups known numPeers 0 _
  rw [pgroupMapObjects, mapped, Option.map_some]
  exact ⟨_, rfl⟩

end

theorem MembersOf.mem_flatten_iff {memberLists : List (List Nat)}
    (members : MembersOf objects names memberLists) {host : Nat} :
    host ∈ memberLists.flatten ↔ ∃ name ∈ names, host ∈ objects.members name := by
  induction members with
  | nil => simp
  | cons found _ ih =>
    rw [flatten_cons, mem_append, ih, exists_mem_cons_iff,
      ObjectConfig.members, found, Option.getD_some]

end Known

section Initialised

variable {ι : Type u} {sorter : Sorter (List Char)} {numPeers : Nat} {pollers : List (Poller ι)}
  {groups : List (GroupedPollers ι)} {mapped : Mapped} {pg : GroupedPollers ι}

theorem mem_spec_hostgroups {setting : HostgroupSetting}
    (same : setting.csstr sorter = pg.hostgroups) {name : String} :
    name ∈ pg.spec.hostgroups ↔ name ∈ setting.names := by
  have perm := (setting.sortedNames_perm sorter).map String.ofList
  rw [map_map, show String.ofList ∘ String.toList = id from funext fun _ =>
    String.ofList_toList, map_id] at perm
  rw [GroupedPollers.spec, ← same, setting.splitOn_csstr]
  exact perm.mem_iff

structure Initialised (sorter : Sorter (List Char)) (objects : ObjectConfig)
    (pollers : List (Poller ι)) (groups : List (GroupedPollers ι)) (mapped : Mapped) : Prop where
  collects : groupCollector.Collects (keyedPollers sorter pollers) groups
  hosts : List.Forall₂
    (fun pg mappedGroup => ∀ poller ∈ pollers, poller.csstr sorter = pg.hostgroups →
      mappedGroup.hosts.map = poller.setting.hosts objects)
    groups mapped.groups

theorem exists_poller_of_mem
    (collects : groupCollector.Collects (keyedPollers sorter pollers) groups)
    (member : pg ∈ groups) : ∃ poller ∈ pollers, poller.csstr sorter = pg.hostgroups := by
  have key := (collects.keys pg.hostgroups).mp (mem_map_of_mem member)
  obtain ⟨⟨hgs, node⟩, keyed, same⟩ := mem_map.mp key
  obtain ⟨poller, isPoller, isKey, _⟩ := mem_keyedPollers_iff.mp keyed
  exact ⟨poller, isPoller, isKey.trans same⟩

theorem pgroupAddPollers_collects
    (added : pgroupAddPollers sorter (pollers.map Poller.configured) [] = some groups) :
    groupCollector.Collects (keyedPollers sorter pollers) groups := by
  have roomy := roomy_of_pgroupAddPollers added
  rw [pgroupAddPollers_of_roomy roomy] at added
  rw [← Option.some.inj added]
  exact Collector.collect_collects groupCollector (keyedPollers sorter pollers)

theorem pgroupInit_initialised
    (result : pgroupInit sorter objects numPeers (pollers.map Poller.configured) =
      some (groups, mapped)) : Initialised sorter objects pollers groups mapped := by
  obtain ⟨added, isAdded, rest⟩ := Option.bind_eq_some_iff.mp result
  obtain ⟨objectsMapped, isMapped, same⟩ := Option.map_eq_some_iff.mp rest
  cases same
  have mapsTo := (pgroupMapObjects_groupsMapped isMapped).mapsTo
  refine ⟨pgroupAddPollers_collects isAdded, ?_⟩
  rw [List.forall₂_map_left_iff] at mapsTo
  apply mapsTo.imp
  rintro pg mappedGroup ⟨memberLists, maps⟩ poller _ same
  ext host
  rw [maps.hostsMap, mem_toFinset, maps.members.mem_flatten_iff, HostgroupSetting.mem_hosts_iff]
  simp only [mem_spec_hostgroups same]

section

variable (initialised : Initialised sorter objects pollers groups mapped)

include initialised

variable {mappedGroup : MappedGroup} {poller : Poller ι} {group : Nat}

theorem Initialised.hosts_eq (found : groups[group]? = some pg)
    (foundMapped : mapped.groups[group]? = some mappedGroup) (member : poller ∈ pollers)
    (same : poller.csstr sorter = pg.hostgroups) :
    mappedGroup.hosts.map = poller.setting.hosts objects := by
  obtain ⟨within, rfl⟩ := List.getElem?_eq_some_iff.mp found
  obtain ⟨mappedWithin, rfl⟩ := List.getElem?_eq_some_iff.mp foundMapped
  exact initialised.hosts.get within mappedWithin poller member same

theorem Initialised.exists_group (member : poller ∈ pollers) :
    ∃ (group : Nat) (pg : GroupedPollers ι) (mappedGroup : MappedGroup),
      groups[group]? = some pg ∧ mapped.groups[group]? = some mappedGroup ∧
      poller.csstr sorter = pg.hostgroups := by
  have keyed : (poller.csstr sorter, poller.node) ∈ keyedPollers sorter pollers :=
    mem_keyedPollers_iff.mpr ⟨poller, member, rfl, rfl⟩
  have key := (initialised.collects.keys (poller.csstr sorter)).mpr (mem_map.mpr ⟨_, keyed, rfl⟩)
  obtain ⟨pg, isGroup, same⟩ := mem_map.mp key
  obtain ⟨group, within, rfl⟩ := getElem_of_mem isGroup
  have mappedWithin : group < mapped.groups.length := by
    rw [← initialised.hosts.length_eq]
    exact within
  exact ⟨group, groups[group], mapped.groups[group], getElem?_eq_getElem within,
    getElem?_eq_getElem mappedWithin, same.symm⟩

theorem Initialised.exists_poller (foundMapped : mapped.groups[group]? = some mappedGroup) :
    ∃ pg, groups[group]? = some pg ∧ ∃ poller ∈ pollers, poller.csstr sorter = pg.hostgroups ∧
      mappedGroup.hosts.map = poller.setting.hosts objects := by
  obtain ⟨mappedWithin, _⟩ := List.getElem?_eq_some_iff.mp foundMapped
  have within : group < groups.length := by
    rw [initialised.hosts.length_eq]
    exact mappedWithin
  have found : groups[group]? = some groups[group] := getElem?_eq_getElem within
  obtain ⟨poller, member, same⟩ := exists_poller_of_mem initialised.collects (getElem_mem within)
  exact ⟨groups[group], found, poller, member, same,
    initialised.hosts_eq found foundMapped member same⟩

theorem Initialised.index_unique {first second : Nat} {pg other : GroupedPollers ι}
    (found : groups[first]? = some pg) (foundOther : groups[second]? = some other)
    (same : pg.hostgroups = other.hostgroups) : first = second := by
  obtain ⟨within, _⟩ := List.getElem?_eq_some_iff.mp found
  have keyWithin : first < (groups.map groupCollector.key).length := by
    rw [length_map]
    exact within
  apply (getElem?_inj keyWithin initialised.collects.nodup).mp
  rw [getElem?_map, getElem?_map, found, foundOther, Option.map_some, Option.map_some]
  exact congrArg some same

end

theorem exists_pgroupInit_iff (known : ∀ poller ∈ pollers, poller.setting.Known objects) :
    (∃ result, pgroupInit sorter objects numPeers (pollers.map Poller.configured) = some result) ↔
      ∀ poller ∈ pollers, poller.setting.Roomy := by
  constructor
  · rintro ⟨result, isResult⟩
    obtain ⟨added, isAdded, _⟩ := Option.bind_eq_some_iff.mp isResult
    exact roomy_of_pgroupAddPollers isAdded
  · intro roomy
    obtain ⟨added, isAdded⟩ : ∃ added,
        pgroupAddPollers sorter (pollers.map Poller.configured) [] = some added :=
      ⟨_, pgroupAddPollers_of_roomy roomy []⟩
    have collects := pgroupAddPollers_collects isAdded
    have knownSpecs : ∀ spec ∈ added.map GroupedPollers.spec, ∀ name ∈ spec.hostgroups,
        (objects.hostgroup name).isSome = true := by
      intro spec isSpec name isName
      obtain ⟨pg, isGroup, rfl⟩ := mem_map.mp isSpec
      obtain ⟨poller, isPoller, same⟩ := exists_poller_of_mem collects isGroup
      exact known poller isPoller name ((mem_spec_hostgroups same).mp isName)
    obtain ⟨objectsMapped, isMapped⟩ := exists_pgroupMapObjects knownSpecs numPeers
    rw [pgroupInit, isAdded, Option.bind_some, isMapped, Option.map_some]
    exact ⟨_, rfl⟩

end Initialised

/-- `threeHosts` with its hostgroups. -/
def threeHostgroups : HostgroupConfig where
  toObjectConfig := threeHosts
  hostgroupList := ["a", "b", "c", "none"]
  listed := by
    intro name
    simp only [threeHosts, oneServiceEach]
    split_ifs <;> simp_all
  cleanList := by
    intro name member
    simp only [mem_cons, not_mem_nil, or_false] at member
    rcases member with rfl | rfl | rfl | rfl <;>
      exact ⟨by decide, by decide, by decide, by decide⟩

def shortSetting : HostgroupSetting where
  first := "a"
  others := []
  clean := by
    intro name member
    rw [mem_singleton.mp member]
    exact ⟨by decide, by decide, by decide, by decide⟩

def twoHostgroups (joint : Joint) : HostgroupSetting where
  first := "b"
  others := [(joint, "none")]
  clean := by
    intro name member
    simp only [map_cons, map_nil, mem_cons, not_mem_nil, or_false] at member
    rcases member with rfl | rfl <;> exact ⟨by decide, by decide, by decide, by decide⟩

def tightSetting : HostgroupSetting := twoHostgroups ⟨[], [], by simp, by simp⟩

def blankSetting : HostgroupSetting := twoHostgroups ⟨[], [' '], by simp, by simp [isBlank]⟩

end MonitorMerlin
