import MonitorMerlin.Pgroup.Init
import MonitorMerlin.Tiers.Command

/-! # Events reach the pollers of a host -/

namespace MonitorMerlin

open Sorting
open List hiding Disjoint

universe u

section Listings

variable {ι : Type u} {masters peers : List ι} {pollers : List (Poller ι)} {node : ι}
  {name : String} {selection : NodeSelection ι} {id : Nat}

def pollingNode (masters peers : List ι) (pollers : List (Poller ι)) : Neighbours ι where
  masters := masters
  peers := peers
  pollers := pollers.map Poller.node
  listings := pollers.flatMap fun poller =>
    (addSelectionNames poller.setting.value).map fun name => (name, poller.node)

theorem mem_listings_iff :
    (name, node) ∈ (pollingNode masters peers pollers).listings ↔
      ∃ poller ∈ pollers, name ∈ poller.setting.names ∧ poller.node = node := by
  simp [pollingNode, addSelectionNames_value]

section

variable (found : (pollingNode masters peers pollers).selections[id]? = some selection)

include found

theorem mem_nodes_iff :
    node ∈ selection.nodes ↔
      ∃ poller ∈ pollers, selection.name ∈ poller.setting.names ∧ poller.node = node := by
  have holds := (selectionTable_collects (pollingNode masters peers pollers).listings).holds
    selection (mem_of_getElem? found) node
  exact holds.trans mem_listings_iff

theorem mem_pollers_of_mem_nodes (member : node ∈ selection.nodes) :
    node ∈ (pollingNode masters peers pollers).pollers := by
  obtain ⟨poller, isPoller, _, rfl⟩ := (mem_nodes_iff found).mp member
  exact mem_map_of_mem isPoller

theorem exists_poller_of_selection : ∃ poller ∈ pollers, selection.name ∈ poller.setting.names := by
  have key := ((selectionTable_collects (pollingNode masters peers pollers).listings).keys
    selection.name).mp (mem_map_of_mem (mem_of_getElem? found))
  obtain ⟨⟨name, node⟩, listed, same⟩ := mem_map.mp key
  obtain ⟨poller, isPoller, isName, _⟩ := mem_listings_iff.mp listed
  exact ⟨poller, isPoller, same ▸ isName⟩

end

end Listings

section Origin

variable {host id : Nat} {ι : Type u} {objects : ObjectConfig}

theorem foldl_origin {α : Type u} {step : (Nat → Option Nat) → α → Nat → Option Nat}
    {Gives : α → Prop}
    (origin : ∀ table item, step table item host = some id → table host = some id ∨ Gives item)
    {table : Nat → Option Nat} {items : List α} (found : items.foldl step table host = some id) :
    table host = some id ∨ ∃ item ∈ items, Gives item := by
  induction items generalizing table with
  | nil => exact .inl found
  | cons item items ih =>
    rcases ih found with earlier | ⟨other, member, gives⟩
    · rcases origin table item earlier with before | gives
      · exact .inl before
      · exact .inr ⟨item, mem_cons_self, gives⟩
    · exact .inr ⟨other, mem_cons_of_mem _ member, gives⟩

theorem hashAddHost_origin {selection host id : Nat} (table : Nat → Option Nat) (other : Nat)
    (found : hashAddHost selection table other host = some id) :
    table host = some id ∨ (other = host ∧ selection = id) := by
  rw [hashAddHost] at found
  split_ifs at found with present
  · exact .inl found
  · rw [Function.update_apply] at found
    split_ifs at found with same
    · exact .inr ⟨same.symm, Option.some.inj found⟩
    · exact .inl found

theorem hashAddHostgroup_origin {selections : List (NodeSelection ι)} (table : Nat → Option Nat)
    (name : String) (found : hashAddHostgroup objects selections table name host = some id) :
    table host = some id ∨
      (nodeSelectionByName selections name = some id ∧ host ∈ objects.members name) := by
  rw [hashAddHostgroup] at found
  cases isSelection : nodeSelectionByName selections name with
  | none =>
    rw [isSelection] at found
    exact .inl found
  | some selection =>
    rw [isSelection] at found
    rcases foldl_origin hashAddHost_origin found with before | ⟨other, member, rfl, rfl⟩
    · exact .inl before
    · exact .inr ⟨rfl, member⟩

end Origin

section Routing

variable {ι : Type u} {sorter : Sorter (List Char)} {objects : HostgroupConfig}
  {masters peers : List ι} {pollers : List (Poller ι)} {groups : List (GroupedPollers ι)}
  {mapped : Mapped} {numPeers host : Nat} {poller : Poller ι} {id : Nat}

def PollersApart (objects : ObjectConfig) (pollers : List (Poller ι)) : Prop :=
  ∀ first ∈ pollers, ∀ second ∈ pollers, ∀ host ∈ first.setting.hosts objects,
    host ∈ second.setting.hosts objects → first.setting.names.Perm second.setting.names

/-- Events of a host reach the pollers of its group. -/
structure RoutesHost (groups : List (GroupedPollers ι)) (mapped : Mapped) (node : Neighbours ι)
    (table : Nat → Option Nat) (host : Nat) : Prop where
  grouped : ∀ group mappedGroup, mapped.groups[group]? = some mappedGroup →
    host ∈ mappedGroup.hosts.map →
    mapped.mapping.hostId2pg[host]? = some (some group) ∧
      ∃ pg id selection, groups[group]? = some pg ∧ table host = some id ∧
        node.selections[id]? = some selection ∧
        (∀ poller, poller ∈ selection.nodes ∧ poller ∈ node.pollers ↔ poller ∈ pg.nodes) ∧
        ∀ poller ∈ pg.nodes, poller ∈ node.nodesBySelId (getSelection (table host))
  ungrouped : (∀ mappedGroup ∈ mapped.groups, host ∉ mappedGroup.hosts.map) → table host = none

theorem isSome_of_mem_hosts
    (known : ∀ poller ∈ pollers, poller.setting.Known objects.toObjectConfig)
    (isPoller : poller ∈ pollers) (isHost : host ∈ poller.setting.hosts objects.toObjectConfig) :
    (setupHostHashTables objects.toObjectConfig objects.hostgroupList
      (pollingNode masters peers pollers) host).isSome := by
  obtain ⟨name, isName, member⟩ := HostgroupSetting.mem_hosts_iff.mp isHost
  have polls : (pollingNode masters peers pollers).pollers ≠ [] :=
    ne_nil_of_mem (mem_map_of_mem isPoller)
  have isKnown := known poller isPoller name isName
  exact isSome_setupHostHashTables polls ((objects.listed name).mpr isKnown)
    (mem_listings_iff.mpr ⟨poller, isPoller, isName, rfl⟩)
    (ObjectConfig.hostgroup_of_isSome isKnown) member

theorem selection_of_host
    (found : setupHostHashTables objects.toObjectConfig objects.hostgroupList
      (pollingNode masters peers pollers) host = some id) :
    ∃ selection, (pollingNode masters peers pollers).selections[id]? = some selection ∧
      ∃ poller ∈ pollers, selection.name ∈ poller.setting.names ∧
        ∀ other ∈ pollers, selection.name ∈ other.setting.names →
          host ∈ other.setting.hosts objects.toObjectConfig := by
  rw [setupHostHashTables] at found
  split_ifs at found
  rcases foldl_origin hashAddHostgroup_origin found with before | ⟨name, _, isSelection, member⟩
  · cases before
  · obtain ⟨within, isName, _⟩ := findIdx?_eq_some_iff_getElem.mp isSelection
    obtain rfl := of_decide_eq_true isName
    have located := getElem?_eq_getElem within
    obtain ⟨poller, isPoller, isName⟩ := exists_poller_of_selection located
    refine ⟨_, located, poller, isPoller, isName, ?_⟩
    intro other _ named
    exact HostgroupSetting.mem_hosts_iff.mpr ⟨_, named, member⟩

theorem mem_selection_iff (sorter : Sorter (List Char))
    (apart : PollersApart objects.toObjectConfig pollers) {selection : NodeSelection ι}
    (located : (pollingNode masters peers pollers).selections[id]? = some selection)
    {namer : Poller ι} (isNamer : namer ∈ pollers) (names : selection.name ∈ namer.setting.names)
    (namersHost : ∀ other ∈ pollers, selection.name ∈ other.setting.names →
      host ∈ other.setting.hosts objects.toObjectConfig) (isPoller : poller ∈ pollers)
    (isHost : host ∈ poller.setting.hosts objects.toObjectConfig) (node : ι) :
    node ∈ selection.nodes ↔
      ∃ other ∈ pollers, other.csstr sorter = poller.csstr sorter ∧ other.node = node := by
  rw [mem_nodes_iff located]
  constructor
  · rintro ⟨other, isOther, named, same⟩
    refine ⟨other, isOther, ?_, same⟩
    exact (HostgroupSetting.csstr_eq_iff sorter).mpr
      (apart other isOther poller isPoller host (namersHost other isOther named) isHost)
  · rintro ⟨other, isOther, sameGroup, same⟩
    refine ⟨other, isOther, ?_, same⟩
    have perm : other.setting.names.Perm namer.setting.names :=
      ((HostgroupSetting.csstr_eq_iff sorter).mp sameGroup).trans
        (apart poller isPoller namer isNamer host isHost (namersHost namer isNamer names))
    exact perm.mem_iff.mpr names

theorem Initialised.disjoint
    (initialised : Initialised sorter objects.toObjectConfig pollers groups mapped)
    (apart : PollersApart objects.toObjectConfig pollers) :
    (mapped.groups.map fun pg => pg.hosts.map).Pairwise Disjoint := by
  rw [pairwise_map, pairwise_iff_getElem]
  intro first second firstWithin secondWithin before
  obtain ⟨pg, found, poller, isPoller, key, hosts⟩ :=
    initialised.exists_poller (getElem?_eq_getElem firstWithin)
  obtain ⟨other, foundOther, otherPoller, isOther, otherKey, otherHosts⟩ :=
    initialised.exists_poller (getElem?_eq_getElem secondWithin)
  rw [hosts, otherHosts, Finset.disjoint_left]
  intro host inFirst inSecond
  apply before.ne
  apply initialised.index_unique found foundOther
  rw [← key, ← otherKey]
  exact (HostgroupSetting.csstr_eq_iff sorter).mpr
    (apart poller isPoller otherPoller isOther host inFirst inSecond)

theorem routesHost (known : ∀ poller ∈ pollers, poller.setting.Known objects.toObjectConfig)
    (apart : PollersApart objects.toObjectConfig pollers)
    (few : (pollingNode masters peers pollers).selections.length < destMagic)
    (result : pgroupInit sorter objects.toObjectConfig numPeers (pollers.map Poller.configured) =
      some (groups, mapped)) (host : Nat) :
    RoutesHost groups mapped (pollingNode masters peers pollers)
      (setupHostHashTables objects.toObjectConfig objects.hostgroupList
        (pollingNode masters peers pollers)) host := by
  have initialised := pgroupInit_initialised result
  constructor
  · intro group mappedGroup foundMapped isHost
    obtain ⟨_, _, rest⟩ := Option.bind_eq_some_iff.mp result
    obtain ⟨_, isMapped, same⟩ := Option.map_eq_some_iff.mp rest
    cases same
    have located := pgroupMapObjects_hostId2pg isMapped (initialised.disjoint apart) foundMapped
      isHost
    obtain ⟨pg, found, poller, isPoller, key, hosts⟩ := initialised.exists_poller foundMapped
    rw [hosts] at isHost
    obtain ⟨id, isId⟩ := Option.isSome_iff_exists.mp (isSome_of_mem_hosts known isPoller isHost)
    obtain ⟨selection, isSelection, namer, isNamer, names, namersHost⟩ := selection_of_host isId
    have same := mem_selection_iff sorter apart isSelection isNamer names namersHost isPoller isHost
    have sameNodes : ∀ node, node ∈ selection.nodes ↔ node ∈ pg.nodes := by
      intro node
      rw [same, key, ← mem_keyedPollers_iff]
      exact (initialised.collects.holds pg (mem_of_getElem? found) node).symm
    refine ⟨located, pg, id, selection, found, isId, isSelection, ?_, ?_⟩
    · intro node
      rw [← sameNodes, and_iff_left_iff_imp]
      exact mem_pollers_of_mem_nodes isSelection
    · intro node inGroup
      obtain ⟨within, _⟩ := List.getElem?_eq_some_iff.mp isSelection
      rw [isId, getSelection, selectionOr_of_lt ((within.trans few).trans (by decide)),
        Neighbours.nodesBySelId, isSelection]
      exact (sameNodes node).mpr inGroup
  · intro ungrouped
    by_contra routed
    obtain ⟨id, isId⟩ := Option.ne_none_iff_exists'.mp routed
    obtain ⟨_, _, namer, isNamer, names, namersHost⟩ := selection_of_host isId
    obtain ⟨group, pg, mappedGroup, found, foundMapped, key⟩ := initialised.exists_group isNamer
    apply ungrouped mappedGroup (mem_of_getElem? foundMapped)
    rw [initialised.hosts_eq found foundMapped isNamer key]
    exact namersHost namer isNamer names

end Routing

/-- Events reach the pollers of their hosts, provided that there is room for the
hostgroups of every poller when the groups are made. -/
theorem routesHost_iff_roomy
    {ι : Type u} (sorter : Sorter (List Char)) (objects : HostgroupConfig)
    (masters peers : List ι) (pollers : List (Poller ι))
    (known : ∀ poller ∈ pollers, poller.setting.Known objects.toObjectConfig)
    (apart : PollersApart objects.toObjectConfig pollers)
    (few : (pollingNode masters peers pollers).selections.length < destMagic) :
    (∃ groups mapped,
        pgroupInit sorter objects.toObjectConfig peers.length (pollers.map Poller.configured) =
          some (groups, mapped) ∧
        ∀ host < objects.numHosts,
          RoutesHost groups mapped (pollingNode masters peers pollers)
            (setupHostHashTables objects.toObjectConfig objects.hostgroupList
              (pollingNode masters peers pollers)) host) ↔
      ∀ poller ∈ pollers, poller.setting.Roomy := by
  rw [← exists_pgroupInit_iff known]
  constructor
  · rintro ⟨groups, mapped, result, _⟩
    exact ⟨_, result⟩
  · rintro ⟨⟨groups, mapped⟩, result⟩
    exact ⟨groups, mapped, result, fun host _ => routesHost known apart few result host⟩

theorem blankSetting_routes :
    ∃ groups mapped,
      pgroupInit (insertionSorter _) threeHosts 0 [(7, "b, none".toList)] = some (groups, mapped) ∧
      ∀ host < 3,
        RoutesHost groups mapped (pollingNode [] [] [⟨7, blankSetting⟩])
          (setupHostHashTables threeHosts ["a", "b", "c", "none"]
            (pollingNode [] [] [⟨7, blankSetting⟩])) host := by
  refine (routesHost_iff_roomy (insertionSorter _) threeHostgroups [] [] [⟨7, blankSetting⟩]
    ?_ ?_ ?_).mpr ?_
  · decide
  · intro first isFirst second isSecond host _ _
    rw [mem_singleton.mp isFirst, mem_singleton.mp isSecond]
  · decide
  · intro poller member
    rw [mem_singleton.mp member]
    exact .inl ⟨"none", by decide, by decide⟩

theorem shortSetting_overflows :
    ¬ ∃ groups mapped,
      pgroupInit (insertionSorter _) threeHosts 0 [(7, "a".toList)] = some (groups, mapped) ∧
      ∀ host < 3,
        RoutesHost groups mapped (pollingNode [] [] [⟨7, shortSetting⟩])
          (setupHostHashTables threeHosts ["a", "b", "c", "none"]
            (pollingNode [] [] [⟨7, shortSetting⟩])) host := by
  rintro ⟨groups, mapped, result, _⟩
  cases result

end MonitorMerlin
