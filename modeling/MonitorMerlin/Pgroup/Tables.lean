import MonitorMerlin.Pgroup.Numbering

/-! # What the tables of peer groups hold -/

namespace MonitorMerlin

open Tally
open List hiding Disjoint

def servicesOf (objects : ObjectConfig) (hosts : Finset Nat) : Finset Nat :=
  hosts.biUnion fun host => (objects.services host).toFinset

structure Collected (objects : ObjectConfig) (current : MappedGroup × Mapping) : Prop where
  bound : ∀ host ∈ current.1.hosts.map, host < objects.numHosts
  services : current.1.services.map = servicesOf objects current.1.hosts.map
  hostsAssigned : current.1.hosts.assigned = current.1.hosts.map.card
  servicesAssigned : current.1.services.assigned = current.1.services.map.card
  handled : current.1.hosts.map ⊆ current.2.handledHosts

structure KeepsTables (before after : MappedGroup × Mapping) : Prop where
  alloc : after.1.alloc = before.1.alloc
  hostsAssign : after.1.hosts.assign = before.1.hosts.assign
  hostsInherit : after.1.hosts.inherit = before.1.hosts.inherit
  servicesAssign : after.1.services.assign = before.1.services.assign
  servicesInherit : after.1.services.inherit = before.1.services.inherit
  hostId2pg : after.2.hostId2pg = before.2.hostId2pg
  serviceId2pg : after.2.serviceId2pg = before.2.serviceId2pg

section Mapper

variable {objects : ObjectConfig} {current : MappedGroup × Mapping}

theorem foldl_insert (items : List Nat) (set : Finset Nat) :
    items.foldl (fun map item => insert item map) set = set ∪ items.toFinset := by
  induction items generalizing set with
  | nil => simp
  | cons item items ih =>
    rw [foldl_cons, ih, toFinset_cons, Finset.insert_union, Finset.union_insert]

theorem foldl_succ (items : List Nat) (count : Nat) :
    items.foldl (fun assigned _ => assigned + 1) count = count + items.length := by
  induction items generalizing count with
  | nil => rfl
  | cons item items ih =>
    rw [foldl_cons, ih, length_cons]
    omega

variable {hosts : Finset Nat} {service : Nat}

theorem mem_servicesOf :
    service ∈ servicesOf objects hosts ↔ ∃ host ∈ hosts, service ∈ objects.services host := by
  simp [servicesOf]

variable {host : Nat}

theorem mem_servicesOf_iff (bound : ∀ other ∈ hosts, other < objects.numHosts)
    (hostBound : host < objects.numHosts) (inHost : service ∈ objects.services host) :
    service ∈ servicesOf objects hosts ↔ host ∈ hosts := by
  rw [mem_servicesOf]
  constructor
  · rintro ⟨other, member, inOther⟩
    rwa [objects.serviceUnique host hostBound other (bound other member) service inHost inOther]
  · intro member
    exact ⟨host, member, inHost⟩

theorem servicesOf_insert (objects : ObjectConfig) (host : Nat) (hosts : Finset Nat) :
    servicesOf objects (insert host hosts) =
      servicesOf objects hosts ∪ (objects.services host).toFinset := by
  unfold servicesOf
  rw [Finset.biUnion_insert, Finset.union_comm]

section

variable (bound : ∀ other ∈ hosts, other < objects.numHosts) (hostBound : host < objects.numHosts)
  (new : host ∉ hosts)

include bound hostBound new

theorem disjoint_servicesOf :
    Disjoint (servicesOf objects hosts) (objects.services host).toFinset := by
  rw [Finset.disjoint_right]
  intro service inHost
  rwa [mem_servicesOf_iff bound hostBound (mem_toFinset.mp inHost)]

theorem card_servicesOf_insert :
    (servicesOf objects (insert host hosts)).card =
      (servicesOf objects hosts).card + (objects.services host).length := by
  rw [servicesOf_insert, Finset.card_union_of_disjoint (disjoint_servicesOf bound hostBound new),
    toFinset_card_of_nodup (objects.serviceOnce host hostBound)]

end

theorem KeepsTables.refl (current : MappedGroup × Mapping) : KeepsTables current current :=
  ⟨rfl, rfl, rfl, rfl, rfl, rfl, rfl⟩

theorem KeepsTables.trans
    {first second third : MappedGroup × Mapping}
    (early : KeepsTables first second) (late : KeepsTables second third) :
    KeepsTables first third where
  alloc := late.alloc.trans early.alloc
  hostsAssign := late.hostsAssign.trans early.hostsAssign
  hostsInherit := late.hostsInherit.trans early.hostsInherit
  servicesAssign := late.servicesAssign.trans early.servicesAssign
  servicesInherit := late.servicesInherit.trans early.servicesInherit
  hostId2pg := late.hostId2pg.trans early.hostId2pg
  serviceId2pg := late.serviceId2pg.trans early.serviceId2pg

theorem pgroupHgroupMapper_spec (collected : Collected objects current)
    (hostBound : host < objects.numHosts) :
    Collected objects (pgroupHgroupMapper objects current host) ∧
      KeepsTables current (pgroupHgroupMapper objects current host) ∧
      (pgroupHgroupMapper objects current host).1.hosts.map = insert host current.1.hosts.map ∧
      (pgroupHgroupMapper objects current host).2.handledHosts =
        insert host current.2.handledHosts := by
  obtain ⟨pg, mapping⟩ := current
  by_cases member : host ∈ pg.hosts.map
  · have result : pgroupHgroupMapper objects (pg, mapping) host = (pg, mapping) := if_pos member
    rw [result, Finset.insert_eq_of_mem member, Finset.insert_eq_of_mem (collected.handled member)]
    exact ⟨collected, .refl _, rfl, rfl⟩
  · have result : pgroupHgroupMapper objects (pg, mapping) host = (_, _) := if_neg member
    rw [result]
    refine ⟨⟨?_, ?_, ?_, ?_, ?_⟩, ⟨rfl, rfl, rfl, rfl, rfl, rfl, rfl⟩, rfl, rfl⟩
    · intro other inMap
      rcases Finset.mem_insert.mp inMap with rfl | before
      · exact hostBound
      · exact collected.bound other before
    · dsimp only
      rw [foldl_insert, servicesOf_insert, collected.services]
    · dsimp only
      rw [Finset.card_insert_of_notMem member, collected.hostsAssigned]
    · dsimp only
      rw [foldl_insert, foldl_succ, collected.services, ← servicesOf_insert,
        card_servicesOf_insert collected.bound hostBound member, collected.servicesAssigned,
        collected.services]
    · exact Finset.insert_subset_insert host collected.handled

theorem foldl_mapper_spec (collected : Collected objects current) {members : List Nat}
    (bound : ∀ host ∈ members, host < objects.numHosts) :
    Collected objects (members.foldl (pgroupHgroupMapper objects) current) ∧
      KeepsTables current (members.foldl (pgroupHgroupMapper objects) current) ∧
      (members.foldl (pgroupHgroupMapper objects) current).1.hosts.map =
        current.1.hosts.map ∪ members.toFinset ∧
      (members.foldl (pgroupHgroupMapper objects) current).2.handledHosts =
        current.2.handledHosts ∪ members.toFinset := by
  induction members generalizing current with
  | nil => exact ⟨collected, .refl _, by simp, by simp⟩
  | cons host members ih =>
    obtain ⟨stepCollected, stepTables, stepMap, stepHandled⟩ :=
      pgroupHgroupMapper_spec collected (bound host (by simp))
    obtain ⟨runCollected, runTables, runMap, runHandled⟩ :=
      ih stepCollected fun other member => bound other (by simp [member])
    rw [foldl_cons]
    refine ⟨runCollected, stepTables.trans runTables, ?_, ?_⟩
    · rw [runMap, stepMap, toFinset_cons, Finset.insert_union, Finset.union_insert]
    · rw [runHandled, stepHandled, toFinset_cons, Finset.insert_union, Finset.union_insert]

end Mapper

def hostPasses (map : Finset Nat) : List (List Nat) → List (Finset Nat)
  | [] => []
  | members :: rest => (map ∪ members.toFinset) :: hostPasses (map ∪ members.toFinset) rest

def HasRanks (tables : ObjectTables) : Prop :=
  ∃ table, tables.idTable = some table ∧ ∀ id ∈ tables.map, table[id]? = some (rank tables.map id)

structure Counted (alloc : Nat) (passes : List (Finset Nat)) (before after : ObjectTables) :
    Prop where
  assign : ∀ row < alloc, ∀ index, after.assign row index = before.assign row index +
    (passes.map fun map => share (rank map) map row index).sum
  inherit : ∀ row < alloc, ∀ index, after.inherit row index = before.inherit row index +
    (passes.map fun map => share id map row index).sum

structure GroupMapped
    (objects : ObjectConfig) (group : Nat) (memberLists : List (List Nat))
    (before after : MappedGroup × Mapping) : Prop where
  collected : Collected objects after
  alloc : after.1.alloc = before.1.alloc
  hostsMap : after.1.hosts.map = before.1.hosts.map ∪ memberLists.flatten.toFinset
  handled : after.2.handledHosts = before.2.handledHosts ∪ memberLists.flatten.toFinset
  hosts : Counted before.1.alloc (hostPasses before.1.hosts.map memberLists)
    before.1.hosts after.1.hosts
  services : Counted before.1.alloc
    ((hostPasses before.1.hosts.map memberLists).map (servicesOf objects))
    before.1.services after.1.services
  ranks : memberLists ≠ [] → HasRanks after.1.hosts ∧ HasRanks after.1.services
  hostId2pg : memberLists ≠ [] → ∀ id, after.2.hostId2pg[id]? =
    written after.1.hosts.map (fun _ => some group) before.2.hostId2pg objects.numHosts id
  serviceId2pg : memberLists ≠ [] → ∀ id, after.2.serviceId2pg[id]? =
    written after.1.services.map (fun _ => some group) before.2.serviceId2pg objects.numServices id
  unmapped : memberLists = [] → after = before

section Groups

variable {objects : ObjectConfig} {current : MappedGroup × Mapping}

theorem Collected.serviceBound (collected : Collected objects current) :
    ∀ service ∈ current.1.services.map, service < objects.numServices := by
  intro service member
  rw [collected.services] at member
  obtain ⟨host, inMap, inHost⟩ := mem_servicesOf.mp member
  exact objects.serviceBound host (collected.bound host inMap) service inHost

theorem Converted.counted
    {alloc group total : Nat} {tables before : ObjectTables} {id2pg : List (Option Nat)}
    {result : ObjectTables × List (Option Nat)}
    (converted : Converted alloc group total tables id2pg result)
    (sameAssign : tables.assign = before.assign) (sameInherit : tables.inherit = before.inherit) :
    Counted alloc [tables.map] before result.1 := by
  constructor
  · intro row within index
    rw [← sameAssign, map_singleton, sum_singleton]
    exact converted.assign row within index
  · intro row within index
    rw [← sameInherit, map_singleton, sum_singleton]
    exact converted.inherit row within index

variable {members : List Nat}

theorem pass_groupMapped (group : Nat) (collected : Collected objects current)
    (bound : ∀ host ∈ members, host < objects.numHosts) :
    GroupMapped objects group [members] current
      (pgCreateIdConvtables objects group
        (members.foldl (pgroupHgroupMapper objects) current)) := by
  obtain ⟨mapped, tables, map, handled⟩ := foldl_mapper_spec collected bound
  generalize members.foldl (pgroupHgroupMapper objects) current = middle
    at mapped tables map handled
  have hosts := createIdTable_converted middle.1.alloc group objects.numHosts
    middle.2.hostId2pg mapped.bound
  have services := createIdTable_converted middle.1.alloc group objects.numServices
    middle.2.serviceId2pg mapped.serviceBound
  have passes : hostPasses current.1.hosts.map [members] = [middle.1.hosts.map] := by
    rw [map]
    rfl
  constructor
  · exact ⟨mapped.bound, mapped.services, mapped.hostsAssigned, mapped.servicesAssigned,
      mapped.handled⟩
  · exact tables.alloc
  · rw [flatten_singleton]
    exact map
  · rw [flatten_singleton]
    exact handled
  · rw [passes, ← tables.alloc]
    exact hosts.counted tables.hostsAssign tables.hostsInherit
  · rw [passes, map_singleton, ← mapped.services, ← tables.alloc]
    exact services.counted tables.servicesAssign tables.servicesInherit
  · exact fun _ => ⟨hosts.idTable, services.idTable⟩
  · intro _ id
    rw [← tables.hostId2pg]
    exact hosts.id2pg id
  · intro _ id
    rw [← tables.serviceId2pg]
    exact services.id2pg id
  · intro none
    cases none

theorem GroupMapped.refl
    (group : Nat) (collected : Collected objects current) :
    GroupMapped objects group [] current current where
  collected := collected
  alloc := rfl
  hostsMap := by simp
  handled := by simp
  hosts := ⟨fun _ _ _ => rfl, fun _ _ _ => rfl⟩
  services := ⟨fun _ _ _ => rfl, fun _ _ _ => rfl⟩
  ranks := fun some => absurd rfl some
  hostId2pg := fun some => absurd rfl some
  serviceId2pg := fun some => absurd rfl some
  unmapped := fun _ => rfl

theorem Counted.append
    {alloc : Nat} {first second : List (Finset Nat)} {before middle after : ObjectTables}
    (early : Counted alloc first before middle) (late : Counted alloc second middle after) :
    Counted alloc (first ++ second) before after := by
  constructor
  · intro row within index
    rw [late.assign row within, early.assign row within, map_append, sum_append, Nat.add_assoc]
  · intro row within index
    rw [late.inherit row within, early.inherit row within, map_append, sum_append, Nat.add_assoc]

variable {memberLists : List (List Nat)} {group : Nat}

theorem GroupMapped.hosts_subset {before after : MappedGroup × Mapping}
    (mapped : GroupMapped objects group memberLists before after) :
    before.1.hosts.map ⊆ after.1.hosts.map := by
  rw [mapped.hostsMap]
  exact Finset.subset_union_left

theorem GroupMapped.cons {before middle after : MappedGroup × Mapping}
    (early : GroupMapped objects group [members] before middle)
    (late : GroupMapped objects group memberLists middle after) :
    GroupMapped objects group (members :: memberLists) before after := by
  have middleMap : middle.1.hosts.map = before.1.hosts.map ∪ members.toFinset := by
    simpa using early.hostsMap
  have passes : hostPasses before.1.hosts.map (members :: memberLists) =
      hostPasses before.1.hosts.map [members] ++ hostPasses middle.1.hosts.map memberLists := by
    rw [middleMap]
    rfl
  have servicesWithin : middle.1.services.map ⊆ after.1.services.map := by
    rw [early.collected.services, late.collected.services]
    exact Finset.biUnion_subset_biUnion_of_subset_left _ late.hosts_subset
  constructor
  · exact late.collected
  · exact late.alloc.trans early.alloc
  · rw [late.hostsMap, middleMap, flatten_cons, toFinset_append, Finset.union_assoc]
  · rw [late.handled, early.handled, flatten_singleton, flatten_cons,
      toFinset_append, Finset.union_assoc]
  · rw [passes]
    exact early.hosts.append (early.alloc ▸ late.hosts)
  · rw [passes, map_append]
    exact early.services.append (early.alloc ▸ late.services)
  · intro _
    by_cases last : memberLists = []
    · rw [late.unmapped last]
      exact early.ranks (by simp)
    · exact late.ranks last
  · intro _ id
    by_cases last : memberLists = []
    · rw [late.unmapped last]
      exact early.hostId2pg (by simp) id
    · rw [late.hostId2pg last, written_written (early.hostId2pg (by simp)) late.hosts_subset]
  · intro _ id
    by_cases last : memberLists = []
    · rw [late.unmapped last]
      exact early.serviceId2pg (by simp) id
    · rw [late.serviceId2pg last, written_written (early.serviceId2pg (by simp)) servicesWithin]
  · intro none
    cases none

def MembersOf (objects : ObjectConfig) (names : List String) (memberLists : List (List Nat)) :
    Prop :=
  List.Forall₂ (fun name members => objects.hostgroup name = some members) names memberLists

variable {names : List String}

theorem MembersOf.exists_name (members : MembersOf objects names memberLists) {list : List Nat}
    (member : list ∈ memberLists) : ∃ name ∈ names, objects.hostgroup name = some list := by
  induction members with
  | nil => cases member
  | @cons name first names rest found _ hypothesis =>
    rcases mem_cons.mp member with rfl | inRest
    · exact ⟨name, mem_cons_self, found⟩
    · obtain ⟨other, isOther, otherFound⟩ := hypothesis inRest
      exact ⟨other, mem_cons_of_mem _ isOther, otherFound⟩

theorem mapHostgroups_groupMapped {after : MappedGroup × Mapping}
    (collected : Collected objects current)
    (result : mapHostgroups objects group names current = some after) :
    ∃ memberLists, MembersOf objects names memberLists ∧
      GroupMapped objects group memberLists current after := by
  induction names generalizing current with
  | nil =>
    cases result
    exact ⟨[], .nil, .refl group collected⟩
  | cons name names ih =>
    obtain ⟨members, found, rest⟩ := Option.bind_eq_some_iff.mp result
    have pass := pass_groupMapped group collected (objects.memberBound name members found)
    obtain ⟨memberLists, others, mapped⟩ := ih pass.collected rest
    exact ⟨members :: memberLists, .cons found others, pass.cons mapped⟩

end Groups

/-- What `pgroup_map_objects` makes of a group. -/
structure MapsTo
    (objects : ObjectConfig) (numPeers : Nat) (spec : GroupSpec) (memberLists : List (List Nat))
    (pg : MappedGroup) : Prop where
  members : MembersOf objects spec.hostgroups memberLists
  alloc : pg.alloc = max (numPeers + 1) spec.totalNodes
  hostsMap : pg.hosts.map = memberLists.flatten.toFinset
  hostBound : ∀ host ∈ pg.hosts.map, host < objects.numHosts
  servicesMap : pg.services.map = servicesOf objects pg.hosts.map
  hostsAssigned : pg.hosts.assigned = pg.hosts.map.card
  servicesAssigned : pg.services.assigned = pg.services.map.card
  hosts : Counted pg.alloc (hostPasses ∅ memberLists) .empty pg.hosts
  services : Counted pg.alloc ((hostPasses ∅ memberLists).map (servicesOf objects))
    .empty pg.services
  ranks : memberLists ≠ [] → HasRanks pg.hosts ∧ HasRanks pg.services

/-- Which group an object was found to be of. -/
structure Located (group : Nat) (maps : List (Finset Nat)) (before after : List (Option Nat)) :
    Prop where
  length : after.length = before.length
  outside : ∀ id, (∀ map ∈ maps, id ∉ map) → after[id]? = before[id]?
  inside : maps.Pairwise Disjoint → ∀ index map, maps[index]? = some map → ∀ id ∈ map,
    id < before.length → after[id]? = some (some (group + index))
  only : ∀ id index, after[id]? = some (some index) → before[id]? = some (some index) ∨
    ∃ position map, maps[position]? = some map ∧ id ∈ map ∧ index = group + position

structure GroupsMapped
    (objects : ObjectConfig) (numPeers group : Nat) (specs : List GroupSpec)
    (groups : List MappedGroup) (before after : Mapping) : Prop where
  mapsTo : List.Forall₂
    (fun spec pg => ∃ memberLists, MapsTo objects numPeers spec memberLists pg) specs groups
  handled : ∀ host, host ∈ after.handledHosts ↔
    host ∈ before.handledHosts ∨ ∃ pg ∈ groups, host ∈ pg.hosts.map
  hostId2pg : Located group (groups.map fun pg => pg.hosts.map) before.hostId2pg after.hostId2pg
  serviceId2pg : Located group (groups.map fun pg => pg.services.map)
    before.serviceId2pg after.serviceId2pg

section AllGroups

variable {objects : ObjectConfig} {numPeers group : Nat} {before middle after : List (Option Nat)}
  {maps : List (Finset Nat)} {map : Finset Nat} {total : Nat}

theorem Located.cons
    (first : ∀ id, middle[id]? = written map (fun _ => some group) before total id)
    (bounded : ∀ id ∈ map, id < total) (others : Located (group + 1) maps middle after) :
    Located group (map :: maps) before after where
  length := others.length.trans (length_of_written first)
  outside := by
    intro id outside
    rw [others.outside id fun other member => outside other (by simp [member]), first,
      written_of_not_mem (outside map (by simp))]
  inside := by
    intro disjoint index found located id member within
    obtain ⟨apart, disjointOthers⟩ := pairwise_cons.mp disjoint
    cases index with
    | zero =>
      cases located
      have elsewhere : ∀ other ∈ maps, id ∉ other := fun other otherMember =>
        Finset.disjoint_left.mp (apart other otherMember) member
      rw [others.outside id elsewhere, first, written_of_mem member (bounded id member) within]
      rfl
    | succ index =>
      rw [others.inside disjointOthers index found located id member
        (by rw [length_of_written first]; exact within)]
      congr 2
      omega
  only := by
    intro id index found
    rcases others.only id index found with inMiddle | ⟨position, other, isOther, member, rfl⟩
    · rw [first, written] at inMiddle
      split at inMiddle
      · rename_i both
        obtain ⟨_, _, same⟩ := Option.map_eq_some_iff.mp inMiddle
        exact .inr ⟨0, map, rfl, both.2, (Option.some.inj same).symm⟩
      · exact .inl inMiddle
    · exact .inr ⟨position + 1, other, isOther, member, by omega⟩

theorem Located.nil (group : Nat) (before : List (Option Nat)) :
    Located group [] before before where
  length := rfl
  outside := fun _ _ => rfl
  inside := by
    intro _ index map located
    cases located
  only := fun _ _ found => .inl found

theorem Located.getElem?_of_mem {groups : List MappedGroup} {mapOf : MappedGroup → Finset Nat}
    (located : Located 0 (groups.map mapOf) (replicate total none) after)
    (disjoint : (groups.map mapOf).Pairwise Disjoint) {pg : MappedGroup}
    (found : groups[group]? = some pg) {id : Nat} (member : id ∈ mapOf pg) (bound : id < total) :
    after[id]? = some (some group) := by
  rw [← Nat.zero_add group]
  apply located.inside disjoint group (mapOf pg)
  · rw [getElem?_map, found, Option.map_some]
  · exact member
  · rwa [length_replicate]

theorem collected_alloc (objects : ObjectConfig) (numPeers totalNodes : Nat) (mapping : Mapping) :
    Collected objects (pgroupAllocCounters numPeers totalNodes, mapping) where
  bound := by
    intro host member
    exact absurd member (Finset.notMem_empty host)
  services := rfl
  hostsAssigned := rfl
  servicesAssigned := rfl
  handled := Finset.empty_subset _

variable {memberLists : List (List Nat)} {mapping : Mapping}

theorem GroupMapped.mapsTo {spec : GroupSpec} {after : MappedGroup × Mapping}
    (members : MembersOf objects spec.hostgroups memberLists)
    (mapped : GroupMapped objects group memberLists
      (pgroupAllocCounters numPeers spec.totalNodes, mapping) after) :
    MapsTo objects numPeers spec memberLists after.1 where
  members := members
  alloc := mapped.alloc
  hostsMap := by
    rw [mapped.hostsMap]
    exact Finset.empty_union _
  hostBound := mapped.collected.bound
  servicesMap := mapped.collected.services
  hostsAssigned := mapped.collected.hostsAssigned
  servicesAssigned := mapped.collected.servicesAssigned
  hosts := mapped.alloc ▸ mapped.hosts
  services := mapped.alloc ▸ mapped.services
  ranks := mapped.ranks

section MapsTo

variable {spec : GroupSpec} {pg : MappedGroup}

section

variable (mapsTo : MapsTo objects numPeers spec memberLists pg)

include mapsTo

theorem MapsTo.mem_services {service : Nat} :
    service ∈ pg.services.map ↔ ∃ host ∈ pg.hosts.map, service ∈ objects.services host := by
  rw [mapsTo.servicesMap, mem_servicesOf]

theorem MapsTo.serviceBound : ∀ service ∈ pg.services.map, service < objects.numServices := by
  intro service member
  obtain ⟨host, hostMember, inHost⟩ := mapsTo.mem_services.mp member
  exact objects.serviceBound host (mapsTo.hostBound host hostMember) service inHost

theorem MapsTo.hasRanks {host : Nat} (member : host ∈ pg.hosts.map) :
    HasRanks pg.hosts ∧ HasRanks pg.services := by
  apply mapsTo.ranks
  rintro rfl
  rw [mapsTo.hostsMap] at member
  exact Finset.notMem_empty host member

end

end MapsTo

theorem GroupMapped.hostId2pg_written {before after : MappedGroup × Mapping}
    (mapped : GroupMapped objects group memberLists before after) (fresh : before.1.hosts.map = ∅)
    (id : Nat) :
    after.2.hostId2pg[id]? = written after.1.hosts.map (fun _ => some group)
      before.2.hostId2pg objects.numHosts id := by
  by_cases none : memberLists = []
  · rw [mapped.unmapped none, fresh, written_of_not_mem (Finset.notMem_empty id)]
  · exact mapped.hostId2pg none id

theorem GroupMapped.serviceId2pg_written {before after : MappedGroup × Mapping}
    (mapped : GroupMapped objects group memberLists before after)
    (fresh : before.1.services.map = ∅) (id : Nat) :
    after.2.serviceId2pg[id]? = written after.1.services.map (fun _ => some group)
      before.2.serviceId2pg objects.numServices id := by
  by_cases none : memberLists = []
  · rw [mapped.unmapped none, fresh, written_of_not_mem (Finset.notMem_empty id)]
  · exact mapped.serviceId2pg none id

variable {result : List MappedGroup × Mapping} {specs : List GroupSpec}

theorem mapGroups_groupsMapped
    (mapped : mapGroups objects numPeers group specs mapping = some result) :
    GroupsMapped objects numPeers group specs result.1 mapping result.2 := by
  induction specs generalizing group mapping result with
  | nil =>
    cases mapped
    exact ⟨.nil, by simp, .nil _ _, .nil _ _⟩
  | cons spec specs ih =>
    obtain ⟨first, firstMapped, rest⟩ := Option.bind_eq_some_iff.mp mapped
    obtain ⟨others, othersMapped, rfl⟩ := Option.map_eq_some_iff.mp rest
    obtain ⟨memberLists, members, ours⟩ := mapHostgroups_groupMapped
      (collected_alloc objects numPeers spec.totalNodes mapping) firstMapped
    have mapsTo := ours.mapsTo members
    have later := ih othersMapped
    constructor
    · exact .cons ⟨memberLists, mapsTo⟩ later.mapsTo
    · intro host
      rw [later.handled, ours.handled, Finset.mem_union, ← mapsTo.hostsMap]
      simp [or_assoc]
    · exact .cons (ours.hostId2pg_written rfl) ours.collected.bound later.hostId2pg
    · exact .cons (ours.serviceId2pg_written rfl) ours.collected.serviceBound later.serviceId2pg

end AllGroups

variable {objects : ObjectConfig} {numPeers : Nat} {specs : List GroupSpec} {mapped : Mapped}
  (result : pgroupMapObjects objects numPeers specs = some mapped)

include result

theorem pgroupMapObjects_groupsMapped :
    GroupsMapped objects numPeers 0 specs mapped.groups
      ⟨∅, ∅, replicate objects.numHosts none, replicate objects.numServices none⟩
      mapped.mapping := by
  obtain ⟨groups, groupsMapped, rfl⟩ := Option.map_eq_some_iff.mp result
  exact mapGroups_groupsMapped groupsMapped

theorem pgroupMapObjects_mapsTo :
    ∀ pg ∈ mapped.groups, ∃ spec ∈ specs, ∃ memberLists,
      MapsTo objects numPeers spec memberLists pg := by
  intro pg member
  have all := (pgroupMapObjects_groupsMapped result).mapsTo
  obtain ⟨index, within, rfl⟩ := getElem_of_mem member
  have specWithin : index < specs.length := by
    rw [all.length_eq]
    exact within
  exact ⟨specs[index], getElem_mem specWithin, all.get specWithin within⟩

theorem pgroupMapObjects_services_disjoint
    (disjoint : (mapped.groups.map fun pg => pg.hosts.map).Pairwise Disjoint) :
    (mapped.groups.map fun pg => pg.services.map).Pairwise Disjoint := by
  rw [pairwise_map] at disjoint ⊢
  apply disjoint.imp_of_mem
  intro first second memberFirst memberSecond apart
  obtain ⟨_, _, _, mapsFirst⟩ := pgroupMapObjects_mapsTo result first memberFirst
  obtain ⟨_, _, _, mapsSecond⟩ := pgroupMapObjects_mapsTo result second memberSecond
  rw [mapsFirst.servicesMap, mapsSecond.servicesMap, Finset.disjoint_left]
  intro service inFirst
  obtain ⟨host, hostMember, inHost⟩ := mem_servicesOf.mp inFirst
  rw [mem_servicesOf_iff mapsSecond.hostBound (mapsFirst.hostBound host hostMember) inHost]
  exact Finset.disjoint_left.mp apart hostMember

variable {pg : MappedGroup} {group : Nat}

theorem pgroupMapObjects_hostId2pg
    (disjoint : (mapped.groups.map fun pg => pg.hosts.map).Pairwise Disjoint)
    (found : mapped.groups[group]? = some pg) {host : Nat} (member : host ∈ pg.hosts.map) :
    mapped.mapping.hostId2pg[host]? = some (some group) := by
  obtain ⟨_, _, _, mapsTo⟩ := pgroupMapObjects_mapsTo result pg (mem_of_getElem? found)
  exact (pgroupMapObjects_groupsMapped result).hostId2pg.getElem?_of_mem disjoint found member
    (mapsTo.hostBound host member)

theorem pgroupMapObjects_serviceId2pg
    (disjoint : (mapped.groups.map fun pg => pg.hosts.map).Pairwise Disjoint)
    (found : mapped.groups[group]? = some pg) {service : Nat} (member : service ∈ pg.services.map) :
    mapped.mapping.serviceId2pg[service]? = some (some group) := by
  obtain ⟨_, _, _, mapsTo⟩ := pgroupMapObjects_mapsTo result pg (mem_of_getElem? found)
  exact (pgroupMapObjects_groupsMapped result).serviceId2pg.getElem?_of_mem
    (pgroupMapObjects_services_disjoint result disjoint) found member
    (mapsTo.serviceBound service member)

end MonitorMerlin
