import MonitorMerlin.Module.Responsibility
import MonitorMerlin.Pgroup.Counts

/-! # Modules with mapped objects -/

namespace MonitorMerlin

open Tally
open List hiding Disjoint

universe u

variable {ι : Type u}

/-- The tables are what `pgroup_map_objects` made. -/
structure Configured (config : ModuleConfig ι) (objects : ObjectConfig) (specs : List GroupSpec)
    (mapped : Mapped) : Prop where
  isMapped : pgroupMapObjects objects config.peers.length specs = some mapped
  ipcTables : config.ipcTables = mapped.ipc
  groupTables : config.pollerGroups.map PollerGroup.tables = mapped.groups
  totalNodes : config.pollerGroups.map (fun group => group.nodes.length) =
    specs.map GroupSpec.totalNodes
  numHosts : config.numHosts = objects.numHosts
  numServices : config.numServices = objects.numServices
  hostId2pg : config.hostId2pg = mapped.mapping.hostId2pg
  serviceId2pg : config.serviceId2pg = mapped.mapping.serviceId2pg

namespace Configured

variable {config : ModuleConfig ι} {objects : ObjectConfig} {specs : List GroupSpec}
  {mapped : Mapped} {spec : PollerGroup ι}

section

variable (configured : Configured config objects specs mapped)

include configured

theorem mapsTo {index : Nat} (found : config.pollerGroups[index]? = some spec) :
    ∃ groupSpec, specs[index]? = some groupSpec ∧ groupSpec.totalNodes = spec.nodes.length ∧
      ∃ memberLists, MapsTo objects config.peers.length groupSpec memberLists spec.tables := by
  have all := (pgroupMapObjects_groupsMapped configured.isMapped).mapsTo
  rw [← configured.groupTables] at all
  have within := (List.getElem?_eq_some_iff.mp found).1
  have specWithin : index < specs.length := by
    rw [all.length_eq, length_map]
    exact within
  have total : (config.pollerGroups.map fun group => group.nodes.length)[index]? =
      (specs.map GroupSpec.totalNodes)[index]? := by
    rw [configured.totalNodes]
  have mapsTo := all.get specWithin (by rwa [length_map])
  rw [getElem?_map, found, getElem?_map, getElem?_eq_getElem specWithin] at total
  refine ⟨specs[index], getElem?_eq_getElem specWithin, (Option.some.inj total).symm, ?_⟩
  simpa [(List.getElem?_eq_some_iff.mp found).2] using mapsTo

theorem located (kind : ObjectKind) :
    Located 0 (config.pollerGroups.map fun spec => (kind.tables spec.tables).map)
      (replicate (kind.total config) none) (kind.id2pg config) := by
  have groupsMapped := pgroupMapObjects_groupsMapped configured.isMapped
  have hosts := groupsMapped.hostId2pg
  have services := groupsMapped.serviceId2pg
  rw [← configured.groupTables, map_map] at hosts services
  cases kind with
  | host =>
    simp only [ObjectKind.total, ObjectKind.id2pg, configured.numHosts, configured.hostId2pg]
    exact hosts
  | service =>
    simp only [ObjectKind.total, ObjectKind.id2pg, configured.numServices, configured.serviceId2pg]
    exact services

variable {kind : ObjectKind} {index id : Nat}

theorem bound (found : config.pollerGroups[index]? = some spec)
    (inMap : id ∈ (kind.tables spec.tables).map) : id < kind.total config := by
  obtain ⟨_, _, _, memberLists, mapsTo⟩ := configured.mapsTo found
  cases kind with
  | host =>
    rw [ObjectKind.total, configured.numHosts]
    exact mapsTo.hostBound id inMap
  | service =>
    rw [ObjectKind.total, configured.numServices]
    exact mapsTo.serviceBound id inMap

theorem hasRanks (found : config.pollerGroups[index]? = some spec)
    (inMap : id ∈ (kind.tables spec.tables).map) : HasRanks (kind.tables spec.tables) := by
  obtain ⟨_, _, _, memberLists, mapsTo⟩ := configured.mapsTo found
  cases kind with
  | host => exact (mapsTo.hasRanks inMap).1
  | service =>
    obtain ⟨host, hostMember, _⟩ := mapsTo.mem_services.mp inMap
    exact (mapsTo.hasRanks hostMember).2

theorem ipcRight (kind : ObjectKind) :
    ∀ n < config.peers.length + 1, ∀ p ≤ n, (kind.tables config.ipcTables).assign n p =
      ((Finset.range (kind.total config)).filter fun id =>
        (∀ spec ∈ config.pollerGroups, id ∉ (kind.tables spec.tables).map) ∧
          id % (n + 1) = p).card := by
  have right := pgroupMapObjects_ipcRight configured.isMapped
  have alloc := pgroupMapObjects_ipc_alloc configured.isMapped
  rw [← configured.groupTables, ← configured.ipcTables] at right
  rw [← configured.ipcTables] at alloc
  intro n within p bound
  rw [← alloc] at within
  cases kind with
  | host =>
    rw [ObjectKind.total, configured.numHosts, ObjectKind.tables, right.hosts n within p bound]
    congr 1
    ext id
    simp
  | service =>
    rw [ObjectKind.total, configured.numServices, ObjectKind.tables,
      right.services n within p bound]
    congr 1
    ext id
    simp

theorem objectsFound (disjoint : (mapped.groups.map fun pg => pg.hosts.map).Pairwise Disjoint)
    (kind : ObjectKind) :
    ObjectsFound kind config := by
  have located := configured.located kind
  have apart : (config.pollerGroups.map fun spec => (kind.tables spec.tables).map).Pairwise
      Disjoint := by
    have services := pgroupMapObjects_services_disjoint configured.isMapped disjoint
    rw [← configured.groupTables, map_map] at disjoint services
    cases kind with
    | host => exact disjoint
    | service => exact services
  constructor
  · intro id bound unpolled
    rw [located.outside id, getElem?_replicate, if_pos bound]
    intro map member
    obtain ⟨spec, isSpec, rfl⟩ := mem_map.mp member
    exact unpolled spec isSpec
  · intro index spec found id inMap
    have bound : id < kind.total config := configured.bound found inMap
    have isLocated := located.inside apart index _
      (by rw [getElem?_map, found, Option.map_some]) id inMap
      (by rw [length_replicate]; exact bound)
    rw [Nat.zero_add] at isLocated
    exact ⟨bound, isLocated⟩
  · intro spec isSpec id inMap
    obtain ⟨index, found⟩ := mem_iff_getElem?.mp isSpec
    obtain ⟨table, isTable, ranked⟩ := configured.hasRanks found inMap
    exact ⟨table, isTable, ranked id inMap⟩
  · exact apart

theorem tablesFor (disjoint : (mapped.groups.map fun pg => pg.hosts.map).Pairwise Disjoint)
    (lastOnly : ∀ spec ∈ specs, ∀ name ∈ spec.hostgroups.dropLast,
      objects.hostgroup name = some []) (kind : ObjectKind) : TablesFor kind config := by
  have right {spec : PollerGroup ι} (isSpec : spec ∈ config.pollerGroups) :
      TablesRight (max (config.peers.length + 1) spec.nodes.length) (kind.tables spec.tables) := by
    obtain ⟨index, found⟩ := mem_iff_getElem?.mp isSpec
    obtain ⟨groupSpec, isGroupSpec, total, memberLists, mapsTo⟩ := configured.mapsTo found
    have tables := mapsTo.tablesRight
      (mapsTo.members.dropLast_iff.mp (lastOnly groupSpec (mem_of_getElem? isGroupSpec)))
    rw [mapsTo.alloc, total] at tables
    cases kind with
    | host => exact tables.1
    | service => exact tables.2
  apply TablesFor.mk (configured.objectsFound disjoint kind) (configured.ipcRight kind)
  · intro spec isSpec n within p bound
    exact (right isSpec).assign n (lt_of_lt_of_le within (le_max_right _ _)) p bound
  · intro spec isSpec n within p bound
    exact (right isSpec).inherit n (lt_of_lt_of_le within (le_max_left _ _)) p bound

end

end Configured

end MonitorMerlin
