import MonitorMerlin.Pgroup.Agreement
import MonitorMerlin.Pgroup.Tables

/-! # Master and pollers agree on polled checks -/

namespace MonitorMerlin

open Tally
open List hiding Disjoint

universe u

structure LocalIds (map : Finset Nat) (localId : Nat → Nat) : Prop where
  below : ∀ id ∈ map, localId id < map.card
  ordered : ∀ first ∈ map, ∀ second ∈ map, first < second → localId first < localId second

theorem LocalIds.eq_rank
    {map : Finset Nat} {localId : Nat → Nat} (ids : LocalIds map localId) {id : Nat}
    (member : id ∈ map) : localId id = rank map id := rank_of_order ids.below ids.ordered member

structure Polled (ι : Type u) [DecidableEq ι] where
  objects : ObjectConfig
  numPeers : Nat
  specs : List GroupSpec
  mapped : Mapped
  isMapped : pgroupMapObjects objects numPeers specs = some mapped
  disjoint : (mapped.groups.map fun pg => pg.hosts.map).Pairwise Disjoint
  pollers : Nat → Cluster ι
  populated : ∀ group < specs.length, (pollers group).peers ≠ []
  master : ι
  qsort : Sorting.Sorter (PeerNode ι)
  ipc : PeerGroup ι
  noHostTable : ipc.hostIdTable = none
  noServiceTable : ipc.serviceIdTable = none
  takeover : Nat → Bool
  known : Nat → List (PeerNode ι)
  lists : ∀ group < specs.length, (pollers group).Lists master (known group)
  hostId : ι → Nat → Nat
  serviceId : ι → Nat → Nat
  hostIds : ∀ group pg, mapped.groups[group]? = some pg → ∀ poller ∈ (pollers group).peers,
    LocalIds pg.hosts.map (hostId poller) ∧
      ((pollers group).groups poller).hostId2pg = List.replicate pg.hosts.map.card none
  serviceIds : ∀ group pg, mapped.groups[group]? = some pg → ∀ poller ∈ (pollers group).peers,
    LocalIds pg.services.map (serviceId poller) ∧
      ((pollers group).groups poller).serviceId2pg = List.replicate pg.services.map.card none

namespace Polled

variable {ι : Type u} [DecidableEq ι] (system : Polled ι)

def groupOnMaster (group : Nat) : PeerGroup ι :=
  pgroupAssignPeerIds system.master system.qsort
    { nodes := system.known group
      activeNodes := 0
      takeover := system.takeover group
      hostIdTable := system.mapped.groups[group]?.bind fun pg => pg.hosts.idTable
      serviceIdTable := system.mapped.groups[group]?.bind fun pg => pg.services.idTable }

def masterGroups : PeerGroups ι where
  ipc := system.ipc
  hostId2pg := system.mapped.mapping.hostId2pg.map (Option.map system.groupOnMaster)
  serviceId2pg := system.mapped.mapping.serviceId2pg.map (Option.map system.groupOnMaster)
  noHostTable := system.noHostTable
  noServiceTable := system.noServiceTable

variable {system} {group : Nat} {pg : MappedGroup}

theorem group_lt (found : system.mapped.groups[group]? = some pg) :
    group < system.specs.length := by
  rw [(pgroupMapObjects_groupsMapped system.isMapped).mapsTo.length_eq]
  exact (List.getElem?_eq_some_iff.mp found).1

section

variable (within : group < system.specs.length)

include within

theorem groupOnMaster_activeNodes :
    (system.groupOnMaster group).activeNodes = (system.pollers group).peers.length :=
  (system.lists group within).activeNodes _

theorem exists_owner (number : Nat) :
    ∃ owner ∈ (system.pollers group).peers,
      ((system.groupOnMaster group).nodes[
          assignedPeer number (system.groupOnMaster group).activeNodes]?).map PeerNode.id =
        some owner ∧
      ∀ poller ∈ (system.pollers group).peers,
        (((system.pollers group).assigned poller).ipc.nodes[
            assignedPeer number ((system.pollers group).assigned poller).ipc.activeNodes]?).map
          PeerNode.id = some owner := by
  obtain ⟨first, inPeers⟩ := exists_mem_of_ne_nil _ (system.populated group within)
  obtain ⟨owner, ownerIn, named⟩ := (system.pollers group).exists_owner inPeers number
  refine ⟨owner, ownerIn, ?_, named⟩
  have byFirst := named first inPeers
  rw [Cluster.assigned_activeNodes inPeers, ← getElem?_map] at byFirst
  rw [Cluster.assigned_ids] at byFirst
  rw [groupOnMaster_activeNodes within, ← getElem?_map, groupOnMaster, pgroupAssignPeerIds_ids,
    (system.lists group within).sort_ids_eq (Cluster.lists inPeers)]
  exact byFirst

variable {idTable : PeerGroup ι → Option (List Nat)} {id2pg : List (Option Nat)}
  {tables : ObjectTables} {id : Nat}

theorem agree_on_object {pollerId2pg : PeerGroups ι → List (Option (PeerGroup ι))}
    {localId : ι → Nat → Nat} (located : id2pg[id]? = some (some group))
    (sameTable : idTable (system.groupOnMaster group) = tables.idTable) (ranks : HasRanks tables)
    (member : id ∈ tables.map) (noTable : ∀ groups : PeerGroups ι, idTable groups.ipc = none)
    (ids : ∀ poller ∈ (system.pollers group).peers, LocalIds tables.map (localId poller) ∧
      pollerId2pg ((system.pollers group).assigned poller) = replicate tables.map.card none) :
    ∃ owner ∈ (system.pollers group).peers,
      (pgroupObjectNode system.masterGroups (id2pg.map (Option.map system.groupOnMaster)) idTable
        id).map PeerNode.id = some owner ∧
      ∀ poller ∈ (system.pollers group).peers,
        (pgroupObjectNode ((system.pollers group).assigned poller)
          (pollerId2pg ((system.pollers group).assigned poller)) idTable
          (localId poller id)).map PeerNode.id = some owner := by
  obtain ⟨owner, ownerIn, onMaster, onPollers⟩ := exists_owner within (rank tables.map id)
  refine ⟨owner, ownerIn, ?_, ?_⟩
  · obtain ⟨table, isTable, ranked⟩ := ranks
    have active : (system.groupOnMaster group).activeNodes ≠ 0 := by
      rw [groupOnMaster_activeNodes within]
      exact fun none => system.populated group within (eq_nil_of_length_eq_zero none)
    rw [pgroupObjectNode_polled _ (sameTable.trans isTable) (ranked id member) (.inl active)]
    · exact onMaster
    · rw [getElem?_map, located, Option.map_some, Option.map_some]
  · intro poller inPeers
    obtain ⟨localIds, unpolled⟩ := ids poller inPeers
    have own : (pollerId2pg ((system.pollers group).assigned poller))[rank tables.map id]? =
        some none := by
      rw [unpolled, getElem?_replicate, if_pos (rank_lt_card member)]
    rw [localIds.eq_rank member, pgroupObjectNode_unpolled (noTable _) own]
    exact onPollers poller inPeers

end

end Polled

/-- For every object of a poller group the master names the poller that each poller of the
group names, if the hosts of groups are disjoint. -/
theorem master_and_pollers_agree
    {ι : Type u} [DecidableEq ι] (system : Polled ι) (group : Nat) (pg : MappedGroup)
    (found : system.mapped.groups[group]? = some pg) :
    (∀ host ∈ pg.hosts.map, ∃ owner ∈ (system.pollers group).peers,
      (pgroupHostNode system.masterGroups host).map PeerNode.id = some owner ∧
      ∀ poller ∈ (system.pollers group).peers,
        (pgroupHostNode ((system.pollers group).assigned poller)
          (system.hostId poller host)).map PeerNode.id = some owner) ∧
    (∀ service ∈ pg.services.map, ∃ owner ∈ (system.pollers group).peers,
      (pgroupServiceNode system.masterGroups service).map PeerNode.id = some owner ∧
      ∀ poller ∈ (system.pollers group).peers,
        (pgroupServiceNode ((system.pollers group).assigned poller)
          (system.serviceId poller service)).map PeerNode.id = some owner) ∧
    ∀ host ∈ pg.hosts.map, ∃ table, pg.hosts.idTable = some table ∧
      table[host]? = some (pg.hosts.map.filter (· < host)).card := by
  have within := Polled.group_lt found
  obtain ⟨_, _, _, mapsTo⟩ := pgroupMapObjects_mapsTo system.isMapped pg (mem_of_getElem? found)
  refine ⟨?_, ?_, ?_⟩
  · intro host member
    have located := pgroupMapObjects_hostId2pg system.isMapped system.disjoint found member
    refine Polled.agree_on_object within located ?_ (mapsTo.hasRanks member).1 member
      PeerGroups.noHostTable (system.hostIds group pg found)
    exact congrArg (Option.bind · _) found
  · intro service member
    obtain ⟨host, hostMember, _⟩ := mapsTo.mem_services.mp member
    have located := pgroupMapObjects_serviceId2pg system.isMapped system.disjoint found member
    refine Polled.agree_on_object within located ?_ (mapsTo.hasRanks hostMember).2 member
      PeerGroups.noServiceTable (system.serviceIds group pg found)
    exact congrArg (Option.bind · _) found
  · intro host member
    obtain ⟨table, isTable, ranked⟩ := (mapsTo.hasRanks member).1
    exact ⟨table, isTable, by rw [ranked host member, rank_eq_card]⟩

def pollerStart (node : Fin 5) : Timeval := ⟨1000 + node.val, 7⟩

def pollerGroups (start : Fin 5 → Timeval) (me : Fin 5) : PeerGroups (Fin 5) where
  ipc :=
    { nodes := [⟨me, .none, start me, 0⟩, ⟨-me, .connected, start (-me), 0⟩]
      activeNodes := 0
      takeover := false
      hostIdTable := none
      serviceIdTable := none }
  hostId2pg := [none, none]
  serviceId2pg := [none, none]
  noHostTable := rfl
  noServiceTable := rfl

def twoPollers : Cluster (Fin 5) where
  peers := [1, 4]
  distinct := by decide
  start := pollerStart
  startValid node _ := by
    have bound := node.isLt
    constructor <;> simp only [pollerStart] <;> omega
  startDistinct := by decide
  groups := pollerGroups pollerStart
  qsort _ := Sorting.insertionSorter (PeerNode (Fin 5))
  listed := by decide
  connected := by decide
  started := by decide

def sampleMapped : Mapped := (pgroupMapObjects threeHosts 0 [⟨["b", "c"], 2⟩]).get (by decide)

theorem sampleMapped_maps :
    ∀ pg ∈ sampleMapped.groups, pg.hosts.map = {1, 2} ∧ pg.services.map = {1, 2} := by
  decide +kernel

theorem localIds_sample : LocalIds {1, 2} (· - 1) := ⟨by decide, by decide⟩

def knownPollers (start : Fin 5 → Timeval) : List (PeerNode (Fin 5)) :=
  [⟨4, .connected, start 4, 0⟩, ⟨1, .connected, start 1, 0⟩]

def twoPolled : Polled (Fin 5) where
  objects := threeHosts
  numPeers := 0
  specs := [⟨["b", "c"], 2⟩]
  mapped := sampleMapped
  isMapped := (Option.some_get _).symm
  disjoint := pairwise_singleton _ _
  pollers _ := twoPollers
  populated _ _ := by decide
  master := 0
  qsort := Sorting.insertionSorter (PeerNode (Fin 5))
  ipc := ⟨[⟨0, .none, pollerStart 0, 0⟩], 1, false, none, none⟩
  noHostTable := rfl
  noServiceTable := rfl
  takeover _ := true
  known _ := knownPollers pollerStart
  lists _ _ := ⟨by decide, by decide, by decide⟩
  hostId _ host := host - 1
  serviceId _ service := service - 1
  hostIds group pg found poller _ := by
    rw [(sampleMapped_maps pg (mem_of_getElem? found)).1]
    exact ⟨localIds_sample, rfl⟩
  serviceIds group pg found poller _ := by
    rw [(sampleMapped_maps pg (mem_of_getElem? found)).2]
    exact ⟨localIds_sample, rfl⟩

theorem master_and_pollers_agree_twoPolled :
    ∃ pg, twoPolled.mapped.groups[0]? = some pg ∧ 2 ∈ pg.hosts.map ∧
      ∃ owner ∈ twoPollers.peers,
        (pgroupHostNode twoPolled.masterGroups 2).map PeerNode.id = some owner ∧
        ∀ poller ∈ twoPollers.peers,
          (pgroupHostNode (twoPollers.assigned poller) 1).map PeerNode.id = some owner := by
  refine ⟨_, rfl, by decide +kernel, ?_⟩
  exact (master_and_pollers_agree twoPolled 0 _ rfl).1 2 (by decide +kernel)

def farStart (node : Fin 5) : Timeval := ⟨1000, if node = 4 then 2 ^ 32 else 0⟩

def pollersOnMaster (start : Fin 5 → Timeval) : PeerGroup (Fin 5) :=
  pgroupAssignPeerIds 0 (Sorting.insertionSorter (PeerNode (Fin 5)))
    { nodes := knownPollers start
      activeNodes := 0
      takeover := true
      hostIdTable := sampleMapped.groups[0]?.bind fun pg => pg.hosts.idTable
      serviceIdTable := sampleMapped.groups[0]?.bind fun pg => pg.services.idTable }

def masterOf (start : Fin 5 → Timeval) : PeerGroups (Fin 5) where
  ipc := ⟨[⟨0, .none, start 0, 0⟩], 1, false, none, none⟩
  hostId2pg := sampleMapped.mapping.hostId2pg.map (Option.map fun _ => pollersOnMaster start)
  serviceId2pg := sampleMapped.mapping.serviceId2pg.map (Option.map fun _ => pollersOnMaster start)
  noHostTable := rfl
  noServiceTable := rfl

def pollerAbove : PeerGroups (Fin 5) :=
  { pollerGroups pollerStart 1 with
    hostId2pg :=
      replicate 2 (some ⟨[⟨2, .connected, pollerStart 2, 0⟩], 1, true, some [0, 1], none⟩) }

theorem master_and_pollers_disagree :
    ((∀ node, 0 < (farStart node).tvSec ∧ (farStart node).tvSec < 2 ^ 31) ∧
        farStart 1 ≠ farStart 4 ∧
        (pgroupHostNode (masterOf farStart) 2).map PeerNode.id = some 1 ∧
        ((pgroupHostNode ((pollerGroups farStart 1).assign 1 (Sorting.insertionSorter _)) 1).map
          PeerNode.id = some 4) ∧
        (pgroupHostNode ((pollerGroups farStart 4).assign 4 (Sorting.insertionSorter _)) 1).map
          PeerNode.id = some 1) ∧
      (pgroupHostNode (masterOf pollerStart) 2).map PeerNode.id = some 4 ∧
      (pgroupHostNode (pollerAbove.assign 1 (Sorting.insertionSorter _)) 1).map PeerNode.id =
        some 2 := by
  decide +kernel

end MonitorMerlin
