import Mathlib.Data.Finset.Union
import MonitorMerlin.Library.Tally

/-! # The objects of peer groups -/

namespace MonitorMerlin

open Tally

structure ObjectConfig where
  numHosts : Nat
  numServices : Nat
  services : Nat → List Nat
  hostgroup : String → Option (List Nat)
  serviceBound : ∀ host < numHosts, ∀ service ∈ services host, service < numServices
  serviceHost : ∀ service < numServices, ∃ host < numHosts, service ∈ services host
  serviceOnce : ∀ host < numHosts, (services host).Nodup
  serviceUnique : ∀ host < numHosts, ∀ other < numHosts, ∀ service,
    service ∈ services host → service ∈ services other → host = other
  memberBound : ∀ name members, hostgroup name = some members → ∀ host ∈ members, host < numHosts

structure ObjectTables where
  map : Finset Nat
  assigned : Nat
  idTable : Option (List Nat)
  assign : Table
  inherit : Table

structure MappedGroup where
  alloc : Nat
  overlapping : Nat
  hosts : ObjectTables
  services : ObjectTables

def ObjectTables.empty : ObjectTables := ⟨∅, 0, none, fun _ _ => 0, fun _ _ => 0⟩

/-- `pgroup_alloc_counters`. -/
def pgroupAllocCounters (numPeers totalNodes : Nat) : MappedGroup :=
  ⟨max (numPeers + 1) totalNodes, 0, .empty, .empty⟩

structure Mapping where
  handledHosts : Finset Nat
  handledServices : Finset Nat
  hostId2pg : List (Option Nat)
  serviceId2pg : List (Option Nat)

structure Numbering where
  next : Nat
  idTable : List Nat
  id2pg : List (Option Nat)
  assign : Table
  inherit : Table

def numberObject (alloc group : Nat) (map : Finset Nat) (numbering : Numbering) (id : Nat) :
    Numbering :=
  if id ∈ map then
    { next := numbering.next + 1
      idTable := numbering.idTable.set id numbering.next
      id2pg := numbering.id2pg.set id (some group)
      assign := bump alloc (fun n => numbering.next % (n + 1)) numbering.assign
      inherit := bump alloc (fun n => id % (n + 1)) numbering.inherit }
  else
    numbering

def createIdTable (alloc group total : Nat) (tables : ObjectTables) (id2pg : List (Option Nat)) :
    ObjectTables × List (Option Nat) :=
  let numbering :=
    (List.range total).foldl (numberObject alloc group tables.map)
      ⟨0, List.replicate total (2 ^ 32 - 1), id2pg, tables.assign, tables.inherit⟩
  ({ tables with
      idTable := some numbering.idTable
      assign := numbering.assign
      inherit := numbering.inherit },
    numbering.id2pg)

/-- `pg_create_id_convtables`. -/
def pgCreateIdConvtables (objects : ObjectConfig) (group : Nat)
    (current : MappedGroup × Mapping) : MappedGroup × Mapping :=
  let (pg, mapping) := current
  let hosts := createIdTable pg.alloc group objects.numHosts pg.hosts mapping.hostId2pg
  let services := createIdTable pg.alloc group objects.numServices pg.services mapping.serviceId2pg
  ({ pg with hosts := hosts.1, services := services.1 },
    { mapping with hostId2pg := hosts.2, serviceId2pg := services.2 })

/-- `pgroup_hgroup_mapper`. -/
def pgroupHgroupMapper (objects : ObjectConfig) (current : MappedGroup × Mapping) (host : Nat) :
    MappedGroup × Mapping :=
  let (pg, mapping) := current
  if host ∈ pg.hosts.map then
    current
  else
    let services := objects.services host
    ({ pg with
        overlapping := if host ∈ mapping.handledHosts then pg.overlapping + 1 else pg.overlapping
        hosts :=
          { pg.hosts with
            map := insert host pg.hosts.map
            assigned := pg.hosts.assigned + 1 }
        services :=
          { pg.services with
            map := services.foldl (fun map service => insert service map) pg.services.map
            assigned := services.foldl (fun assigned _ => assigned + 1) pg.services.assigned } },
      { mapping with
        handledHosts := insert host mapping.handledHosts
        handledServices :=
          services.foldl (fun map service => insert service map) mapping.handledServices })

/-- The hostgroups in `pgroup_map_objects`. -/
def mapHostgroups (objects : ObjectConfig) (group : Nat) :
    List String → MappedGroup × Mapping → Option (MappedGroup × Mapping)
  | [], current => some current
  | name :: names, current =>
    (objects.hostgroup name).bind fun members =>
      mapHostgroups objects group names
        (pgCreateIdConvtables objects group (members.foldl (pgroupHgroupMapper objects) current))

structure GroupSpec where
  hostgroups : List String
  totalNodes : Nat
  deriving DecidableEq, Repr

def mapGroups (objects : ObjectConfig) (numPeers : Nat) :
    (group : Nat) → List GroupSpec → Mapping → Option (List MappedGroup × Mapping)
  | _, [], mapping => some ([], mapping)
  | group, spec :: specs, mapping =>
    (mapHostgroups objects group spec.hostgroups
        (pgroupAllocCounters numPeers spec.totalNodes, mapping)).bind fun mapped =>
      (mapGroups objects numPeers (group + 1) specs mapped.2).map fun others =>
        (mapped.1 :: others.1, others.2)

def assignUnhandled (objects : ObjectConfig) (numPeers : Nat) (handled : Finset Nat)
    (pg : MappedGroup) (host : Nat) : MappedGroup :=
  if host ∈ handled then
    pg
  else
    { pg with
      hosts :=
        { pg.hosts with
          assign := bump (numPeers + 1) (fun x => host % (x + 1)) pg.hosts.assign }
      services :=
        { pg.services with
          assign :=
            (objects.services host).foldl
              (fun assign service => bump (numPeers + 1) (fun x => service % (x + 1)) assign)
              pg.services.assign } }

structure Mapped where
  ipc : MappedGroup
  groups : List MappedGroup
  mapping : Mapping

/-- `pgroup_map_objects`. -/
def pgroupMapObjects (objects : ObjectConfig) (numPeers : Nat) (specs : List GroupSpec) :
    Option Mapped :=
  (mapGroups objects numPeers 0 specs
      ⟨∅, ∅, List.replicate objects.numHosts none, List.replicate objects.numServices none⟩).map
    fun mapped =>
      { ipc :=
          (List.range objects.numHosts).foldl
            (assignUnhandled objects numPeers mapped.2.handledHosts)
            (pgroupAllocCounters numPeers (numPeers + 1))
        groups := mapped.1
        mapping := mapped.2 }

def oneServiceEach (numHosts : Nat) (hostgroup : String → Option (List Nat))
    (memberBound : ∀ name members, hostgroup name = some members →
      ∀ host ∈ members, host < numHosts) : ObjectConfig where
  numHosts := numHosts
  numServices := numHosts
  services host := [host]
  hostgroup := hostgroup
  serviceBound := by
    intro host bound service member
    rw [List.mem_singleton.mp member]
    exact bound
  serviceHost := fun service bound => ⟨service, bound, by simp⟩
  serviceOnce := by simp
  serviceUnique := by
    intro host _ other _ service inHost inOther
    rw [← List.mem_singleton.mp inHost, List.mem_singleton.mp inOther]
  memberBound := memberBound

def threeHosts : ObjectConfig :=
  oneServiceEach 3 (fun name =>
      if name = "a" then some [0] else if name = "b" then some [1] else
        if name = "c" then some [2] else if name = "none" then some [] else none)
    (by
      intro name members found host member
      split_ifs at found <;> cases found <;> simp_all)

end MonitorMerlin
