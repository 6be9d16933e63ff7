import MonitorMerlin.Library.MachineInt
import MonitorMerlin.Library.Sorting
import MonitorMerlin.Node.State

/-! # Peer groups -/

namespace MonitorMerlin

open MachineInt

universe u

structure Timeval where
  tvSec : Int
  tvUsec : Int
  deriving DecidableEq, Repr

structure PeerNode (ι : Type u) where
  id : ι
  state : NodeState
  start : Timeval
  peerId : Nat
  deriving DecidableEq, Repr

/-- `struct merlin_peer_group`. -/
structure PeerGroup (ι : Type u) where
  nodes : List (PeerNode ι)
  activeNodes : Nat
  takeover : Bool
  hostIdTable : Option (List Nat)
  serviceIdTable : Option (List Nat)
  deriving DecidableEq, Repr

section Local

variable {ι : Type u} [DecidableEq ι] (me : ι)

/-- `timeval_comp` of start times. -/
def timevalComp (a b : PeerNode ι) : Int :=
  if a.id = b.id then
    0
  else if a.start.tvSec = b.start.tvSec then
    truncateInt (a.start.tvUsec - b.start.tvUsec)
  else
    truncateInt (a.start.tvSec - b.start.tvSec)

def PeerNode.sortState (node : PeerNode ι) : NodeState :=
  if node.id = me then .connected else node.state

/-- `cmp_peer`. -/
def cmpPeer (a b : PeerNode ι) : Int :=
  if a.sortState me ≠ b.sortState me ∧ a.sortState me = .connected then
    -1
  else if a.sortState me ≠ b.sortState me ∧ b.sortState me = .connected then
    1
  else if a.start.tvSec ≠ 0 ∧ b.start.tvSec = 0 then
    -1
  else if b.start.tvSec ≠ 0 ∧ a.start.tvSec = 0 then
    1
  else
    timevalComp a b

/-- `pgroup_assign_peer_ids`. -/
def pgroupAssignPeerIds (qsort : Sorting.Sorter (PeerNode ι)) (pg : PeerGroup ι) : PeerGroup ι :=
  let sorted := qsort.sort (cmpPeer me) pg.nodes
  { pg with
    nodes := sorted.mapIdx fun index node => { node with peerId := index }
    activeNodes := sorted.countP fun node => node.id = me ∨ node.state = .connected }

theorem pgroupAssignPeerIds_ids (qsort : Sorting.Sorter (PeerNode ι)) (pg : PeerGroup ι) :
    (pgroupAssignPeerIds me qsort pg).nodes.map PeerNode.id =
      (qsort.sort (cmpPeer me) pg.nodes).map PeerNode.id := by
  apply List.ext_getElem?
  intro index
  simp only [pgroupAssignPeerIds]
  rw [List.getElem?_map, List.getElem?_mapIdx, List.getElem?_map, Option.map_map]
  rfl

end Local

def assignedPeer (id activePeers : Nat) : Nat := if activePeers ≠ 0 then id % activePeers else 0

/-- `pgroup_node`. -/
def pgroupNode {ι : Type u} (ipc pg : PeerGroup ι) (idTable : Option (List Nat)) (id : Nat) :
    Option (PeerNode ι) :=
  match idTable with
  | none => pg.nodes[assignedPeer id pg.activeNodes]?
  | some table =>
    if pg.activeNodes ≠ 0 ∨ pg.takeover = false then
      table[id]?.bind fun realId => pg.nodes[assignedPeer realId pg.activeNodes]?
    else
      ipc.nodes[assignedPeer id ipc.activeNodes]?

structure PeerGroups (ι : Type u) where
  ipc : PeerGroup ι
  hostId2pg : List (Option (PeerGroup ι))
  serviceId2pg : List (Option (PeerGroup ι))
  noHostTable : ipc.hostIdTable = none
  noServiceTable : ipc.serviceIdTable = none

/-- What the two functions below share. -/
def pgroupObjectNode {ι : Type u} (groups : PeerGroups ι) (id2pg : List (Option (PeerGroup ι)))
    (idTable : PeerGroup ι → Option (List Nat)) (id : Nat) : Option (PeerNode ι) :=
  id2pg[id]?.bind fun found =>
    pgroupNode groups.ipc (found.getD groups.ipc) (idTable (found.getD groups.ipc)) id

/-- `pgroup_host_node`. -/
def pgroupHostNode {ι : Type u} (groups : PeerGroups ι) (id : Nat) : Option (PeerNode ι) :=
  pgroupObjectNode groups groups.hostId2pg PeerGroup.hostIdTable id

/-- `pgroup_service_node`. -/
def pgroupServiceNode {ι : Type u} (groups : PeerGroups ι) (id : Nat) : Option (PeerNode ι) :=
  pgroupObjectNode groups groups.serviceId2pg PeerGroup.serviceIdTable id

section Lookup

variable {ι : Type u} {groups : PeerGroups ι} {id2pg : List (Option (PeerGroup ι))}
  {idTable : PeerGroup ι → Option (List Nat)} {id realId : Nat} {pg : PeerGroup ι}
  {table : List Nat}

theorem pgroupObjectNode_unpolled (noTable : idTable groups.ipc = none)
    (unpolled : id2pg[id]? = some none) :
    pgroupObjectNode groups id2pg idTable id =
      groups.ipc.nodes[assignedPeer id groups.ipc.activeNodes]? := by
  rw [pgroupObjectNode, unpolled, Option.bind_some, Option.getD_none, noTable, pgroupNode]

theorem pgroupObjectNode_polled (polled : id2pg[id]? = some (some pg))
    (isTable : idTable pg = some table) (converted : table[id]? = some realId)
    (own : pg.activeNodes ≠ 0 ∨ pg.takeover = false) :
    pgroupObjectNode groups id2pg idTable id = pg.nodes[assignedPeer realId pg.activeNodes]? := by
  rw [pgroupObjectNode, polled, Option.bind_some, Option.getD_some, isTable, pgroupNode,
    if_pos own, converted, Option.bind_some]

end Lookup

def PeerGroups.assign {ι : Type u} [DecidableEq ι]
    (groups : PeerGroups ι) (me : ι) (qsort : Sorting.Sorter (PeerNode ι)) : PeerGroups ι :=
  { groups with ipc := pgroupAssignPeerIds me qsort groups.ipc }

end MonitorMerlin
