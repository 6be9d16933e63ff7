import MonitorMerlin.Pgroup.Order

/-! # Peers agree on who runs a check -/

namespace MonitorMerlin

open MachineInt

universe u

def Timeval.le (a b : Timeval) : Prop :=
  a.tvSec < b.tvSec ∨ (a.tvSec = b.tvSec ∧ a.tvUsec ≤ b.tvUsec)

structure Timeval.Valid (time : Timeval) : Prop where
  secPos : 0 < time.tvSec
  secBound : time.tvSec < 2 ^ 31
  usecNonneg : 0 ≤ time.tvUsec
  usecBound : time.tvUsec < 2 ^ 31

theorem Timeval.Valid.bounded {time : Timeval} (valid : time.Valid) : time.Bounded := by
  obtain ⟨secPos, secBound, usecNonneg, usecBound⟩ := valid
  exact ⟨secPos.le, secBound, usecNonneg, usecBound⟩

theorem Timeval.le_antisymm {a b : Timeval} (ab : a.le b) (ba : b.le a) : a = b := by
  obtain ⟨aSec, aUsec⟩ := a
  obtain ⟨bSec, bUsec⟩ := b
  simp only [Timeval.le] at ab ba
  rw [Timeval.mk.injEq]
  omega

section Comparator

variable {ι : Type u} [DecidableEq ι] {me : ι}

structure PeerNode.Live (me : ι) (node : PeerNode ι) : Prop where
  connected : node.sortState me = .connected
  start : node.start.Valid

variable {a b : PeerNode ι}

theorem cmpPeer_live (liveA : a.Live me) (liveB : b.Live me) : cmpPeer me a b = if a.id = b.id then
        0
      else if a.start.tvSec = b.start.tvSec then
        a.start.tvUsec - b.start.tvUsec
      else
        a.start.tvSec - b.start.tvSec := by
  obtain ⟨connectedA, secPosA, secBoundA, usecNonnegA, usecBoundA⟩ := liveA
  obtain ⟨connectedB, secPosB, secBoundB, usecNonnegB, usecBoundB⟩ := liveB
  have secs : truncateInt (a.start.tvSec - b.start.tvSec) = a.start.tvSec - b.start.tvSec :=
    truncateInt_of_bounded (by omega) (by omega)
  have usecs : truncateInt (a.start.tvUsec - b.start.tvUsec) = a.start.tvUsec - b.start.tvUsec :=
    truncateInt_of_bounded (by omega) (by omega)
  rw [cmpPeer, connectedA, connectedB, if_neg (by simp), if_neg (by simp), if_neg (by omega),
    if_neg (by omega), timevalComp, secs, usecs]

theorem cmpPeer_le_iff (liveA : a.Live me) (liveB : b.Live me)
    (sameStart : a.id = b.id → a.start = b.start) : cmpPeer me a b ≤ 0 ↔ a.start.le b.start := by
  rw [cmpPeer_live liveA liveB, Timeval.le]
  split_ifs with same
  · rw [sameStart same]
    simp
  · omega
  · omega

end Comparator

/-- Connected peers that know the start times of each other. -/
structure Cluster (ι : Type u) [DecidableEq ι] where
  peers : List ι
  distinct : peers.Nodup
  start : ι → Timeval
  startValid : ∀ peer ∈ peers, (start peer).Valid
  startDistinct : ∀ a ∈ peers, ∀ b ∈ peers, start a = start b → a = b
  groups : ι → PeerGroups ι
  qsort : ι → Sorting.Sorter (PeerNode ι)
  listed : ∀ me ∈ peers, ((groups me).ipc.nodes.map PeerNode.id).Perm peers
  connected : ∀ me ∈ peers, ∀ node ∈ (groups me).ipc.nodes, node.id ≠ me → node.state = .connected
  started : ∀ me ∈ peers, ∀ node ∈ (groups me).ipc.nodes, node.start = start node.id

namespace Cluster

variable {ι : Type u} [DecidableEq ι] (cluster : Cluster ι)

def assigned (me : ι) : PeerGroups ι := (cluster.groups me).assign me (cluster.qsort me)

def StartsBefore (a b : ι) : Prop := (cluster.start a).le (cluster.start b)

structure Lists (me : ι) (nodes : List (PeerNode ι)) : Prop where
  listed : (nodes.map PeerNode.id).Perm cluster.peers
  connected : ∀ node ∈ nodes, node.sortState me = .connected
  started : ∀ node ∈ nodes, node.start = cluster.start node.id

variable {cluster} {me other : ι} {nodes : List (PeerNode ι)}

namespace Lists

section

variable (lists : cluster.Lists me nodes)

include lists

theorem mem_peers {node : PeerNode ι} (inNodes : node ∈ nodes) : node.id ∈ cluster.peers :=
  lists.listed.mem_iff.mp (List.mem_map.mpr ⟨node, inNodes, rfl⟩)

theorem live : ∀ node ∈ nodes, node.Live me := by
  intro node inNodes
  refine ⟨lists.connected node inNodes, ?_⟩
  rw [lists.started node inNodes]
  exact cluster.startValid node.id (lists.mem_peers inNodes)

theorem sameStart : ∀ a ∈ nodes, ∀ b ∈ nodes, a.id = b.id → a.start = b.start := by
  intro a memberA b memberB same
  rw [lists.started a memberA, lists.started b memberB, same]

theorem consistent : Sorting.Consistent (cmpPeer me) nodes := by
  apply cmpPeer_consistent_of_bounded
  · intro node inNodes
    exact (lists.live node inNodes).start.bounded
  · intro a memberA b memberB same
    exact List.inj_on_of_nodup_map (lists.listed.nodup_iff.mpr cluster.distinct) memberA memberB
      same

theorem follows :
    ∀ a ∈ nodes, ∀ b ∈ nodes, cmpPeer me a b ≤ 0 → cluster.StartsBefore a.id b.id := by
  intro a memberA b memberB before
  rw [StartsBefore, ← lists.started a memberA, ← lists.started b memberB]
  exact (cmpPeer_le_iff (lists.live a memberA) (lists.live b memberB)
    (lists.sameStart a memberA b memberB)).mp before

theorem sort_ids_eq {nodes' : List (PeerNode ι)} (lists' : cluster.Lists other nodes')
    (qsort qsort' : Sorting.Sorter (PeerNode ι)) :
    (qsort.sort (cmpPeer me) nodes).map PeerNode.id =
      (qsort'.sort (cmpPeer other) nodes').map PeerNode.id := by
  apply qsort.map_sort_eq qsort' lists.consistent lists'.consistent lists.follows lists'.follows _
    (lists.listed.trans lists'.listed.symm)
  intro a memberA b memberB ab ba
  exact cluster.startDistinct a (lists.listed.mem_iff.mp memberA) b
    (lists.listed.mem_iff.mp memberB) (Timeval.le_antisymm ab ba)

theorem activeNodes (qsort : Sorting.Sorter (PeerNode ι)) :
    ((qsort.sort (cmpPeer me) nodes).countP fun node => node.id = me ∨ node.state = .connected) =
      cluster.peers.length := by
  have perm := qsort.perm lists.consistent
  have all : ∀ node ∈ qsort.sort (cmpPeer me) nodes,
      decide (node.id = me ∨ node.state = .connected) = true := by
    intro node inSorted
    have connected := lists.connected node (perm.mem_iff.mp inSorted)
    rw [decide_eq_true_iff]
    unfold PeerNode.sortState at connected
    split at connected
    · exact .inl ‹_›
    · exact .inr connected
  rw [List.countP_eq_length.mpr all, perm.length_eq, ← lists.listed.length_eq, List.length_map]

end

end Lists

theorem lists (member : me ∈ cluster.peers) : cluster.Lists me (cluster.groups me).ipc.nodes where
  listed := cluster.listed me member
  connected := by
    intro node inNodes
    unfold PeerNode.sortState
    split
    · rfl
    · exact cluster.connected me member node inNodes ‹_›
  started := cluster.started me member

theorem assigned_ids (me : ι) :
    (cluster.assigned me).ipc.nodes.map PeerNode.id =
      ((cluster.qsort me).sort (cmpPeer me) (cluster.groups me).ipc.nodes).map PeerNode.id :=
  pgroupAssignPeerIds_ids me _ _

theorem assigned_ids_perm (member : me ∈ cluster.peers) :
    ((cluster.assigned me).ipc.nodes.map PeerNode.id).Perm cluster.peers := by
  rw [assigned_ids]
  exact ((Sorting.Sorter.perm _ (lists member).consistent).map _).trans (lists member).listed

theorem assigned_ids_eq (member : me ∈ cluster.peers) (memberOther : other ∈ cluster.peers) :
    (cluster.assigned me).ipc.nodes.map PeerNode.id =
      (cluster.assigned other).ipc.nodes.map PeerNode.id := by
  rw [assigned_ids, assigned_ids]
  exact (lists member).sort_ids_eq (lists memberOther) _ _

theorem assigned_activeNodes (member : me ∈ cluster.peers) :
    (cluster.assigned me).ipc.activeNodes = cluster.peers.length := (lists member).activeNodes _

theorem exists_owner (cluster : Cluster ι) {first : ι} (inPeers : first ∈ cluster.peers)
    (id : Nat) :
    ∃ owner ∈ cluster.peers, ∀ me ∈ cluster.peers,
      ((cluster.assigned me).ipc.nodes[assignedPeer id (cluster.assigned me).ipc.activeNodes]?).map
        PeerNode.id = some owner := by
  have positive : 0 < cluster.peers.length := List.length_pos_of_mem inPeers
  have place : assignedPeer id cluster.peers.length < cluster.peers.length := by
    rw [assignedPeer, if_pos (by omega)]
    exact Nat.mod_lt _ positive
  have length := (assigned_ids_perm inPeers).length_eq
  obtain ⟨owner, owns⟩ : ∃ owner,
      ((cluster.assigned first).ipc.nodes.map PeerNode.id)[
        assignedPeer id cluster.peers.length]? = some owner :=
    ⟨_, List.getElem?_eq_getElem (by omega)⟩
  refine ⟨owner, (assigned_ids_perm inPeers).mem_iff.mp (List.mem_of_getElem? owns), ?_⟩
  intro me member
  rw [assigned_activeNodes member, ← List.getElem?_map, assigned_ids_eq member inPeers]
  exact owns

end Cluster

/-- All peers name the same one. -/
def OneRuns {ι : Type u} [DecidableEq ι]
    (cluster : Cluster ι) (choose : PeerGroups ι → Option (PeerNode ι)) : Prop :=
  ∃ owner ∈ cluster.peers,
    (∀ me ∈ cluster.peers, (choose (cluster.assigned me)).map PeerNode.id = some owner) ∧
      ∀ me ∈ cluster.peers, (choose (cluster.assigned me)).map PeerNode.id = some me ↔ me = owner

theorem Cluster.oneRuns {ι : Type u} [DecidableEq ι] {cluster : Cluster ι} {first : ι}
    {choose : PeerGroups ι → Option (PeerNode ι)} (id : Nat) (inPeers : first ∈ cluster.peers)
    (chooses : ∀ me ∈ cluster.peers, choose (cluster.assigned me) =
      (cluster.assigned me).ipc.nodes[assignedPeer id (cluster.assigned me).ipc.activeNodes]?) :
    OneRuns cluster choose := by
  obtain ⟨owner, ownerIn, named⟩ := cluster.exists_owner inPeers id
  have same : ∀ me ∈ cluster.peers,
      (choose (cluster.assigned me)).map PeerNode.id = some owner := by
    intro me member
    rw [chooses me member]
    exact named me member
  refine ⟨owner, ownerIn, same, fun me member => ?_⟩
  rw [same me member, Option.some.injEq, eq_comm]

/-- All peers have the same sequence of nodes, and every check that is of no poller group is
run by exactly one peer, which all others name. -/
theorem peers_agree
    {ι : Type u} [DecidableEq ι] (cluster : Cluster ι) (nonempty : cluster.peers ≠ []) :
    (∀ me ∈ cluster.peers, ∀ other ∈ cluster.peers,
        (cluster.assigned me).ipc.nodes.map PeerNode.id =
          (cluster.assigned other).ipc.nodes.map PeerNode.id) ∧
      (∀ id, (∀ me ∈ cluster.peers, (cluster.groups me).hostId2pg[id]? = some none) →
        OneRuns cluster fun groups => pgroupHostNode groups id) ∧
      ∀ id, (∀ me ∈ cluster.peers, (cluster.groups me).serviceId2pg[id]? = some none) →
        OneRuns cluster fun groups => pgroupServiceNode groups id := by
  obtain ⟨first, inPeers⟩ := List.exists_mem_of_ne_nil _ nonempty
  refine ⟨fun me member other memberOther => Cluster.assigned_ids_eq member memberOther, ?_, ?_⟩
  · intro id unpolled
    exact Cluster.oneRuns id inPeers fun me member =>
      pgroupObjectNode_unpolled (cluster.assigned me).noHostTable (unpolled me member)
  · intro id unpolled
    exact Cluster.oneRuns id inPeers fun me member =>
      pgroupObjectNode_unpolled (cluster.assigned me).noServiceTable (unpolled me member)

def twoPeers : Cluster Bool where
  peers := [false, true]
  distinct := by decide
  start peer := ⟨if peer then 2000 else 1000, 7⟩
  startValid peer _ := by cases peer <;> exact ⟨by decide, by decide, by decide, by decide⟩
  startDistinct a _ b _ same := by revert same; cases a <;> cases b <;> decide
  groups me :=
    { ipc :=
        { nodes :=
            [⟨me, .none, ⟨if me then 2000 else 1000, 7⟩, 0⟩,
              ⟨!me, .connected, ⟨if !me then 2000 else 1000, 7⟩, 0⟩]
          activeNodes := 0
          takeover := false
          hostIdTable := none
          serviceIdTable := none }
      hostId2pg := [none]
      serviceId2pg := [none]
      noHostTable := rfl
      noServiceTable := rfl }
  qsort _ := Sorting.insertionSorter (PeerNode Bool)
  listed me _ := by cases me <;> decide
  connected me _ node inNodes := by cases me <;> simp at inNodes <;> grind
  started me _ node inNodes := by cases me <;> simp at inNodes <;> grind

theorem peers_agree_twoPeers :
    OneRuns twoPeers (fun groups => pgroupHostNode groups 0) ∧
      OneRuns twoPeers fun groups => pgroupServiceNode groups 0 :=
  ⟨(peers_agree twoPeers (by decide)).2.1 0 fun me _ => by cases me <;> rfl,
    (peers_agree twoPeers (by decide)).2.2 0 fun me _ => by cases me <;> rfl⟩

end MonitorMerlin
