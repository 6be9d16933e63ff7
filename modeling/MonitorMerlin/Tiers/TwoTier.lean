import MonitorMerlin.Module.Configured
import MonitorMerlin.Pgroup.Polled

/-! # Clusters of two tiers -/

namespace MonitorMerlin

open Tally
open List hiding Disjoint

universe u

/-- A module with the calls that led to its state. -/
structure ClusterNode (ι : Type u) [DecidableEq ι] where
  config : ModuleConfig ι
  objects : ObjectConfig
  specs : List GroupSpec
  mapped : Mapped
  configured : Configured config objects specs mapped
  disjoint : (mapped.groups.map fun pg => pg.hosts.map).Pairwise Disjoint
  name : ι → String
  notifies : ι → Bool
  qsort : Sorting.Sorter (PeerNode ι)
  ipcState : NodeState
  ipcStart : Timeval
  ipcFits : ipcStart.Bounded
  calls : List (ModuleCall ι)
  fits : ∀ call ∈ calls, call.Fits

inductive NebResult where
  | ok
  | cancel (description : String)
  deriving DecidableEq, Repr

section Node

variable {ι : Type u} [DecidableEq ι]

def ClusterNode.module (node : ClusterNode ι) : ModuleState ι :=
  moduleRun node.config node.qsort node.ipcState node.ipcStart node.calls

def ClusterNode.Connected (node : ClusterNode ι) : Prop :=
  ∀ other ∈ node.config.masters ++ node.config.peers ++ node.config.pollers,
    node.module.state other = .connected

variable {node : ClusterNode ι} {kind : ObjectKind}

namespace ClusterNode

theorem arranged (node : ClusterNode ι) : Arranged node.config none node.module :=
  (moduleRun_resortable node.config node.ipcState (.inr ⟨node.ipcFits, node.fits⟩)).arranged

theorem exact (node : ClusterNode ι) :
    Exact node.config (initialModule node.config node.ipcState node.ipcStart).state node.module :=
  moduleRun_exact node.config node.qsort node.ipcState node.ipcStart node.calls

theorem objectsFound (node : ClusterNode ι) (kind : ObjectKind) : ObjectsFound kind node.config :=
  node.configured.objectsFound node.disjoint kind

section

variable (connected : node.Connected)

include connected

theorem Connected.activeNodes {ref : GroupRef} {group : GroupState ι}
    (found : node.module.groupAt ref = some group) : group.activeNodes = group.nodes.length := by
  rw [(node.arranged.sortedAt found).count, countP_eq_length]
  intro other inGroup
  rw [decide_eq_true_iff]
  have member := (node.arranged.members ref group found).mem_iff.mp inGroup
  cases ref with
  | ipc =>
    rcases mem_cons.mp member with isLocal | inPeers
    · exact .inl isLocal
    · exact .inr (connected other (by simp [inPeers]))
  | poller index => exact .inr (connected other (by simp [mem_pollers_of_mem_members member]))

theorem Connected.active (type : NodeType) :
    node.module.active type = (node.config.nodesOf type).length := by
  rw [node.exact.counters type, countP_eq_length]
  intro other member
  rw [decide_eq_true_iff]
  exact connected other ((nodesOf_sublist node.config type).subset member)

theorem Connected.ipcActiveNodes :
    node.module.ipcGroup.activeNodes = node.module.ipcGroup.nodes.length :=
  connected.activeNodes (show node.module.groupAt .ipc = some node.module.ipcGroup from rfl)

theorem Connected.shouldRunCheck_iff (id : Nat) :
    shouldRunCheck node.config node.module id = true ↔
      node.module.ipcGroup.nodes[id % node.module.ipcGroup.nodes.length]? =
        some node.config.me := by
  rw [MonitorMerlin.shouldRunCheck_iff node.arranged node.exact, connected.ipcActiveNodes]

variable {id : Nat}

theorem Connected.objectNode_unpolled (bound : id < kind.total node.config)
    (unpolled : ∀ spec ∈ node.config.pollerGroups, id ∉ (kind.tables spec.tables).map) :
    objectNode kind node.config node.module id =
      node.module.ipcGroup.nodes[id % node.module.ipcGroup.nodes.length]? := by
  have located := (node.objectsFound kind).unpolled id bound unpolled
  rw [objectNode_of_unpolled located, assignedPeer, if_pos node.arranged.activeNodes_ne_zero,
    connected.ipcActiveNodes]

end

end ClusterNode

end Node

structure Tier (ι : Type u) where
  pollers : List ι
  map : ObjectKind → Finset Nat

section Matches

variable {ι : Type u}

structure Tier.Matches (tier : Tier ι) (pair : PollerGroup ι × GroupState ι) : Prop where
  nodes : pair.2.nodes = tier.pollers
  map : ∀ kind : ObjectKind, (kind.tables pair.1.tables).map = tier.map kind

theorem Tier.Matches.eq {tier other : Tier ι} {pair : PollerGroup ι × GroupState ι}
    (hits : tier.Matches pair) (otherHits : other.Matches pair) : tier = other := by
  cases tier
  cases other
  congr 1
  · exact hits.nodes.symm.trans otherHits.nodes
  · funext kind
    exact (hits.map kind).symm.trans (otherHits.map kind)

end Matches

section Cluster

variable {ι : Type u} [DecidableEq ι]

structure MasterNode (masters : List ι) (groups : List (Tier ι)) (total : ObjectKind → Nat)
    (notifies : ι → Bool) (me : ι) (node : ClusterNode ι) : Prop where
  isMe : node.config.me = me
  top : node.config.masters = []
  order : node.module.ipcGroup.nodes = masters
  total : ∀ kind : ObjectKind, kind.total node.config = total kind
  connected : node.Connected
  found : ∀ tier ∈ groups, ∃ pair ∈ pairs node.config node.module, tier.Matches pair
  only : ∀ pair ∈ pairs node.config node.module, ∃ tier ∈ groups, tier.Matches pair
  flags : ∀ tier ∈ groups, ∀ poller ∈ tier.pollers, node.notifies poller = notifies poller

structure PollerNode (masters : List ι) (tier : Tier ι) (localId : ObjectKind → Nat → Nat)
    (notifies : ι → Bool) (me : ι) (node : ClusterNode ι) : Prop where
  isMe : node.config.me = me
  masters : node.config.masters.Perm masters
  leaf : node.config.pollerGroups = []
  order : node.module.ipcGroup.nodes = tier.pollers
  total : ∀ kind : ObjectKind, kind.total node.config = (tier.map kind).card
  ids : ∀ kind : ObjectKind, LocalIds (tier.map kind) (localId kind)
  connected : node.Connected
  flags : node.notifies me = notifies me

/-- Masters and poller groups that agree on their objects. -/
structure TwoTier (ι : Type u) [DecidableEq ι] where
  masters : List ι
  groups : List (Tier ι)
  total : ObjectKind → Nat
  notifies : ι → Bool
  localId : ι → ObjectKind → Nat → Nat
  node : ι → ClusterNode ι
  someMaster : masters ≠ []
  somePoller : ∀ tier ∈ groups, tier.pollers ≠ []
  distinct : (masters ++ groups.flatMap Tier.pollers).Nodup
  isMaster : ∀ me ∈ masters, MasterNode masters groups total notifies me (node me)
  isPoller : ∀ tier ∈ groups, ∀ me ∈ tier.pollers,
    PollerNode masters tier (localId me) notifies me (node me)

namespace TwoTier

variable (system : TwoTier ι) (kind : ObjectKind) (id : Nat)

def tierOf : Option (Tier ι) := system.groups.find? fun tier => id ∈ tier.map kind

/-- The node that is to run a check. -/
def owner : Option ι :=
  match system.tierOf kind id with
  | some tier => tier.pollers[rank (tier.map kind) id % tier.pollers.length]?
  | none => system.masters[id % system.masters.length]?

variable {system kind id} {tier other : Tier ι} {me : ι}

structure FoundAt (node : ClusterNode ι) (tier : Tier ι) (index : Nat)
    (pair : PollerGroup ι × GroupState ι) : Prop where
  spec : node.config.pollerGroups[index]? = some pair.1
  state : node.module.groupAt (.poller index) = some pair.2
  hits : tier.Matches pair

theorem exists_foundAt (isMaster : me ∈ system.masters) (isTier : tier ∈ system.groups) :
    ∃ index pair, FoundAt (system.node me) tier index pair := by
  obtain ⟨pair, member, hits⟩ := (system.isMaster me isMaster).found tier isTier
  obtain ⟨index, spec, state⟩ := mem_pairs.mp member
  exact ⟨index, pair, spec, state, hits⟩

variable {node : ClusterNode ι} {index : Nat}

theorem FoundAt.eq {pair otherPair : PollerGroup ι × GroupState ι}
    (found : FoundAt node tier index pair) (otherFound : FoundAt node other index otherPair) :
    tier = other := by
  have spec := found.spec.symm.trans otherFound.spec
  have state := found.state.symm.trans otherFound.state
  have same : pair = otherPair := Prod.ext (Option.some.inj spec) (Option.some.inj state)
  rw [← same] at otherFound
  exact found.hits.eq otherFound.hits

variable {poller : ι}

theorem FoundAt.mem_members {pair : PollerGroup ι × GroupState ι}
    (found : FoundAt node tier index pair) :
    poller ∈ node.config.members (.poller index) ↔ poller ∈ tier.pollers := by
  rw [← (node.arranged.members _ _ found.state).mem_iff, found.hits.nodes]

theorem tier_unique (isTier : tier ∈ system.groups) (isOther : other ∈ system.groups)
    (inTier : id ∈ tier.map kind) (inOther : id ∈ other.map kind) : tier = other := by
  obtain ⟨master, isMaster⟩ := exists_mem_of_ne_nil _ system.someMaster
  obtain ⟨index, pair, found⟩ := exists_foundAt isMaster isTier
  obtain ⟨otherIndex, otherPair, otherFound⟩ := exists_foundAt isMaster isOther
  obtain rfl := ((system.node master).objectsFound kind).unique found.spec otherFound.spec
    (by rwa [found.hits.map]) (by rwa [otherFound.hits.map])
  exact found.eq otherFound

theorem tier_unique_of_poller (isTier : tier ∈ system.groups) (isOther : other ∈ system.groups)
    (inTier : me ∈ tier.pollers) (inOther : me ∈ other.pollers) : tier = other := by
  obtain ⟨master, isMaster⟩ := exists_mem_of_ne_nil _ system.someMaster
  obtain ⟨index, pair, found⟩ := exists_foundAt isMaster isTier
  obtain ⟨otherIndex, otherPair, otherFound⟩ := exists_foundAt isMaster isOther
  obtain rfl := members_poller_unique (found.mem_members.mpr inTier)
    (otherFound.mem_members.mpr inOther)
  exact found.eq otherFound

theorem tierOf_eq_some (isTier : tier ∈ system.groups) (inTier : id ∈ tier.map kind) :
    system.tierOf kind id = some tier := by
  unfold tierOf
  cases search : system.groups.find? fun tier => id ∈ tier.map kind with
  | none => exact absurd (decide_eq_true inTier) (find?_eq_none.mp search tier isTier)
  | some other =>
    have inOther := find?_some search
    rw [decide_eq_true_iff] at inOther
    rw [tier_unique isTier (mem_of_find?_eq_some search) inTier inOther]

theorem tierOf_eq_none (unpolled : ∀ tier ∈ system.groups, id ∉ tier.map kind) :
    system.tierOf kind id = none := by
  apply find?_eq_none.mpr
  intro tier isTier inTier
  exact unpolled tier isTier (of_decide_eq_true inTier)

theorem objectNode_master (isMaster : me ∈ system.masters) (bound : id < system.total kind) :
    objectNode kind (system.node me).config (system.node me).module id = system.owner kind id := by
  have view := system.isMaster me isMaster
  by_cases polled : ∃ tier ∈ system.groups, id ∈ tier.map kind
  · obtain ⟨tier, isTier, inTier⟩ := polled
    obtain ⟨pair, member, hits⟩ := view.found tier isTier
    obtain ⟨index, spec, state⟩ := mem_pairs.mp member
    have active := view.connected.activeNodes state
    have alive : pair.2.activeNodes ≠ 0 := by
      rw [active, hits.nodes]
      exact fun none => system.somePoller tier isTier (eq_nil_of_length_eq_zero none)
    rw [objectNode_of_polled ((system.node me).objectsFound kind) spec state (by rwa [hits.map])
      fun taken => alive taken.1, assignedPeer, if_pos alive, active, hits.nodes, hits.map, owner,
      tierOf_eq_some isTier inTier]
  · have unpolled : ∀ tier ∈ system.groups, id ∉ tier.map kind := fun tier isTier inTier =>
      polled ⟨tier, isTier, inTier⟩
    rw [view.connected.objectNode_unpolled (by rwa [view.total]), view.order, owner,
      tierOf_eq_none unpolled]
    intro spec isSpec inMap
    obtain ⟨index, state, found, isState, pair⟩ := (system.node me).arranged.exists_pair isSpec
    obtain ⟨tier, isTier, hits⟩ := view.only _ pair
    exact unpolled tier isTier (by rwa [← hits.map])

theorem objectNode_poller
    (isTier : tier ∈ system.groups) (isPoller : me ∈ tier.pollers) (inTier : id ∈ tier.map kind) :
    objectNode kind (system.node me).config (system.node me).module (system.localId me kind id) =
      system.owner kind id := by
  have view := system.isPoller tier isTier me isPoller
  rw [view.connected.objectNode_unpolled, view.order, owner, tierOf_eq_some isTier inTier,
    (view.ids kind).eq_rank inTier]
  · rw [view.total]
    exact (view.ids kind).below id inTier
  · rw [view.leaf]
    exact fun _ isSpec => absurd isSpec not_mem_nil

theorem tierOf_some (found : system.tierOf kind id = some tier) :
    tier ∈ system.groups ∧ id ∈ tier.map kind := by
  have inTier := find?_some found
  rw [decide_eq_true_iff] at inTier
  exact ⟨mem_of_find?_eq_some found, inTier⟩

def holders (system : TwoTier ι) (kind : ObjectKind) (id : Nat) : List (ι × Nat) :=
  system.masters.map (fun me => (me, id)) ++
    match system.tierOf kind id with
    | some tier => tier.pollers.map fun me => (me, system.localId me kind id)
    | none => []

theorem mem_holders {holder : ι × Nat} :
    holder ∈ system.holders kind id ↔
      (holder.1 ∈ system.masters ∧ holder.2 = id) ∨
        ∃ tier, system.tierOf kind id = some tier ∧ holder.1 ∈ tier.pollers ∧
          holder.2 = system.localId holder.1 kind id := by
  obtain ⟨me, localId⟩ := holder
  rw [holders]
  cases system.tierOf kind id with
  | none | some tier => simp [eq_comm]

theorem exists_owner_unpolled (unpolled : system.tierOf kind id = none) :
    ∃ node ∈ system.masters, system.owner kind id = some node := by
  have within : id % system.masters.length < system.masters.length :=
    Nat.mod_lt _ (length_pos_of_ne_nil system.someMaster)
  refine ⟨_, getElem_mem within, ?_⟩
  rw [owner, unpolled, getElem?_eq_getElem within]

theorem exists_owner_polled (polled : system.tierOf kind id = some tier) :
    ∃ node ∈ tier.pollers, system.owner kind id = some node := by
  have populated := system.somePoller tier (tierOf_some polled).1
  have within : rank (tier.map kind) id % tier.pollers.length < tier.pollers.length :=
    Nat.mod_lt _ (length_pos_of_ne_nil populated)
  refine ⟨_, getElem_mem within, ?_⟩
  rw [owner, polled]
  exact getElem?_eq_getElem within

theorem exists_owner (system : TwoTier ι) (kind : ObjectKind) (id : Nat) :
    ∃ node, system.owner kind id = some node := by
  cases polled : system.tierOf kind id with
  | none =>
    obtain ⟨node, _, isOwner⟩ := exists_owner_unpolled polled
    exact ⟨node, isOwner⟩
  | some tier =>
    obtain ⟨node, _, isOwner⟩ := exists_owner_polled polled
    exact ⟨node, isOwner⟩

theorem master_ne_poller (isMaster : me ∈ system.masters) (isTier : tier ∈ system.groups)
    (inTier : poller ∈ tier.pollers) : poller ≠ me := by
  have apart := (nodup_append.mp system.distinct).2.2
  exact (apart me isMaster poller (mem_flatMap.mpr ⟨tier, isTier, inTier⟩)).symm

theorem masters_perm (isMaster : me ∈ system.masters) :
    system.masters.Perm (me :: (system.node me).config.peers) := by
  have view := system.isMaster me isMaster
  have perm := (system.node me).arranged.members .ipc _ rfl
  rw [view.order, ModuleConfig.members, view.isMe] at perm
  exact perm

theorem typeOf_poller (isMaster : me ∈ system.masters) (isTier : tier ∈ system.groups)
    (inTier : poller ∈ tier.pollers) : (system.node me).config.typeOf poller = some .poller := by
  obtain ⟨index, pair, found⟩ := exists_foundAt isMaster isTier
  apply typeOf_eq_some_iff.mpr
  exact mem_pollers_of_mem_members (found.mem_members.mpr inTier)

theorem mem_pollers_iff (isMaster : me ∈ system.masters) :
    poller ∈ (system.node me).config.pollers ↔
      ∃ tier ∈ system.groups, poller ∈ tier.pollers := by
  constructor
  · intro isPoller
    obtain ⟨group, isGroup, inGroup⟩ := mem_flatMap.mp isPoller
    obtain ⟨index, state, spec, isState, pair⟩ := (system.node me).arranged.exists_pair isGroup
    obtain ⟨tier, isTier, hits⟩ := (system.isMaster me isMaster).only _ pair
    have found : FoundAt (system.node me) tier index (group, state) := ⟨spec, isState, hits⟩
    exact ⟨tier, isTier, found.mem_members.mp
      (ModuleConfig.mem_members_poller.mpr ⟨group, spec, inGroup⟩)⟩
  · rintro ⟨tier, isTier, inTier⟩
    exact typeOf_eq_some_iff.mp (typeOf_poller isMaster isTier inTier)

theorem pollers_perm (isTier : tier ∈ system.groups) (isPoller : me ∈ tier.pollers) :
    tier.pollers.Perm (me :: (system.node me).config.peers) := by
  have view := system.isPoller tier isTier me isPoller
  have perm := (system.node me).arranged.members .ipc _ rfl
  rw [view.order, ModuleConfig.members, view.isMe] at perm
  exact perm

end TwoTier

end Cluster

def twoHosts : ObjectConfig := oneServiceEach 2 (fun _ => none) (fun _ _ found => by cases found)

def pollerHostgroups : List String := ["b", "c", "c"]

def masterMapped : Mapped :=
  (pgroupMapObjects threeHosts 0 [⟨pollerHostgroups, 2⟩]).get (by decide +kernel)

def masterConfig : ModuleConfig Nat where
  me := 0
  masters := []
  peers := []
  pollerGroups := masterMapped.groups.map fun tables => ⟨[1, 2], true, tables⟩
  ipcTables := masterMapped.ipc
  numHosts := 3
  numServices := 3
  hostId2pg := masterMapped.mapping.hostId2pg
  serviceId2pg := masterMapped.mapping.serviceId2pg
  distinct := by decide +kernel
  few := by decide +kernel

def pollerMapped : Mapped := (pgroupMapObjects twoHosts 1 []).get (by decide +kernel)

def pollerConfig (me peer : Nat) (distinct : [me, 0, peer].Nodup) : ModuleConfig Nat where
  me := me
  masters := [0]
  peers := [peer]
  pollerGroups := []
  ipcTables := pollerMapped.ipc
  numHosts := 2
  numServices := 2
  hostId2pg := pollerMapped.mapping.hostId2pg
  serviceId2pg := pollerMapped.mapping.serviceId2pg
  distinct := distinct
  few := show 3 < 2 ^ 32 by decide

def nodeStart (node : Nat) : Timeval := ⟨5 + (node % 3 : Nat), 0⟩

theorem nodeStart_bounded (node : Nat) : (nodeStart node).Bounded := by
  constructor <;> simp only [nodeStart] <;> omega

def connects (node : Nat) : List (ModuleCall (Nat)) :=
  [.setState node .pending .sent, .setInfo node (nodeStart node), .setState node .connected .sent]

theorem connects_fits (node : Nat) : ∀ call ∈ connects node, call.Fits := by
  simp only [connects, forall_mem_cons, ModuleCall.Fits]
  exact ⟨trivial, nodeStart_bounded node, trivial, forall_mem_nil _⟩

variable (notifies : Nat → Bool)

def masterNode : ClusterNode (Nat) where
  config := masterConfig
  objects := threeHosts
  specs := [⟨pollerHostgroups, 2⟩]
  mapped := masterMapped
  configured :=
    { isMapped := (Option.some_get _).symm
      ipcTables := rfl
      groupTables := by
        rw [masterConfig, map_map]
        exact map_id _
      totalNodes := by decide +kernel
      numHosts := rfl
      numServices := rfl
      hostId2pg := rfl
      serviceId2pg := rfl }
  disjoint := by decide +kernel
  name := toString
  notifies := notifies
  qsort := Sorting.insertionSorter _
  ipcState := .connected
  ipcStart := nodeStart 0
  ipcFits := nodeStart_bounded 0
  calls := connects 1 ++ connects 2
  fits := forall_mem_append.mpr ⟨connects_fits 1, connects_fits 2⟩

def pollerNode (me peer : Nat) (distinct : [me, 0, peer].Nodup) :
    ClusterNode (Nat) where
  config := pollerConfig me peer distinct
  objects := twoHosts
  specs := []
  mapped := pollerMapped
  configured :=
    { isMapped := (Option.some_get _).symm
      ipcTables := rfl
      groupTables := rfl
      totalNodes := rfl
      numHosts := rfl
      numServices := rfl
      hostId2pg := rfl
      serviceId2pg := rfl }
  disjoint := List.Pairwise.nil
  name := toString
  notifies := notifies
  qsort := Sorting.insertionSorter _
  ipcState := .connected
  ipcStart := nodeStart me
  ipcFits := nodeStart_bounded me
  calls := connects 0 ++ connects peer
  fits := forall_mem_append.mpr ⟨connects_fits 0, connects_fits peer⟩

def masterModule : ModuleState (Nat) :=
  moduleRun masterConfig (Sorting.insertionSorter _) .connected (nodeStart 0)
    (connects 1 ++ connects 2)

theorem masterModule_connected : ∀ other ∈ [1, 2], masterModule.state other = .connected := by
  decide +kernel

theorem masterModule_groups :
    pairs masterConfig masterModule ≠ [] ∧
    ∀ pair ∈ pairs masterConfig masterModule,
      pair.2.nodes = [1, 2] ∧ pair.1.tables.hosts.map = {1, 2} ∧
        pair.1.tables.services.map = {1, 2} := by
  decide +kernel

theorem masterNode_master :
    MasterNode [0] [⟨[1, 2], fun _ => {1, 2}⟩] (fun _ => 3) notifies 0 (masterNode notifies) := by
  have module : (masterNode notifies).module = masterModule := rfl
  have hits : ∀ pair ∈ pairs masterConfig masterModule,
      Tier.Matches ⟨[1, 2], fun _ => {1, 2}⟩ pair := by
    intro pair member
    obtain ⟨nodes, hosts, services⟩ := masterModule_groups.2 pair member
    apply Tier.Matches.mk nodes
    rintro (_ | _)
    · exact hosts
    · exact services
  refine ⟨rfl, rfl, ?_, ?_, ?_, ?_, ?_, fun _ _ _ _ => rfl⟩
  · rw [module]
    decide +kernel
  · rintro (_ | _) <;> rfl
  · rw [ClusterNode.Connected, module]
    exact masterModule_connected
  · intro tier isTier
    rw [mem_singleton.mp isTier, module]
    obtain ⟨pair, member⟩ := exists_mem_of_ne_nil _ masterModule_groups.1
    exact ⟨pair, member, hits pair member⟩
  · rw [module]
    exact fun pair member => ⟨_, mem_singleton_self _, hits pair member⟩

def pollerModule (me peer : Nat) (distinct : [me, 0, peer].Nodup) : ModuleState (Nat) :=
  moduleRun (pollerConfig me peer distinct) (Sorting.insertionSorter _) .connected (nodeStart me)
    (connects 0 ++ connects peer)

theorem pollerNode_poller (me peer : Nat) (distinct : [me, 0, peer].Nodup)
    (order : (pollerModule me peer distinct).ipcGroup.nodes = [1, 2])
    (connected : ∀ other ∈ [0, peer], (pollerModule me peer distinct).state other = .connected) :
    PollerNode [0] ⟨[1, 2], fun _ => {1, 2}⟩ (fun _ => (· - 1)) notifies me
      (pollerNode notifies me peer distinct) := by
  have module : (pollerNode notifies me peer distinct).module = pollerModule me peer distinct := rfl
  refine ⟨rfl, List.Perm.refl _, rfl, ?_, ?_, fun _ => localIds_sample, ?_, rfl⟩
  · rw [module]
    exact order
  · rintro (_ | _) <;> rfl
  · rw [ClusterNode.Connected, module]
    exact connected

def twoBelowNode : Nat → ClusterNode Nat
  | 1 => pollerNode notifies 1 2 (by decide)
  | 2 => pollerNode notifies 2 1 (by decide)
  | _ => masterNode notifies

def twoBelow : TwoTier (Nat) where
  masters := [0]
  groups := [⟨[1, 2], fun _ => {1, 2}⟩]
  total _ := 3
  notifies := notifies
  localId _ _ id := id - 1
  node := twoBelowNode notifies
  someMaster := by decide
  somePoller := by decide
  distinct := by decide
  isMaster me isMaster := by
    rw [mem_singleton.mp isMaster]
    exact masterNode_master notifies
  isPoller tier isTier me isPoller := by
    rw [mem_singleton.mp isTier] at isPoller ⊢
    rcases mem_pair.mp isPoller with rfl | rfl
    · exact pollerNode_poller notifies 1 2 _ (by decide +kernel) (by decide +kernel)
    · exact pollerNode_poller notifies 2 1 _ (by decide +kernel) (by decide +kernel)

end MonitorMerlin
