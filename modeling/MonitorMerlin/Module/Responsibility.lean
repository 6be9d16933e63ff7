import MonitorMerlin.Module.Reassign

/-! # Who runs how many checks -/

namespace MonitorMerlin

open Tally
open List hiding Disjoint

universe u

variable {ι : Type u}

section Lookup

def ModuleState.pollerGroup (config : ModuleConfig ι) (module : ModuleState ι) (index : Nat) :
    Option (PeerGroup ι) :=
  (pairs config module)[index]?.map fun group =>
    module.peerGroup group.2 group.1.takeover group.1.tables.hosts.idTable
      group.1.tables.services.idTable

def ModuleState.peerGroups (config : ModuleConfig ι) (module : ModuleState ι) : PeerGroups ι where
  ipc := module.peerGroup module.ipcGroup false none none
  hostId2pg := config.hostId2pg.map fun found => found.bind (module.pollerGroup config)
  serviceId2pg := config.serviceId2pg.map fun found => found.bind (module.pollerGroup config)
  noHostTable := rfl
  noServiceTable := rfl

/-- `pgroup_host_node` or `pgroup_service_node`. -/
def objectNode (kind : ObjectKind) (config : ModuleConfig ι) (module : ModuleState ι) (id : Nat) :
    Option ι :=
  match kind with
  | .host => (pgroupHostNode (module.peerGroups config) id).map PeerNode.id
  | .service => (pgroupServiceNode (module.peerGroups config) id).map PeerNode.id

structure ObjectsFound (kind : ObjectKind) (config : ModuleConfig ι) : Prop where
  unpolled : ∀ id < kind.total config,
    (∀ spec ∈ config.pollerGroups, id ∉ (kind.tables spec.tables).map) →
    (kind.id2pg config)[id]? = some none
  polled : ∀ (index : Nat) spec, config.pollerGroups[index]? = some spec →
    ∀ id ∈ (kind.tables spec.tables).map,
      id < kind.total config ∧ (kind.id2pg config)[id]? = some (some index)
  ranks : ∀ spec ∈ config.pollerGroups, ∀ id ∈ (kind.tables spec.tables).map,
    ∃ table, (kind.tables spec.tables).idTable = some table ∧
      table[id]? = some (rank (kind.tables spec.tables).map id)
  disjoint : (config.pollerGroups.map fun spec => (kind.tables spec.tables).map).Pairwise Disjoint

structure TablesFor (kind : ObjectKind) (config : ModuleConfig ι) : Prop
    extends ObjectsFound kind config where
  ipc : ∀ n < config.peers.length + 1, ∀ p ≤ n, (kind.tables config.ipcTables).assign n p =
    ((Finset.range (kind.total config)).filter fun id =>
      (∀ spec ∈ config.pollerGroups, id ∉ (kind.tables spec.tables).map) ∧ id % (n + 1) = p).card
  assign : ∀ spec ∈ config.pollerGroups, ∀ n < spec.nodes.length, ∀ p ≤ n,
    (kind.tables spec.tables).assign n p =
      share (rank (kind.tables spec.tables).map) (kind.tables spec.tables).map n p
  inherit : ∀ spec ∈ config.pollerGroups, ∀ n < config.peers.length + 1, ∀ p ≤ n,
    (kind.tables spec.tables).inherit n p = share id (kind.tables spec.tables).map n p

variable {kind : ObjectKind} {config : ModuleConfig ι} {module : ModuleState ι} {id : Nat}

theorem objectNode_eq :
    objectNode kind config module id =
      (pgroupObjectNode (module.peerGroups config)
        ((kind.id2pg config).map fun found => found.bind (module.pollerGroup config))
        kind.idTable id).map PeerNode.id := by
  cases kind <;> rfl

theorem ObjectsFound.unique
    (objects : ObjectsFound kind config) {first second : Nat} {spec other : PollerGroup ι}
    (isSpec : config.pollerGroups[first]? = some spec)
    (isOther : config.pollerGroups[second]? = some other) {object : Nat}
    (inSpec : object ∈ (kind.tables spec.tables).map)
    (inOther : object ∈ (kind.tables other.tables).map) : first = second := by
  have located := (objects.polled first spec isSpec object inSpec).2
  rw [(objects.polled second other isOther object inOther).2] at located
  exact (Option.some.inj (Option.some.inj located)).symm

theorem objectNode_of_unpolled (located : (kind.id2pg config)[id]? = some none) :
    objectNode kind config module id =
      module.ipcGroup.nodes[assignedPeer id module.ipcGroup.activeNodes]? := by
  have noTable : kind.idTable (module.peerGroups config).ipc = none := by
    cases kind <;> rfl
  rw [objectNode_eq, pgroupObjectNode_unpolled noTable]
  · simp [ModuleState.peerGroups, ModuleState.peerGroup, ModuleState.peerNode, Function.comp_def]
  · rw [getElem?_map, located]
    rfl

section Polled

variable {index : Nat} {group : PollerGroup ι × GroupState ι}

theorem located_pollerGroup (located : (kind.id2pg config)[id]? = some (some index))
    (spec : config.pollerGroups[index]? = some group.1)
    (state : module.groupAt (.poller index) = some group.2) :
    ((kind.id2pg config).map fun found => found.bind (module.pollerGroup config))[id]? =
      some (some (module.peerGroup group.2 group.1.takeover group.1.tables.hosts.idTable
        group.1.tables.services.idTable)) := by
  have pair : (pairs config module)[index]? = some group := getElem?_zip_eq_some.mpr ⟨spec, state⟩
  rw [getElem?_map, located]
  simp [ModuleState.pollerGroup, pair]

theorem idTable_peerGroup :
    kind.idTable (module.peerGroup group.2 group.1.takeover group.1.tables.hosts.idTable
      group.1.tables.services.idTable) = (kind.tables group.1.tables).idTable := by
  cases kind <;> rfl

section Located

variable {table : List Nat} {realId : Nat}

section

variable (located : (kind.id2pg config)[id]? = some (some index))
  (spec : config.pollerGroups[index]? = some group.1)
  (state : module.groupAt (.poller index) = some group.2)
  (isTable : (kind.tables group.1.tables).idTable = some table)

include located spec state isTable

theorem objectNode_of_own (converted : table[id]? = some realId) (own : ¬ TakenOver group) :
    objectNode kind config module id = group.2.nodes[assignedPeer realId group.2.activeNodes]? := by
  have notTaken : group.2.activeNodes ≠ 0 ∨ group.1.takeover = false := by
    rw [TakenOver, not_and_or, Bool.not_eq_true] at own
    exact own
  rw [objectNode_eq, pgroupObjectNode_polled (located_pollerGroup located spec state)
    (idTable_peerGroup.trans isTable) converted notTaken]
  simp [ModuleState.peerGroup, ModuleState.peerNode, Function.comp_def]

theorem objectNode_of_taken (takenOver : TakenOver group) :
    objectNode kind config module id =
      module.ipcGroup.nodes[assignedPeer id module.ipcGroup.activeNodes]? := by
  have taken : ¬ (group.2.activeNodes ≠ 0 ∨ group.1.takeover = false) := by
    rw [not_or, not_not, Bool.not_eq_false]
    exact takenOver
  rw [objectNode_eq, pgroupObjectNode, located_pollerGroup located spec state, Option.bind_some,
    Option.getD_some, idTable_peerGroup.trans isTable, pgroupNode, if_neg (by exact taken)]
  simp [ModuleState.peerGroups, ModuleState.peerGroup, ModuleState.peerNode, Function.comp_def]

end

end Located

section

variable (objects : ObjectsFound kind config) (spec : config.pollerGroups[index]? = some group.1)
  (state : module.groupAt (.poller index) = some group.2)
  (member : id ∈ (kind.tables group.1.tables).map)

include objects spec state member

theorem objectNode_of_polled (own : ¬ TakenOver group) :
    objectNode kind config module id =
      group.2.nodes[
        assignedPeer (rank (kind.tables group.1.tables).map id) group.2.activeNodes]? := by
  obtain ⟨table, isTable, ranked⟩ := objects.ranks group.1 (mem_of_getElem? spec) id member
  exact objectNode_of_own (objects.polled index group.1 spec id member).2 spec state isTable ranked
    own

theorem objectNode_of_takenOver (takenOver : TakenOver group) :
    objectNode kind config module id =
      module.ipcGroup.nodes[assignedPeer id module.ipcGroup.activeNodes]? := by
  obtain ⟨table, isTable, _⟩ := objects.ranks group.1 (mem_of_getElem? spec) id member
  exact objectNode_of_taken (objects.polled index group.1 spec id member).2 spec state isTable
    takenOver

end

end Polled

end Lookup

variable {kind : ObjectKind} {config : ModuleConfig ι} {module : ModuleState ι}

def takenOver (kind : ObjectKind) (config : ModuleConfig ι) (module : ModuleState ι) : Finset Nat :=
  (((pairs config module).filter fun group => TakenOver group).map fun group =>
    (kind.tables group.1.tables).map).foldr (· ∪ ·) ∅

variable {object : Nat}

theorem mem_takenOver :
    object ∈ takenOver kind config module ↔
      ∃ group ∈ pairs config module,
        TakenOver group ∧ object ∈ (kind.tables group.1.tables).map := by
  unfold takenOver
  simp only [mem_foldr_union, mem_map, mem_filter, decide_eq_true_eq, exists_exists_and_eq_and]
  simp only [and_assoc]

variable [DecidableEq ι] {node : ι} {group : PollerGroup ι × GroupState ι}

/-- Of no poller group, or of one that is taken over. -/
def Here (kind : ObjectKind) (config : ModuleConfig ι) (module : ModuleState ι) (object : Nat) :
    Prop :=
  (∀ spec ∈ config.pollerGroups, object ∉ (kind.tables spec.tables).map) ∨
    ∃ group ∈ pairs config module, TakenOver group ∧ object ∈ (kind.tables group.1.tables).map

section

variable (arranged : Arranged config none module)

include arranged

theorem Arranged.activeNodes_ne_zero : module.ipcGroup.activeNodes ≠ 0 := by
  intro none
  have member : config.me ∈ module.ipcGroup.nodes.take module.ipcGroup.activeNodes :=
    arranged.mem_ipcNodes_iff.mpr ⟨mem_cons_self, .inl rfl⟩
  rw [none, take_zero] at member
  exact not_mem_nil member

theorem Arranged.exists_pair {spec : PollerGroup ι} (isSpec : spec ∈ config.pollerGroups) :
    ∃ index state, config.pollerGroups[index]? = some spec ∧
      module.groupAt (.poller index) = some state ∧ (spec, state) ∈ pairs config module := by
  obtain ⟨index, found⟩ := mem_iff_getElem?.mp isSpec
  obtain ⟨state, isState⟩ := arranged.exists_poller found
  exact ⟨index, state, found, isState, mem_pairs.mpr ⟨index, found, isState⟩⟩

theorem Arranged.exists_group (inPollers : node ∈ config.pollers) :
    ∃ group ∈ pairs config module, node ∈ group.2.nodes := by
  obtain ⟨spec, isSpec, inSpec⟩ := mem_flatMap.mp inPollers
  obtain ⟨index, state, found, isState, pair⟩ := arranged.exists_pair isSpec
  exact ⟨_, pair, (arranged.mem_groupNodes_iff pair).mpr inSpec⟩

theorem objectNode_cases (objects : ObjectsFound kind config) (bound : object < kind.total config) :
    (Here kind config module object ∧ objectNode kind config module object =
      module.ipcGroup.nodes[object % module.ipcGroup.activeNodes]?) ∨
    ¬ Here kind config module object ∧
      ∃ group ∈ pairs config module, object ∈ (kind.tables group.1.tables).map ∧
        objectNode kind config module object = group.2.nodes[
          assignedPeer (rank (kind.tables group.1.tables).map object) group.2.activeNodes]? := by
  have falls : assignedPeer object module.ipcGroup.activeNodes =
      object % module.ipcGroup.activeNodes :=
    if_pos arranged.activeNodes_ne_zero
  by_cases polled : ∃ spec ∈ config.pollerGroups, object ∈ (kind.tables spec.tables).map
  · obtain ⟨spec, isSpec, inSpec⟩ := polled
    obtain ⟨index, state, found, isState, member⟩ := arranged.exists_pair isSpec
    by_cases taken : TakenOver (spec, state)
    · left
      rw [objectNode_of_takenOver objects found isState inSpec taken, falls]
      exact ⟨.inr ⟨_, member, taken, inSpec⟩, rfl⟩
    · right
      constructor
      · rintro (unpolled | ⟨other, memberOther, takenOther, inOther⟩)
        · exact unpolled spec isSpec inSpec
        · obtain ⟨otherIndex, otherFound, otherState⟩ := mem_pairs.mp memberOther
          obtain rfl := objects.unique found otherFound inSpec inOther
          rw [found] at otherFound
          rw [isState] at otherState
          have same : (spec, state) = other :=
            Prod.ext (Option.some.inj otherFound) (Option.some.inj otherState)
          exact taken (same ▸ takenOther)
      · exact ⟨_, member, inSpec, objectNode_of_polled objects found isState inSpec taken⟩
  · left
    have unpolled : ∀ spec ∈ config.pollerGroups, object ∉ (kind.tables spec.tables).map :=
      fun spec isSpec inSpec => polled ⟨spec, isSpec, inSpec⟩
    rw [objectNode_of_unpolled (objects.unpolled object bound unpolled), falls]
    exact ⟨.inl unpolled, rfl⟩

theorem objectNode_ipc_iff (objects : ObjectsFound kind config) (own : node ∈ config.members .ipc)
    (bound : object < kind.total config) :
    objectNode kind config module object = some node ↔
      Here kind config module object ∧
        object % module.ipcGroup.activeNodes = module.peerId node := by
  have sorted := arranged.ipcSorted
  have inNodes := (arranged.members .ipc _ rfl).mem_iff.mpr own
  rcases objectNode_cases arranged objects bound with
    ⟨here, isNode⟩ | ⟨notHere, group, member, _, isNode⟩
  · rw [isNode, sorted.getElem?_iff arranged.activeNodes_ne_zero inNodes, and_iff_right here]
  · apply iff_of_false
    · intro found
      rw [isNode] at found
      exact arranged.not_mem_groupNodes own member (mem_of_getElem? found)
    · exact fun both => notHere both.1

theorem objectNode_poller_iff (objects : ObjectsFound kind config)
    (member : group ∈ pairs config module) (inGroup : node ∈ group.2.nodes)
    (alive : group.2.activeNodes ≠ 0) (bound : object < kind.total config) :
    objectNode kind config module object = some node ↔
      object ∈ (kind.tables group.1.tables).map ∧
        rank (kind.tables group.1.tables).map object % group.2.activeNodes =
          module.peerId node := by
  obtain ⟨index, spec, state⟩ := mem_pairs.mp member
  have sorted := arranged.sortedAt state
  have notTaken : ¬ TakenOver group := fun taken => alive taken.1
  by_cases inMap : object ∈ (kind.tables group.1.tables).map
  · rw [objectNode_of_polled objects spec state inMap notTaken, assignedPeer, if_pos alive,
      sorted.getElem?_iff alive inGroup, and_iff_right inMap]
  · apply iff_of_false
    · intro found
      rcases objectNode_cases arranged objects bound with
        ⟨_, isNode⟩ | ⟨_, other, memberOther, inOther, isNode⟩
      · rw [isNode] at found
        have own := (arranged.members .ipc _ rfl).mem_iff.mp (mem_of_getElem? found)
        exact arranged.not_mem_groupNodes own member inGroup
      · rw [isNode] at found
        rw [arranged.pairs_unique member memberOther inGroup (mem_of_getElem? found)] at inMap
        exact inMap inOther
    · exact fun both => inMap both.1

end

/-- The number of objects that a node is named for. -/
def responsibility (kind : ObjectKind) (config : ModuleConfig ι) (module : ModuleState ι)
    (node : ι) : Nat :=
  ((Finset.range (kind.total config)).filter fun object =>
    objectNode kind config module object = some node).card

variable (arranged : Arranged config none module)

include arranged

theorem Arranged.activeNodes_le : module.ipcGroup.activeNodes ≤ config.peers.length + 1 := by
  rw [arranged.ipcSorted.count,
    (arranged.members .ipc _ rfl).countP_eq]
  exact countP_le_length

theorem Arranged.map_fst_pairs : (pairs config module).map Prod.fst = config.pollerGroups :=
  map_fst_zip (le_of_eq arranged.length.symm)

theorem inherited_eq (tables : TablesFor kind config)
    (within : module.peerId node < module.ipcGroup.activeNodes) :
    inherited kind config module node =
      share id (takenOver kind config module) (module.ipcGroup.activeNodes - 1)
        (module.peerId node) := by
  have few := arranged.activeNodes_le
  have specs : (pairs config module).map (fun group => (kind.tables group.1.tables).map) =
      config.pollerGroups.map fun spec => (kind.tables spec.tables).map := by
    rw [← arranged.map_fst_pairs, map_map]
    rfl
  rw [takenOver, ← sum_share_of_disjoint, inherited, map_map]
  · congr 1
    apply map_congr_left
    intro group member
    obtain ⟨index, spec, _⟩ := mem_pairs.mp (mem_of_mem_filter member)
    exact tables.inherit group.1 (mem_of_getElem? spec) _ (by omega) _ (by omega)
  · apply List.Pairwise.sublist _ tables.disjoint
    rw [← specs]
    exact List.filter_sublist.map _

theorem responsibility_of_active (tables : TablesFor kind config)
    (own : node ∈ config.members .ipc) (active : IsActive config module node) :
    responsibility kind config module node =
      (kind.tables config.ipcTables).assign (module.ipcGroup.activeNodes - 1)
          (module.peerId node) +
        inherited kind config module node := by
  have sorted := arranged.ipcSorted
  have within := sorted.peerId_lt ((arranged.members .ipc _ rfl).mem_iff.mpr own) active
  have few := arranged.activeNodes_le
  have rows : module.ipcGroup.activeNodes - 1 + 1 = module.ipcGroup.activeNodes := by
    omega
  rw [inherited_eq arranged tables within, tables.ipc _ (by omega) _ (by omega), share, rows,
    ← Finset.card_union_of_disjoint]
  · unfold responsibility
    congr 1
    ext object
    simp only [Finset.mem_filter, Finset.mem_range, Finset.mem_union]
    constructor
    · rintro ⟨bound, isNode⟩
      obtain ⟨here, falls⟩ :=
        (objectNode_ipc_iff arranged tables.toObjectsFound own bound).mp isNode
      rcases here with unpolled | taken
      · exact .inl ⟨bound, unpolled, falls⟩
      · exact .inr ⟨mem_takenOver.mpr taken, falls⟩
    · rintro (⟨bound, unpolled, falls⟩ | ⟨taken, falls⟩)
      · exact ⟨bound, (objectNode_ipc_iff arranged tables.toObjectsFound own bound).mpr
          ⟨.inl unpolled, falls⟩⟩
      · have isTaken := mem_takenOver.mp taken
        obtain ⟨group, member, _, inMap⟩ := isTaken
        obtain ⟨index, spec, _⟩ := mem_pairs.mp member
        have bound := (tables.polled index group.1 spec object inMap).1
        exact ⟨bound, (objectNode_ipc_iff arranged tables.toObjectsFound own bound).mpr
          ⟨.inr (mem_takenOver.mp taken), falls⟩⟩
  · rw [Finset.disjoint_left]
    intro object inUnpolled inTaken
    obtain ⟨group, member, _, inMap⟩ := mem_takenOver.mp (Finset.mem_filter.mp inTaken).1
    obtain ⟨index, spec, _⟩ := mem_pairs.mp member
    exact (Finset.mem_filter.mp inUnpolled).2.1 group.1 (mem_of_getElem? spec) inMap

theorem responsibility_eq_share (objects : ObjectsFound kind config)
    (member : group ∈ pairs config module) (inGroup : node ∈ group.2.nodes)
    (alive : group.2.activeNodes ≠ 0) :
    responsibility kind config module node =
      share (rank (kind.tables group.1.tables).map) (kind.tables group.1.tables).map
        (group.2.activeNodes - 1) (module.peerId node) := by
  obtain ⟨index, spec, _⟩ := mem_pairs.mp member
  unfold responsibility share
  congr 1
  ext object
  rw [Finset.mem_filter, Finset.mem_range, Finset.mem_filter,
    Nat.sub_add_cancel (Nat.pos_of_ne_zero alive)]
  constructor
  · rintro ⟨bound, isNode⟩
    exact (objectNode_poller_iff arranged objects member inGroup alive bound).mp isNode
  · intro both
    have bound := (objects.polled index group.1 spec object both.1).1
    exact ⟨bound, (objectNode_poller_iff arranged objects member inGroup alive bound).mpr both⟩

theorem responsibility_of_poller (tables : TablesFor kind config)
    (member : group ∈ pairs config module) (inGroup : node ∈ group.2.nodes)
    (active : IsActive config module node) :
    responsibility kind config module node =
      (kind.tables group.1.tables).assign (group.2.activeNodes - 1) (module.peerId node) := by
  obtain ⟨index, spec, state⟩ := mem_pairs.mp member
  have sorted := arranged.sortedAt state
  have within := sorted.peerId_lt inGroup active
  have few : group.2.activeNodes ≤ group.1.nodes.length := by
    rw [sorted.count, (arranged.members _ _ state).countP_eq, ModuleConfig.members, spec]
    exact countP_le_length
  rw [tables.assign group.1 (mem_of_getElem? spec) _ (by omega) _ (by omega)]
  exact responsibility_eq_share arranged tables.toObjectsFound member inGroup
    (Nat.ne_zero_of_lt within)

end MonitorMerlin
