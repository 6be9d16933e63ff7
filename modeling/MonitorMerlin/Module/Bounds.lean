import MonitorMerlin.Module.Load
import MonitorMerlin.Pgroup.Canonical

/-! # Accesses to the tables of checks -/

namespace MonitorMerlin

open List Sorting

universe u

def TableAccess.Inside (access : TableAccess) : Prop :=
  0 < access.active ∧ access.active ≤ access.alloc ∧ access.peerId < access.active

/-- No access has left its table. -/
def AccessesInside {ι : Type u} (module : ModuleState ι) : Prop :=
  ∀ access ∈ module.accesses, access.Inside

theorem AccessesInside.append {ι : Type u} {module after : ModuleState ι} {access : TableAccess}
    (inside : AccessesInside module) (next : access.Inside)
    (recorded : after.accesses = module.accesses ++ [access]) : AccessesInside after := by
  rw [AccessesInside, recorded]
  exact forall_mem_append.mpr ⟨inside, forall_mem_singleton.mpr next⟩

structure Allocated {ι : Type u} (config : ModuleConfig ι) : Prop where
  ipc : config.peers.length + 1 ≤ config.ipcTables.alloc
  own : ∀ spec ∈ config.pollerGroups, spec.nodes.length ≤ spec.tables.alloc
  inherited : ∀ spec ∈ config.pollerGroups, config.peers.length + 1 ≤ spec.tables.alloc

theorem Configured.allocated
    {ι : Type u} {config : ModuleConfig ι} {objects : ObjectConfig} {specs : List GroupSpec}
    {mapped : Mapped} (configured : Configured config objects specs mapped) : Allocated config := by
  have alloc {spec : PollerGroup ι} (isSpec : spec ∈ config.pollerGroups) :
      spec.tables.alloc = max (config.peers.length + 1) spec.nodes.length := by
    obtain ⟨index, found⟩ := mem_iff_getElem?.mp isSpec
    obtain ⟨groupSpec, _, total, _, mapsTo⟩ := configured.mapsTo found
    rw [mapsTo.alloc, total]
  constructor
  · rw [configured.ipcTables, pgroupMapObjects_ipc_alloc configured.isMapped]
  · intro spec isSpec
    rw [alloc isSpec]
    exact le_max_right _ _
  · intro spec isSpec
    rw [alloc isSpec]
    exact le_max_left _ _

section Reassign

variable {ι : Type u} [DecidableEq ι] {config : ModuleConfig ι} {module : ModuleState ι} {node : ι}

theorem Sorted.inside {group : GroupState ι} {alloc : Nat} (sorted : Sorted config module group)
    (allocated : group.nodes.length ≤ alloc) (member : node ∈ group.nodes)
    (active : IsActive config module node) :
    TableAccess.Inside ⟨alloc, group.activeNodes, module.peerId node⟩ := by
  have within := sorted.peerId_lt member active
  have counted : group.activeNodes ≤ group.nodes.length := by
    rw [sorted.count]
    exact countP_le_length
  exact ⟨Nat.zero_lt_of_lt within, counted.trans allocated, within⟩

section

variable (arranged : Arranged config none module)

include arranged

theorem Arranged.ipc_inside {alloc : Nat} (allocated : config.peers.length + 1 ≤ alloc)
    (first : node ∈ module.ipcGroup.nodes.take module.ipcGroup.activeNodes) :
    TableAccess.Inside ⟨alloc, module.ipcGroup.activeNodes, module.peerId node⟩ := by
  have sorted := arranged.ipcSorted
  rw [sorted.take_active, mem_filter, decide_eq_true_iff] at first
  apply sorted.inside _ first.1 first.2
  rw [(arranged.members .ipc _ rfl).length_eq]
  exact allocated

def Reassigning (module current : ModuleState ι) : Prop :=
  OnlyLoad module current ∧ AccessesInside current

variable {current : ModuleState ι}

theorem Reassigning.reassignGroup {group : PollerGroup ι × GroupState ι}
    (reassigning : Reassigning module current) (allocated : Allocated config)
    (pair : group ∈ pairs config module) : Reassigning module (reassignGroup current group) := by
  obtain ⟨index, isSpec, isState⟩ := mem_pairs.mp pair
  have specMember := mem_of_getElem? isSpec
  unfold MonitorMerlin.reassignGroup
  split_ifs
  · exact reassigning
  · apply foldlRecOn _ _ reassigning
    rintro state ⟨onlyLoad, inside⟩ node first
    refine ⟨onlyLoad.trans (inheritNode_onlyLoad _ _ _), ?_⟩
    rw [reassigning.1.ipcGroup] at first
    unfold inheritNode
    split
    · exact inside
    · apply inside.append _ rfl
      rw [onlyLoad.ipcGroup, onlyLoad.peerId]
      exact arranged.ipc_inside (allocated.inherited group.1 specMember) first
  · apply foldlRecOn
    · exact ⟨reassigning.1.trans ⟨rfl, rfl, rfl, rfl, rfl, rfl, rfl⟩, reassigning.2⟩
    · rintro state ⟨onlyLoad, inside⟩ node member
      refine ⟨onlyLoad.trans (assignNode_onlyLoad _ _ _ _), ?_⟩
      unfold assignNode
      split_ifs with unconnected
      · exact inside
      · apply inside.append _ rfl
        rw [not_not, onlyLoad.state] at unconnected
        rw [onlyLoad.peerId]
        apply (arranged.sortedAt isState).inside _ member
          (.inr unconnected)
        rw [(arranged.members (.poller index) _ isState).length_eq, ModuleConfig.members, isSpec]
        exact allocated.own group.1 specMember

theorem pgroupReassignChecks_inside (allocated : Allocated config)
    (inside : AccessesInside module) : AccessesInside (pgroupReassignChecks config module) := by
  have reset : Reassigning module (resetNodes config module) := by
    apply foldlRecOn
    · exact ⟨⟨rfl, rfl, rfl, rfl, rfl, rfl, rfl⟩, inside⟩
    · rintro state ⟨onlyLoad, insideState⟩ node first
      refine ⟨onlyLoad.trans (resetNode_onlyLoad _ _), insideState.append ?_ rfl⟩
      rw [onlyLoad.ipcGroup, onlyLoad.peerId]
      exact arranged.ipc_inside allocated.ipc first
  have reassigned : Reassigning module (pgroupReassignChecks config module) :=
    foldlRecOn _ _ reset fun _ reassigning _ pair =>
      Reassigning.reassignGroup arranged reassigning allocated pair
  exact reassigned.2

end

end Reassign

section Calls

variable {ι : Type u} [DecidableEq ι] {config : ModuleConfig ι} {qsort : Sorter (PeerNode ι)}
  {module : ModuleState ι}

theorem moduleRun_inside {ipcState : NodeState} {ipcStart : Timeval} {calls : List (ModuleCall ι)}
    (allocated : Allocated config)
    (sorts : qsort.FrontFirst ∨ ipcStart.Bounded ∧ ∀ call ∈ calls, call.Fits) :
    AccessesInside (moduleRun config qsort ipcState ipcStart calls) := by
  apply moduleRun_keeps_counts _ _ (forall_mem_nil _) sorts
  · intro module after inside _ accesses
    rwa [AccessesInside, accesses]
  · intro module arranged inside
    exact pgroupReassignChecks_inside arranged allocated inside

end Calls

theorem assignedPeer_lt
    {activePeers length : Nat} (within : activePeers ≤ length) (some : 0 < length) (id : Nat) :
    assignedPeer id activePeers < length := by
  rw [assignedPeer]
  split_ifs with active
  · exact lt_of_lt_of_le (Nat.mod_lt id (Nat.pos_of_ne_zero active)) within
  · exact some

section Lookups

variable {ι : Type u} {config : ModuleConfig ι} {objects : ObjectConfig} {specs : List GroupSpec}
  {mapped : Mapped} {kind : ObjectKind} {id : Nat}

theorem Configured.lookedUp (configured : Configured config objects specs mapped) {index : Nat}
    (located : (kind.id2pg config)[id]? = some (some index)) :
    ∃ spec, config.pollerGroups[index]? = some spec ∧ id ∈ (kind.tables spec.tables).map := by
  rcases (configured.located kind).only id index located with
    before | ⟨position, map, isMap, member, rfl⟩
  · rw [getElem?_replicate] at before
    split at before <;> cases before
  · obtain ⟨spec, isSpec, rfl⟩ := Option.map_eq_some_iff.mp (getElem?_map ▸ isMap)
    exact ⟨spec, by rwa [Nat.zero_add], member⟩

variable [DecidableEq ι] {module : ModuleState ι}

theorem Arranged.getElem?_assignedPeer
    {ref : GroupRef} {group : GroupState ι} (arranged : Arranged config none module)
    (found : module.groupAt ref = some group) (populated : config.members ref ≠ []) (id : Nat) :
    group.nodes[assignedPeer id group.activeNodes]?.isSome = true := by
  have perm := arranged.members ref group found
  have sorted := arranged.sortedAt found
  have counted : group.activeNodes ≤ group.nodes.length := by
    rw [sorted.count]
    exact countP_le_length
  have nodes : 0 < group.nodes.length := by
    rw [perm.length_eq]
    exact length_pos_of_ne_nil populated
  rw [getElem?_eq_getElem (assignedPeer_lt counted nodes id)]
  rfl

theorem Arranged.isSome_objectNode
    (arranged : Arranged config none module) (configured : Configured config objects specs mapped)
    (populated : ∀ spec ∈ config.pollerGroups, spec.nodes ≠ []) (bound : id < kind.total config) :
    (objectNode kind config module id).isSome = true := by
  have ipcGroup : module.groupAt .ipc = some module.ipcGroup := rfl
  have ipcFound := arranged.getElem?_assignedPeer ipcGroup (cons_ne_nil _ _) id
  have within : id < (kind.id2pg config).length := by
    rw [(configured.located kind).length, length_replicate]
    exact bound
  cases located : (kind.id2pg config)[id] with
  | none =>
    rw [objectNode_of_unpolled (List.getElem?_eq_some_iff.mpr ⟨within, located⟩)]
    exact ipcFound
  | some index =>
    have isLocated := List.getElem?_eq_some_iff.mpr ⟨within, located⟩
    obtain ⟨spec, isSpec, member⟩ := configured.lookedUp isLocated
    obtain ⟨table, isTable, ranked⟩ := configured.hasRanks isSpec member
    obtain ⟨group, rfl, isState⟩ : ∃ group : PollerGroup ι × GroupState ι, group.1 = spec ∧
        module.groupAt (.poller index) = some group.2 := by
      have stateWithin : index < module.groups.length := by
        rw [arranged.length]
        exact (List.getElem?_eq_some_iff.mp isSpec).1
      exact ⟨(spec, module.groups[index]), rfl, getElem?_eq_getElem stateWithin⟩
    by_cases taken : TakenOver group
    · rw [objectNode_of_taken isLocated isSpec isState isTable taken]
      exact ipcFound
    · rw [objectNode_of_own isLocated isSpec isState isTable (ranked id member) taken]
      apply arranged.getElem?_assignedPeer isState
      rw [ModuleConfig.members, isSpec]
      exact populated group.1 (mem_of_getElem? isSpec)

end Lookups

section Started

variable {ι : Type u}

structure Started (config : ModuleConfig ι) (sorter : Sorter (List Char)) (room : List Char → Nat)
    (pollers : List (ι × List Char)) (groups : List (GroupedPollers ι)) (objects : ObjectConfig)
    (mapped : Mapped) : Prop where
  added : pgroupAddPollersIn sorter room pollers [] = some groups
  nodes : config.pollerGroups.map PollerGroup.nodes = groups.map GroupedPollers.nodes
  configured : Configured config objects (groups.map GroupedPollers.spec) mapped

variable {config : ModuleConfig ι} {sorter : Sorter (List Char)} {room : List Char → Nat}
  {pollers : List (ι × List Char)} {groups : List (GroupedPollers ι)} {objects : ObjectConfig}
  {mapped : Mapped}

theorem Started.populated (started : Started config sorter room pollers groups objects mapped) :
    ∀ spec ∈ config.pollerGroups, spec.nodes ≠ [] := by
  intro spec isSpec
  have member : spec.nodes ∈ groups.map GroupedPollers.nodes := by
    rw [← started.nodes]
    exact mem_map_of_mem isSpec
  obtain ⟨pg, isGroup, same⟩ := mem_map.mp member
  rw [← same]
  exact pgroupAddPollersIn_populated started.added (forall_mem_nil _) pg isGroup

/-- After any calls no access has left the tables, and a node is found for every
host and service.  The start times fit, or `qsort` puts active nodes in front
without relying on them. -/
theorem moduleRun_lookups_inside
    [DecidableEq ι] (started : Started config sorter room pollers groups objects mapped)
    (qsort : Sorter (PeerNode ι)) (ipcState : NodeState) (ipcStart : Timeval)
    (calls : List (ModuleCall ι))
    (sorts : qsort.FrontFirst ∨ ipcStart.Bounded ∧ ∀ call ∈ calls, call.Fits) :
    (∀ access ∈ (moduleRun config qsort ipcState ipcStart calls).accesses, access.Inside) ∧
      ∀ (kind : ObjectKind), ∀ id < kind.total config,
        (objectNode kind config (moduleRun config qsort ipcState ipcStart calls) id).isSome =
          true := by
  have resortable := moduleRun_resortable config ipcState sorts
  refine ⟨moduleRun_inside started.configured.allocated sorts, ?_⟩
  intro kind id bound
  exact resortable.arranged.isSome_objectNode started.configured started.populated bound

end Started

theorem oneOfEach_started :
    Started oneOfEach (insertionSorter _) (fun _ => 1) [(2, ['c'])] [⟨['c'], [2]⟩] threeHosts
      oneMapped where
  added := by decide +kernel
  nodes := by decide +kernel
  configured := oneOfEach_configured

def farPeerCalls : List (ModuleCall Nat) :=
  [.setState 1 .pending .sent, .setInfo 1 ⟨7 + 2 ^ 31, 0⟩, .setState 1 .connected .sent,
    .disconnect 1]

theorem moduleRun_lookups_inside_far :
    (moduleRun oneOfEach (insertionSorter _) .connected ⟨7, 0⟩ farPeerCalls).accesses ≠ [] ∧
      ∀ access ∈ (moduleRun oneOfEach (insertionSorter _) .connected ⟨7, 0⟩ farPeerCalls).accesses,
        access.Inside :=
  ⟨by decide +kernel,
    (moduleRun_lookups_inside oneOfEach_started (insertionSorter _) .connected ⟨7, 0⟩ farPeerCalls
      (.inl (insertionSorter_frontFirst _))).1⟩

end MonitorMerlin
