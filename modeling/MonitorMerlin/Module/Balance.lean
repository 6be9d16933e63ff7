import MonitorMerlin.Module.Groups

/-! # Two computations of the load balance -/

namespace MonitorMerlin

open List

universe u

variable {ι : Type u} [DecidableEq ι]

/-- `should_run_check`. -/
def shouldRunCheck (config : ModuleConfig ι) (module : ModuleState ι) (id : Nat) : Bool :=
  assignedPeer id ((module.active .peer + 1) % 2 ^ 32) = module.peerId config.me

structure Sorted (config : ModuleConfig ι) (module : ModuleState ι) (group : GroupState ι) :
    Prop where
  front : group.nodes.Pairwise fun a b => IsActive config module b → IsActive config module a
  count : group.activeNodes = group.nodes.countP fun node => IsActive config module node
  ids : group.activeNodes ≠ 0 →
    ∀ index node, group.nodes[index]? = some node → module.peerId node = index

section Sorted

variable {config : ModuleConfig ι} {module after : ModuleState ι} {group : GroupState ι}

section

variable (sorted : Sorted config module group)

include sorted

theorem Sorted.congr
    (sameActive : ∀ node ∈ group.nodes, IsActive config after node ↔ IsActive config module node)
    (sameIds : ∀ node ∈ group.nodes, after.peerId node = module.peerId node) :
    Sorted config after group where
  front := by
    apply sorted.front.imp_of_mem
    intro a b memberA memberB before
    rw [sameActive a memberA, sameActive b memberB]
    exact before
  count := by
    rw [sorted.count]
    apply countP_congr
    intro node member
    rw [decide_eq_true_iff, decide_eq_true_iff, sameActive node member]
  ids := by
    intro active index node found
    rw [sameIds node (mem_of_getElem? found)]
    exact sorted.ids active index node found

theorem Sorted.take_active :
    group.nodes.take group.activeNodes =
      group.nodes.filter fun node => IsActive config module node := by
  rw [sorted.count]
  exact Sorting.take_countP_of_front sorted.front

variable {node : ι}

theorem Sorted.getElem?_iff (active : group.activeNodes ≠ 0) (member : node ∈ group.nodes)
    (index : Nat) : group.nodes[index]? = some node ↔ index = module.peerId node := by
  constructor
  · intro found
    exact (sorted.ids active index node found).symm
  · rintro rfl
    obtain ⟨index, found⟩ := mem_iff_getElem?.mp member
    rw [sorted.ids active index node found]
    exact found

theorem Sorted.peerId_lt (member : node ∈ group.nodes) (active : IsActive config module node) :
    module.peerId node < group.activeNodes := by
  have first : node ∈ group.nodes.take group.activeNodes := by
    rw [sorted.take_active, mem_filter, decide_eq_true_iff]
    exact ⟨member, active⟩
  obtain ⟨index, found⟩ := mem_iff_getElem?.mp first
  rw [getElem?_take] at found
  split at found
  · rw [sorted.ids (by omega) index node found]
    assumption
  · cases found

end

end Sorted

section Sorting

variable {config : ModuleConfig ι} {qsort : Sorting.Sorter (PeerNode ι)} {module : ModuleState ι}
  {group : GroupState ι}

theorem consistent_peerNodes (starts : ∀ node, (module.start node).Bounded) (nodes : List ι) :
    Sorting.Consistent (cmpPeer config.me) (nodes.map module.peerNode) := by
  apply cmpPeer_consistent_of_bounded config.me
  · intro node member
    obtain ⟨id, _, rfl⟩ := mem_map.mp member
    exact starts id
  · intro a memberA b memberB same
    obtain ⟨idA, _, rfl⟩ := mem_map.mp memberA
    obtain ⟨idB, _, rfl⟩ := mem_map.mp memberB
    rw [show idA = idB from same]

def sortedNodes (config : ModuleConfig ι) (qsort : Sorting.Sorter (PeerNode ι))
    (module : ModuleState ι) (group : GroupState ι) : List (PeerNode ι) :=
  qsort.sort (cmpPeer config.me) (group.nodes.map module.peerNode)

theorem sortGroup_nodes :
    (sortGroup config qsort module group).1.nodes =
      (sortedNodes config qsort module group).map PeerNode.id :=
  pgroupAssignPeerIds_ids config.me qsort _

structure ActiveFirst (config : ModuleConfig ι) (qsort : Sorting.Sorter (PeerNode ι))
    (module : ModuleState ι) (group : GroupState ι) : Prop where
  perm : (sortedNodes config qsort module group).Perm (group.nodes.map module.peerNode)
  front : (sortedNodes config qsort module group).Pairwise fun a b =>
    IsActive config module b.id → IsActive config module a.id

theorem ActiveFirst.sortGroup_perm (activeFirst : ActiveFirst config qsort module group) :
    (sortGroup config qsort module group).1.nodes.Perm group.nodes := by
  rw [sortGroup_nodes]
  have perm := activeFirst.perm.map PeerNode.id
  rwa [map_map, show PeerNode.id ∘ module.peerNode = id from rfl, map_id] at perm

theorem cmpPeer_of_active
    {a b : PeerNode ι} (stateA : a.state = module.state a.id) (stateB : b.state = module.state b.id)
    (activeA : IsActive config module a.id) (inactiveB : ¬ IsActive config module b.id) :
    cmpPeer config.me a b ≤ 0 ∧ ¬ cmpPeer config.me b a ≤ 0 := by
  have sortState (node : PeerNode ι) (state : node.state = module.state node.id) :
      node.sortState config.me = .connected ↔ IsActive config module node.id := by
    unfold PeerNode.sortState IsActive
    rw [← state]
    split_ifs with isLocal <;> simp [isLocal]
  rw [← sortState a stateA] at activeA
  rw [← sortState b stateB] at inactiveB
  have differ : a.sortState config.me ≠ b.sortState config.me := fun same =>
    inactiveB (same.symm.trans activeA)
  constructor
  · rw [cmpPeer, if_pos ⟨differ, activeA⟩]
    decide
  · rw [cmpPeer, if_neg fun both => inactiveB both.2, if_pos ⟨differ.symm, activeA⟩]
    decide

theorem activeFirst_of_bounded (starts : ∀ node, (module.start node).Bounded) :
    ActiveFirst config qsort module group := by
  have consistent : Sorting.Consistent (cmpPeer config.me) (group.nodes.map module.peerNode) :=
    consistent_peerNodes starts group.nodes
  have perm := qsort.perm consistent
  have state {node : PeerNode ι} (member : node ∈ sortedNodes config qsort module group) :
      node.state = module.state node.id := by
    obtain ⟨id, _, rfl⟩ := mem_map.mp (perm.mem_iff.mp member)
    rfl
  apply ActiveFirst.mk perm
  apply (qsort.sorted consistent).imp_of_mem
  intro a b memberA memberB before activeB
  by_contra inactiveA
  exact (cmpPeer_of_active (state memberB) (state memberA) activeB inactiveA).2 before

theorem activeFirst_of_frontFirst (frontFirst : qsort.FrontFirst) :
    ActiveFirst config qsort module group := by
  apply ActiveFirst.mk (frontFirst.perm _ _)
  apply frontFirst.front _ _ fun node => IsActive config module node.id
  intro a memberA b memberB activeA inactiveB
  obtain ⟨idA, _, rfl⟩ := mem_map.mp memberA
  obtain ⟨idB, _, rfl⟩ := mem_map.mp memberB
  exact cmpPeer_of_active rfl rfl activeA inactiveB

variable {node : ι}

theorem sortGroup_peerId (distinct : (sortGroup config qsort module group).1.nodes.Nodup)
    {index : Nat} (found : (sortGroup config qsort module group).1.nodes[index]? = some node) :
    (sortGroup config qsort module group).2 node = index := by
  simp only [sortGroup] at distinct found ⊢
  generalize pgroup : pgroupAssignPeerIds config.me qsort
    (module.peerGroup group false none none) = pg at distinct found ⊢
  rw [getElem?_map, Option.map_eq_some_iff] at found
  obtain ⟨here, hereFound, rfl⟩ := found
  have hereId : here.peerId = index := by
    rw [← pgroup] at hereFound
    simp only [pgroupAssignPeerIds, getElem?_mapIdx, Option.map_eq_some_iff] at hereFound
    obtain ⟨_, _, rfl⟩ := hereFound
    rfl
  have first : pg.nodes.find? (fun other => other.id = here.id) = some here := by
    cases search : pg.nodes.find? fun other => other.id = here.id with
    | none =>
      exact absurd (decide_eq_true rfl) (find?_eq_none.mp search here (mem_of_getElem? hereFound))
    | some other =>
      have sameId := find?_some search
      rw [decide_eq_true_iff] at sameId
      rw [inj_on_of_nodup_map distinct (mem_of_find?_eq_some search)
        (mem_of_getElem? hereFound) sameId]
  rw [first, Option.map_some, Option.getD_some, hereId]

theorem sortGroup_peerId_of_not_mem
    (outside : node ∉ (sortGroup config qsort module group).1.nodes) :
    (sortGroup config qsort module group).2 node = module.peerId node := by
  simp only [sortGroup] at outside ⊢
  rw [find?_eq_none.mpr]
  · rfl
  · intro other member same
    exact outside (mem_map.mpr ⟨other, member, of_decide_eq_true same⟩)

theorem ActiveFirst.sorted
    (activeFirst : ActiveFirst config qsort module group) (distinct : group.nodes.Nodup)
    {after : ModuleState ι} (sameState : after.state = module.state)
    (ids : after.peerId = (sortGroup config qsort module group).2) :
    Sorted config after (sortGroup config qsort module group).1 where
  front := by
    rw [sortGroup_nodes, pairwise_map]
    apply activeFirst.front.imp
    intro a b before
    unfold IsActive
    rw [sameState]
    exact before
  count := by
    rw [sortGroup_nodes, countP_map]
    apply countP_congr
    intro node member
    obtain ⟨id, _, rfl⟩ := mem_map.mp (activeFirst.perm.mem_iff.mp member)
    rw [Function.comp_apply, decide_eq_true_iff, decide_eq_true_iff, IsActive, sameState]
    rfl
  ids := by
    intro _ index node found
    rw [ids]
    exact sortGroup_peerId (activeFirst.sortGroup_perm.nodup_iff.mpr distinct) found

end Sorting

section SortsWell

omit [DecidableEq ι]

/-- `qsort` sorts the groups of a module. -/
def SortsWell (qsort : Sorting.Sorter (PeerNode ι)) (module : ModuleState ι) : Prop :=
  qsort.FrontFirst ∨ ∀ node, (module.start node).Bounded

theorem Untouched.sortsWell
    {qsort : Sorting.Sorter (PeerNode ι)} {module after : ModuleState ι} {fits : Prop}
    (untouched : Untouched fits module after) (sortsWell : SortsWell qsort module)
    (holds : qsort.FrontFirst ∨ fits) : SortsWell qsort after := by
  rcases sortsWell with frontFirst | starts
  · exact .inl frontFirst
  · exact holds.imp_right (untouched.starts starts)

end SortsWell

section Arranged

structure Arranged (config : ModuleConfig ι) (skip : Option GroupRef)
    (module : ModuleState ι) : Prop where
  length : module.groups.length = config.pollerGroups.length
  members : ∀ ref group, module.groupAt ref = some group → group.nodes.Perm (config.members ref)
  sorted : ∀ ref group, module.groupAt ref = some group → some ref ≠ skip →
    Sorted config module group

variable {config : ModuleConfig ι} {qsort : Sorting.Sorter (PeerNode ι)}
  {module after : ModuleState ι} {skip : Option GroupRef} {node : ι} {next : NodeState}

theorem Arranged.exists_poller {index : Nat} {spec : PollerGroup ι}
    (arranged : Arranged config skip module) (found : config.pollerGroups[index]? = some spec) :
    ∃ group, module.groupAt (.poller index) = some group := by
  have within := (List.getElem?_eq_some_iff.mp found).1
  rw [← arranged.length] at within
  exact ⟨_, getElem?_eq_getElem within⟩

theorem Arranged.exists_groupAt {ref : GroupRef} (arranged : Arranged config skip module)
    (member : node ∈ config.members ref) : ∃ group, module.groupAt ref = some group := by
  cases ref with
  | ipc => exact ⟨_, rfl⟩
  | poller index =>
    obtain ⟨spec, found, _⟩ := ModuleConfig.mem_members_poller.mp member
    exact arranged.exists_poller found

theorem SortsWell.activeFirst (sortsWell : SortsWell qsort module) (group : GroupState ι) :
    ActiveFirst config qsort module group := by
  rcases sortsWell with frontFirst | starts
  · exact activeFirst_of_frontFirst frontFirst
  · exact activeFirst_of_bounded starts

theorem Arranged.congr {other : Option GroupRef} (arranged : Arranged config skip module)
    (ipcGroup : after.ipcGroup = module.ipcGroup) (groups : after.groups = module.groups)
    (peerId : after.peerId = module.peerId) (weaker : ∀ ref, some ref ≠ other → some ref ≠ skip)
    (sameActive : ∀ ref, some ref ≠ other → ∀ node ∈ config.members ref,
      IsActive config after node ↔ IsActive config module node) : Arranged config other after := by
  have sameGroup (ref : GroupRef) : after.groupAt ref = module.groupAt ref := by
    cases ref with
    | ipc => exact congrArg some ipcGroup
    | poller index => exact congrArg (·[index]?) groups
  constructor
  · rw [groups]
    exact arranged.length
  · intro ref group found
    rw [sameGroup] at found
    exact arranged.members ref group found
  · intro ref group found kept
    rw [sameGroup] at found
    apply (arranged.sorted ref group found (weaker ref kept)).congr
    · intro node member
      exact sameActive ref kept node ((arranged.members ref group found).mem_iff.mp member)
    · intro node _
      rw [peerId]

theorem Arranged.of_onlyLoad
    (arranged : Arranged config skip module) (onlyLoad : OnlyLoad module after) :
    Arranged config skip after := by
  apply arranged.congr onlyLoad.ipcGroup onlyLoad.groups onlyLoad.peerId
  · exact fun _ kept => kept
  · intro _ _ node _
    rw [IsActive, onlyLoad.state, IsActive]

variable {ref : GroupRef} {group : GroupState ι}

theorem Arranged.setGroup (arranged : Arranged config (some ref) module)
    (activeFirst : ActiveFirst config qsort module group)
    (found : module.groupAt ref = some group) :
    Arranged config none
      (ModuleState.setGroup { module with peerId := (sortGroup config qsort module group).2 }
        (sortGroup config qsort module group).1 ref) := by
  have perm := arranged.members ref group found
  have sortedPerm := activeFirst.sortGroup_perm
  generalize changedEq : ModuleState.setGroup
    { module with peerId := (sortGroup config qsort module group).2 }
    (sortGroup config qsort module group).1 ref = changed
  have state : changed.state = module.state := by
    rw [← changedEq]
    cases ref <;> rfl
  have peerId : changed.peerId = (sortGroup config qsort module group).2 := by
    rw [← changedEq]
    cases ref <;> rfl
  have here : changed.groupAt ref = some (sortGroup config qsort module group).1 := by
    rw [← changedEq]
    exact ModuleState.groupAt_setGroup_self (by exact found) _
  have elsewhere (other : GroupRef) (different : other ≠ ref) :
      changed.groupAt other = module.groupAt other := by
    rw [← changedEq, ModuleState.groupAt_setGroup_of_ne different]
    cases other <;> rfl
  constructor
  · rw [← changedEq, ← arranged.length]
    cases ref with
    | ipc => rfl
    | poller index => exact length_set
  · intro other otherGroup there
    by_cases same : other = ref
    · rw [same, here] at there
      cases there
      rw [same]
      exact sortedPerm.trans perm
    · rw [elsewhere other same] at there
      exact arranged.members other otherGroup there
  · intro other otherGroup there _
    by_cases same : other = ref
    · rw [same, here] at there
      cases there
      exact activeFirst.sorted (perm.nodup_iff.mpr nodup_members) state peerId
    · rw [elsewhere other same] at there
      apply (arranged.sorted other otherGroup there fun equal =>
        same (Option.some.inj equal)).congr
      · intro node _
        rw [IsActive, state, IsActive]
      · intro node member
        rw [peerId]
        apply sortGroup_peerId_of_not_mem
        rw [(sortedPerm.trans perm).mem_iff]
        exact members_apart same ((arranged.members other otherGroup there).mem_iff.mp member)

theorem Arranged.of_missing (arranged : Arranged config (some ref) module)
    (missing : module.groupAt ref = none) : Arranged config none module := by
  apply Arranged.mk arranged.length arranged.members
  intro other group there _
  apply arranged.sorted other group there
  intro same
  rw [Option.some.inj same, missing] at there
  cases there

theorem Arranged.pgroupAssign
    (arranged : Arranged config skip module) (sortsWell : SortsWell qsort module) :
    Arranged config none (pgroupAssign config qsort module skip) := by
  cases skip with
  | none => exact arranged
  | some ref =>
    cases found : module.groupAt ref with
    | none =>
      rw [pgroupAssign_none found]
      exact arranged.of_missing found
    | some group =>
      rw [pgroupAssign_eq found]
      apply Arranged.of_onlyLoad _ (pgroupReassignChecks_onlyLoad config _)
      exact arranged.setGroup (sortsWell.activeFirst group) found

variable {fits : Prop}

theorem Arranged.flips (arranged : Arranged config none module)
    (flips : Flips config fits node module after) : Arranged config (config.pgroup node) after := by
  apply arranged.congr flips.ipcGroup flips.groups flips.peerId
  · intro ref _
    exact Option.some_ne_none ref
  · intro ref kept other member
    apply flips.others other
    rintro rfl
    exact kept (pgroup_eq_some_iff.mpr member).symm

theorem Arranged.quiet (arranged : Arranged config none module)
    (quiet : Quiet config fits module after) : Arranged config none after :=
  arranged.congr quiet.ipcGroup quiet.groups quiet.peerId (fun _ kept => kept) fun _ _ node _ =>
    quiet.active node

theorem Arranged.sortedAt {group : GroupState ι} (arranged : Arranged config none module)
    (found : module.groupAt ref = some group) : Sorted config module group :=
  arranged.sorted ref group found (Option.some_ne_none _)

theorem Arranged.ipcSorted (arranged : Arranged config none module) :
    Sorted config module module.ipcGroup :=
  arranged.sorted .ipc _ rfl (Option.some_ne_none _)

structure Resortable (config : ModuleConfig ι) (qsort : Sorting.Sorter (PeerNode ι))
    (module : ModuleState ι) : Prop where
  arranged : Arranged config none module
  sortsWell : SortsWell qsort module

theorem Resortable.moduleStep (resortable : Resortable config qsort module) (call : ModuleCall ι)
    (fits : qsort.FrontFirst ∨ call.Fits) :
    Resortable config qsort (moduleStep config qsort module call) := by
  have result : StepResult config qsort module call _ := moduleStep_result module call
  generalize MonitorMerlin.moduleStep config qsort module call = after at result ⊢
  cases result with
  | quiet untoggled quiet =>
    exact ⟨resortable.arranged.quiet quiet, quiet.toUntouched.sortsWell resortable.sortsWell fits⟩
  | sorts toggles flips =>
    have sortsWell := flips.toUntouched.sortsWell resortable.sortsWell fits
    apply Resortable.mk ((resortable.arranged.flips flips).pgroupAssign sortsWell)
    rwa [SortsWell, pgroupAssign_start]

theorem initialModule_arranged
    (config : ModuleConfig ι) (ipcState : NodeState) (ipcStart : Timeval) :
    Arranged config (some .ipc) (initialModule config ipcState ipcStart) where
  length := length_map _
  members := by
    intro ref group found
    cases ref with
    | ipc =>
      cases found
      exact .refl _
    | poller index =>
      simp only [ModuleState.groupAt, initialModule, getElem?_map,
        Option.map_eq_some_iff] at found
      obtain ⟨spec, specFound, rfl⟩ := found
      simp only [ModuleConfig.members, specFound]
      exact .refl _
  sorted := by
    intro ref group found kept
    cases ref with
    | ipc => exact absurd rfl kept
    | poller index =>
      simp only [ModuleState.groupAt, initialModule, getElem?_map,
        Option.map_eq_some_iff] at found
      obtain ⟨spec, specFound, rfl⟩ := found
      have inactive (node : ι) (member : node ∈ spec.nodes) :
          ¬ IsActive config (initialModule config ipcState ipcStart) node := by
        have inMembers := ModuleConfig.mem_members_poller.mpr ⟨spec, specFound, member⟩
        have remote : node ≠ config.me := by
          rintro rfl
          exact me_not_mem_nodesOf config .poller (mem_pollers_of_mem_members inMembers)
        simp [IsActive, initialModule, remote]
      constructor
      · apply pairwise_of_forall_mem_list
        intro a _ b memberB activeB
        exact absurd activeB (inactive b memberB)
      · symm
        rw [countP_eq_zero]
        intro node member
        rw [decide_eq_true_iff]
        exact inactive node member
      · exact fun active => absurd rfl active

variable {ipcStart : Timeval}

theorem initialModule_starts (config : ModuleConfig ι) (ipcState : NodeState)
    (ipcFits : ipcStart.Bounded) (node : ι) :
    ((initialModule config ipcState ipcStart).start node).Bounded := by
  simp only [initialModule]
  split
  · exact ipcFits
  · exact Timeval.bounded_zero

theorem moduleRun_resortable (config : ModuleConfig ι) (ipcState : NodeState)
    {calls : List (ModuleCall ι)}
    (sorts : qsort.FrontFirst ∨ ipcStart.Bounded ∧ ∀ call ∈ calls, call.Fits) :
    Resortable config qsort (moduleRun config qsort ipcState ipcStart calls) := by
  have sortsWell : SortsWell qsort (initialModule config ipcState ipcStart) :=
    sorts.imp_right fun bounded => initialModule_starts config ipcState bounded.1
  apply moduleRun_keeps config qsort
  · apply Resortable.mk
      ((initialModule_arranged config ipcState ipcStart).pgroupAssign sortsWell)
    rwa [SortsWell, pgroupAssign_start]
  · intro module resortable call member
    exact resortable.moduleStep call (sorts.imp_right fun bounded => bounded.2 call member)

section Keeps

variable {P : ModuleState ι → Prop}
  (congr : ∀ {module after : ModuleState ι}, P module → after.extra = module.extra →
    after.accesses = module.accesses → P after)
  (reassign : ∀ {module : ModuleState ι}, Arranged config none module → P module →
    P (pgroupReassignChecks config module))

include congr reassign

theorem Arranged.pgroupAssign_keeps (arranged : Arranged config skip module)
    (sortsWell : SortsWell qsort module) (holds : P module) :
    P (MonitorMerlin.pgroupAssign config qsort module skip) := by
  cases skip with
  | none => exact holds
  | some ref =>
    cases found : module.groupAt ref with
    | none => rwa [pgroupAssign_none found]
    | some group =>
      rw [pgroupAssign_eq found]
      apply reassign (arranged.setGroup (sortsWell.activeFirst group) found)
      cases ref <;> exact congr holds rfl rfl

theorem Resortable.moduleStep_keeps (resortable : Resortable config qsort module)
    (call : ModuleCall ι) (fits : qsort.FrontFirst ∨ call.Fits) (holds : P module) :
    P (MonitorMerlin.moduleStep config qsort module call) := by
  have result : StepResult config qsort module call _ := moduleStep_result module call
  generalize MonitorMerlin.moduleStep config qsort module call = after at result ⊢
  cases result with
  | quiet untoggled quiet => exact congr holds quiet.extra quiet.accesses
  | sorts toggles flips =>
    exact (resortable.arranged.flips flips).pgroupAssign_keeps congr reassign
      (flips.toUntouched.sortsWell resortable.sortsWell fits)
      (congr holds flips.extra flips.accesses)

theorem moduleRun_keeps_counts {ipcState : NodeState} {calls : List (ModuleCall ι)}
    (initial : P (initialModule config ipcState ipcStart))
    (sorts : qsort.FrontFirst ∨ ipcStart.Bounded ∧ ∀ call ∈ calls, call.Fits) :
    P (moduleRun config qsort ipcState ipcStart calls) := by
  induction calls using reverseRecOn with
  | nil =>
    apply (initialModule_arranged config ipcState ipcStart).pgroupAssign_keeps congr reassign _
      initial
    exact sorts.imp_right fun bounded => initialModule_starts config ipcState bounded.1
  | append_singleton calls call ih =>
    have early : qsort.FrontFirst ∨ ipcStart.Bounded ∧ ∀ call ∈ calls, call.Fits :=
      sorts.imp_right fun bounded => ⟨bounded.1, fun other member =>
        bounded.2 other (mem_append_left _ member)⟩
    rw [moduleRun, foldl_append]
    exact (moduleRun_resortable config ipcState early).moduleStep_keeps congr reassign call
      (sorts.imp_right fun bounded => bounded.2 call (mem_append_right _ mem_cons_self)) (ih early)

end Keeps

end Arranged

section Agree

variable {config : ModuleConfig ι} {module : ModuleState ι} {initial : ι → NodeState}

theorem ipcGroup_activeNodes
    (arranged : Arranged config none module) (exact : Exact config initial module) :
    module.ipcGroup.activeNodes = module.active .peer + 1 := by
  have perm := arranged.members .ipc _ rfl
  have sorted := arranged.ipcSorted
  have remote : ∀ node ∈ config.peers, node ≠ config.me := by
    rintro node member rfl
    exact me_not_mem_nodesOf config .peer member
  have selfActive : decide (IsActive config module config.me) = true := decide_eq_true (.inl rfl)
  rw [sorted.count, perm.countP_eq, ModuleConfig.members, countP_cons, if_pos selfActive,
    exact.counters .peer]
  congr 1
  apply countP_congr
  intro node member
  rw [decide_eq_true_iff, decide_eq_true_iff, IsActive, or_iff_right (remote node member)]

theorem shouldRunCheck_iff
    (arranged : Arranged config none module) (exact : Exact config initial module) (id : Nat) :
    shouldRunCheck config module id = true ↔
      module.ipcGroup.nodes[id % module.ipcGroup.activeNodes]? = some config.me := by
  have perm := arranged.members .ipc _ rfl
  have sorted := arranged.ipcSorted
  have counted := ipcGroup_activeNodes arranged exact
  have active : module.ipcGroup.activeNodes ≠ 0 := by
    rw [counted]
    exact Nat.succ_ne_zero _
  have few : module.ipcGroup.activeNodes < 2 ^ 32 := by
    rw [sorted.count, perm.countP_eq]
    apply lt_of_le_of_lt countP_le_length
    have peers := (nodesOf_sublist config .peer).length_le
    have total := config.few
    simp only [ModuleConfig.nodesOf, ModuleConfig.pollers, ModuleConfig.members,
      length_cons] at peers total ⊢
    omega
  rw [shouldRunCheck, decide_eq_true_iff, ← counted, Nat.mod_eq_of_lt few, assignedPeer,
    if_pos active]
  exact (sorted.getElem?_iff active (perm.mem_iff.mpr mem_cons_self) _).symm

/-- After any calls the counters of peers agree, every group starts with its active nodes, and
`should_run_check` holds for what the peer group gives to the local node. -/
theorem moduleRun_balance
    (config : ModuleConfig ι) (qsort : Sorting.Sorter (PeerNode ι)) (ipcState : NodeState)
    (ipcStart : Timeval) (calls : List (ModuleCall ι))
    (sorts : qsort.FrontFirst ∨ ipcStart.Bounded ∧ ∀ call ∈ calls, call.Fits) :
    let module := moduleRun config qsort ipcState ipcStart calls
    module.ipcGroup.activeNodes = module.active .peer + 1 ∧
    module.ipcGroup.nodes[module.peerId config.me]? = some config.me ∧
    (∀ ref group, module.groupAt ref = some group →
      group.nodes.Perm (config.members ref) ∧
      ∀ node, node ∈ group.nodes.take group.activeNodes ↔
        node ∈ config.members ref ∧ IsActive config module node) ∧
    ∀ id, shouldRunCheck config module id = true ↔
      module.ipcGroup.nodes[id % module.ipcGroup.activeNodes]? = some config.me := by
  intro module
  have arranged := (moduleRun_resortable config ipcState sorts).arranged
  have exact := moduleRun_exact config qsort ipcState ipcStart calls
  have sorted := arranged.ipcSorted
  have counted := ipcGroup_activeNodes arranged exact
  refine ⟨counted, ?_, ?_, fun id => shouldRunCheck_iff arranged exact id⟩
  · have active : module.ipcGroup.activeNodes ≠ 0 := by
      rw [counted]
      exact Nat.succ_ne_zero _
    apply (sorted.getElem?_iff active _ _).mpr rfl
    exact (arranged.members .ipc _ rfl).mem_iff.mpr mem_cons_self
  · intro ref group found
    have perm := arranged.members ref group found
    apply And.intro perm
    intro node
    rw [(arranged.sortedAt found).take_active, mem_filter,
      perm.mem_iff, decide_eq_true_iff]

end Agree

def peerAndPoller : ModuleConfig Nat where
  me := 0
  masters := []
  peers := [1]
  pollerGroups := [⟨[2], true, pgroupAllocCounters 1 1⟩]
  ipcTables := pgroupAllocCounters 1 2
  numHosts := 0
  numServices := 0
  hostId2pg := []
  serviceId2pg := []
  distinct := by decide
  few := by decide

def peerConnects : List (ModuleCall Nat) :=
  [.setState 1 .pending .sent, .setInfo 1 ⟨5, 0⟩, .setState 1 .connected .sent]

theorem peerConnects_fits : ∀ call ∈ peerConnects, call.Fits := by
  simp only [peerConnects, forall_mem_cons, ModuleCall.Fits]
  exact ⟨trivial, ⟨by decide, by decide, by decide, by decide⟩, trivial, forall_mem_nil _⟩

theorem moduleRun_balance_peerConnects :
    (∀ call ∈ peerConnects, call.Fits) ∧
    ∀ id, shouldRunCheck peerAndPoller
        (moduleRun peerAndPoller (Sorting.insertionSorter _) .connected ⟨7, 0⟩ peerConnects) id =
          true ↔
      (moduleRun peerAndPoller (Sorting.insertionSorter _) .connected ⟨7, 0⟩
          peerConnects).ipcGroup.nodes[id %
        (moduleRun peerAndPoller (Sorting.insertionSorter _) .connected ⟨7, 0⟩
          peerConnects).ipcGroup.activeNodes]? = some 0 := by
  apply And.intro peerConnects_fits
  exact (moduleRun_balance peerAndPoller (Sorting.insertionSorter _) .connected ⟨7, 0⟩
    peerConnects
    (.inr ⟨⟨by decide, by decide, by decide, by decide⟩, peerConnects_fits⟩)).2.2.2

end MonitorMerlin
