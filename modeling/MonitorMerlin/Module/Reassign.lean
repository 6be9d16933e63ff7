import MonitorMerlin.Module.Balance

/-! # What `pgroup_reassign_checks` writes -/

namespace MonitorMerlin

open List Tally

universe u

inductive ObjectKind where
  | host
  | service
  deriving DecidableEq, Repr

namespace ObjectKind

def tables : ObjectKind → MappedGroup → ObjectTables
  | .host => MappedGroup.hosts
  | .service => MappedGroup.services

def count : ObjectKind → AssignedObjects → Int
  | .host => AssignedObjects.hosts
  | .service => AssignedObjects.services

variable {ι : Type u}

def total (config : ModuleConfig ι) : ObjectKind → Nat
  | .host => config.numHosts
  | .service => config.numServices

def id2pg (config : ModuleConfig ι) : ObjectKind → List (Option Nat)
  | .host => config.hostId2pg
  | .service => config.serviceId2pg

def idTable : ObjectKind → PeerGroup ι → Option (List Nat)
  | .host => PeerGroup.hostIdTable
  | .service => PeerGroup.serviceIdTable

@[simp]
theorem count_zero (kind : ObjectKind) : kind.count ⟨0, 0⟩ = 0 := by
  cases kind <;> rfl

theorem count_add (kind : ObjectKind) (first second : AssignedObjects) :
    kind.count (first.add second) = kind.count first + kind.count second := by
  cases kind <;> rfl

end ObjectKind

theorem ObjectKind.count_tableCell
    (kind : ObjectKind) (tables : MappedGroup) (table : ObjectTables → Table) (row index : Nat) :
    kind.count (tableCell (table tables.hosts) (table tables.services) row index) =
      table (kind.tables tables) row index := by
  cases kind <;> rfl

section Reassign

variable {ι : Type u} [DecidableEq ι]

def load (kind : ObjectKind) (module : ModuleState ι) (node : ι) : Int :=
  kind.count (module.current node) + kind.count (module.extra node)

variable {config : ModuleConfig ι} {module : ModuleState ι} {nodes : List ι} {node : ι}
  {group : PollerGroup ι × GroupState ι}

theorem foldl_resetNode_current (distinct : nodes.Nodup) :
    (nodes.foldl (resetNode config) module).current node = if node ∈ nodes then
        tableCell config.ipcTables.hosts.assign config.ipcTables.services.assign
          (module.ipcGroup.activeNodes - 1) (module.peerId node) else module.current node := by
  apply foldl_cell ModuleState.current
    (fun node _ => tableCell config.ipcTables.hosts.assign config.ipcTables.services.assign
      (module.ipcGroup.activeNodes - 1) (module.peerId node))
    (OnlyLoad module) distinct
  · exact fun state item onlyLoad => onlyLoad.trans (resetNode_onlyLoad state item)
  · intro state item onlyLoad
    rw [← onlyLoad.peerId, ← onlyLoad.ipcGroup]
    rfl
  · exact .refl module

theorem foldl_resetNode_extra (distinct : nodes.Nodup) :
    (nodes.foldl (resetNode config) module).extra node =
      if node ∈ nodes then ⟨0, 0⟩ else module.extra node :=
  foldl_cell ModuleState.extra (fun _ _ => ⟨0, 0⟩) (fun _ => True) distinct
    (fun _ _ _ => trivial) (fun _ _ _ => rfl) trivial node

variable {tables : MappedGroup}

theorem foldl_inheritNode_extra (distinct : nodes.Nodup) :
    (nodes.foldl (inheritNode tables) module).extra node =
      if node ∈ nodes ∧ module.state node = .connected then
        (module.extra node).add (tableCell tables.hosts.inherit tables.services.inherit
          (module.ipcGroup.activeNodes - 1) (module.peerId node)) else module.extra node := by
  rw [foldl_cell ModuleState.extra (fun node extra => if module.state node = .connected then
      extra.add (tableCell tables.hosts.inherit tables.services.inherit
        (module.ipcGroup.activeNodes - 1) (module.peerId node)) else extra)
    (OnlyLoad module) distinct, ite_and]
  · exact fun state item onlyLoad => onlyLoad.trans (inheritNode_onlyLoad tables state item)
  · intro state item onlyLoad
    unfold inheritNode
    rw [← onlyLoad.peerId, ← onlyLoad.ipcGroup, ← onlyLoad.state]
    by_cases connected : state.state item = .connected
    · rw [if_neg (not_not.mpr connected), if_pos connected]
    · rw [if_pos connected, if_neg connected, Function.update_eq_self]
  · exact .refl module

theorem foldl_assignNode_current {active : Nat} (distinct : nodes.Nodup) :
    (nodes.foldl (assignNode tables active) module).current node = if node ∈ nodes then
        if module.state node ≠ .connected then ⟨0, 0⟩
        else tableCell tables.hosts.assign tables.services.assign (active - 1) (module.peerId node)
      else module.current node := by
  apply foldl_cell ModuleState.current
    (fun node _ => if module.state node ≠ .connected then ⟨0, 0⟩
      else tableCell tables.hosts.assign tables.services.assign (active - 1) (module.peerId node))
    (OnlyLoad module) distinct
  · exact fun state item onlyLoad => onlyLoad.trans (assignNode_onlyLoad tables active state item)
  · intro state item onlyLoad
    unfold assignNode
    rw [← onlyLoad.peerId, ← onlyLoad.state]
    split <;> rfl
  · exact .refl module

/-- No node of the group is active, and it may be taken over. -/
def TakenOver (group : PollerGroup ι × GroupState ι) : Prop :=
  group.2.activeNodes = 0 ∧ group.1.takeover = true

instance TakenOver.decidable (group : PollerGroup ι × GroupState ι) : Decidable (TakenOver group) :=
  inferInstanceAs (Decidable (_ ∧ _))

theorem reassignGroup_current (distinct : group.2.nodes.Nodup) :
    (reassignGroup module group).current node =
      if group.2.activeNodes ≠ 0 ∧ node ∈ group.2.nodes then
        if module.state node ≠ .connected then ⟨0, 0⟩
        else tableCell group.1.tables.hosts.assign group.1.tables.services.assign
          (group.2.activeNodes - 1) (module.peerId node) else module.current node := by
  unfold reassignGroup
  by_cases dead : group.2.activeNodes = 0
  · have notAlive : ¬ (group.2.activeNodes ≠ 0 ∧ node ∈ group.2.nodes) := fun both => both.1 dead
    rw [if_pos dead, if_neg notAlive]
    split
    · rfl
    · apply congrFun (foldl_unchanged _ _ module) node
      intro state item
      unfold inheritNode
      split <;> rfl
  · rw [if_neg dead, foldl_assignNode_current distinct]
    simp only [ne_eq, dead, not_false_eq_true, true_and]

theorem reassignGroup_extra
    (distinct : (module.ipcGroup.nodes.take module.ipcGroup.activeNodes).Nodup) :
    (reassignGroup module group).extra node =
      if TakenOver group ∧ node ∈ module.ipcGroup.nodes.take module.ipcGroup.activeNodes ∧
          module.state node = .connected then
        (module.extra node).add
          (tableCell group.1.tables.hosts.inherit group.1.tables.services.inherit
            (module.ipcGroup.activeNodes - 1) (module.peerId node)) else module.extra node := by
  unfold reassignGroup TakenOver
  by_cases dead : group.2.activeNodes = 0
  · rw [if_pos dead]
    by_cases takeover : group.1.takeover = false
    · simp [takeover]
    · rw [if_neg takeover, foldl_inheritNode_extra distinct]
      simp [dead, takeover]
  · rw [if_neg dead]
    have untouched : (group.2.nodes.foldl (assignNode group.1.tables group.2.activeNodes)
        { module with ipcAssigned := ⟨module.ipcAssigned.hosts - group.1.tables.hosts.assigned,
          module.ipcAssigned.services - group.1.tables.services.assigned⟩ }).extra =
          module.extra := by
      apply foldl_unchanged
      intro state item
      unfold assignNode
      split <;> rfl
    rw [untouched]
    simp [dead]

section Groups

variable {groups : List (PollerGroup ι × GroupState ι)}

theorem foldl_reassignGroup_current
    (value : AssignedObjects) (distinct : ∀ group ∈ groups, group.2.nodes.Nodup)
    (cell : ∀ group ∈ groups, group.2.activeNodes ≠ 0 → node ∈ group.2.nodes →
      value = if module.state node ≠ .connected then ⟨0, 0⟩
        else tableCell group.1.tables.hosts.assign group.1.tables.services.assign
          (group.2.activeNodes - 1) (module.peerId node)) :
    (groups.foldl reassignGroup module).current node =
      if ∃ group ∈ groups, group.2.activeNodes ≠ 0 ∧ node ∈ group.2.nodes then value
      else module.current node := by
  induction groups generalizing module with
  | nil => simp
  | cons first rest ih =>
    obtain ⟨distinctFirst, distinctRest⟩ := forall_mem_cons.mp distinct
    obtain ⟨cellFirst, cellRest⟩ := forall_mem_cons.mp cell
    have onlyLoad := reassignGroup_onlyLoad module first
    simp only [mem_cons, exists_eq_or_imp]
    rw [foldl_cons, ih distinctRest, reassignGroup_current distinctFirst]
    · by_cases inRest : ∃ group ∈ rest, group.2.activeNodes ≠ 0 ∧ node ∈ group.2.nodes
      · rw [if_pos inRest, if_pos (.inr inRest)]
      · rw [if_neg inRest]
        by_cases inFirst : first.2.activeNodes ≠ 0 ∧ node ∈ first.2.nodes
        · rw [if_pos inFirst, if_pos (Or.inl inFirst), cellFirst inFirst.1 inFirst.2]
        · rw [if_neg inFirst, if_neg (not_or.mpr ⟨inFirst, inRest⟩)]
    · rw [onlyLoad.state, onlyLoad.peerId]
      exact cellRest

theorem foldl_reassignGroup_extra
    (distinct : (module.ipcGroup.nodes.take module.ipcGroup.activeNodes).Nodup)
    (kind : ObjectKind) :
    kind.count ((groups.foldl reassignGroup module).extra node) =
      kind.count (module.extra node) +
        if node ∈ module.ipcGroup.nodes.take module.ipcGroup.activeNodes ∧
            module.state node = .connected then
          (((groups.filter fun group => TakenOver group).map fun group =>
            (kind.tables group.1.tables).inherit (module.ipcGroup.activeNodes - 1)
              (module.peerId node)).sum : Int) else 0 := by
  induction groups generalizing module with
  | nil => simp
  | cons first rest ih =>
    have onlyLoad := reassignGroup_onlyLoad module first
    rw [foldl_cons, ih (by rw [onlyLoad.ipcGroup]; exact distinct),
      onlyLoad.ipcGroup, onlyLoad.state, onlyLoad.peerId, reassignGroup_extra distinct]
    by_cases inherits : node ∈ module.ipcGroup.nodes.take module.ipcGroup.activeNodes ∧
        module.state node = .connected
    · by_cases taken : TakenOver first
      · rw [if_pos ⟨taken, inherits⟩, if_pos inherits, if_pos inherits, kind.count_add,
          kind.count_tableCell _ ObjectTables.inherit,
          filter_cons_of_pos (by simpa using taken), map_cons, sum_cons]
        push_cast
        omega
      · rw [if_neg fun all => taken all.1, if_pos inherits, if_pos inherits,
          filter_cons_of_neg (by simpa using taken)]
    · rw [if_neg fun all => inherits all.2, if_neg inherits, if_neg inherits]

end Groups

end Reassign

section Pairs

variable {ι : Type u}

def pairs (config : ModuleConfig ι) (module : ModuleState ι) :
    List (PollerGroup ι × GroupState ι) :=
  config.pollerGroups.zip module.groups

theorem mem_pairs
    {config : ModuleConfig ι} {module : ModuleState ι} {group : PollerGroup ι × GroupState ι} :
    group ∈ pairs config module ↔
      ∃ index : Nat, config.pollerGroups[index]? = some group.1 ∧
        module.groupAt (.poller index) = some group.2 := by
  rw [pairs, mem_iff_getElem?]
  simp only [getElem?_zip_eq_some, ModuleState.groupAt]

variable [DecidableEq ι] {config : ModuleConfig ι} {module : ModuleState ι} {node : ι}
  {group : PollerGroup ι × GroupState ι}

namespace Arranged

section

variable (arranged : Arranged config none module)

include arranged

theorem mem_ipcNodes_iff :
    node ∈ module.ipcGroup.nodes.take module.ipcGroup.activeNodes ↔
      node ∈ config.members .ipc ∧ IsActive config module node := by
  rw [arranged.ipcSorted.take_active, mem_filter,
    decide_eq_true_iff, (arranged.members .ipc _ rfl).mem_iff]

theorem nodup_ipcNodes : (module.ipcGroup.nodes.take module.ipcGroup.activeNodes).Nodup := by
  have perm := arranged.members .ipc _ rfl
  exact (perm.nodup_iff.mpr nodup_members).sublist (take_sublist _ _)

theorem nodup_groupNodes (member : group ∈ pairs config module) : group.2.nodes.Nodup := by
  obtain ⟨index, _, state⟩ := mem_pairs.mp member
  exact (arranged.members _ _ state).nodup_iff.mpr nodup_members

theorem mem_groupNodes_iff (member : group ∈ pairs config module) :
    node ∈ group.2.nodes ↔ node ∈ group.1.nodes := by
  obtain ⟨index, spec, state⟩ := mem_pairs.mp member
  rw [(arranged.members _ _ state).mem_iff, ModuleConfig.members, spec]
  rfl

theorem pairs_unique {other : PollerGroup ι × GroupState ι} (member : group ∈ pairs config module)
    (memberOther : other ∈ pairs config module) (inGroup : node ∈ group.2.nodes)
    (inOther : node ∈ other.2.nodes) : group = other := by
  obtain ⟨index, spec, state⟩ := mem_pairs.mp member
  obtain ⟨otherIndex, otherSpec, otherState⟩ := mem_pairs.mp memberOther
  have same := members_poller_unique ((arranged.members _ _ state).mem_iff.mp inGroup)
    ((arranged.members _ _ otherState).mem_iff.mp inOther)
  rw [same, otherSpec] at spec
  rw [same, otherState] at state
  exact Prod.ext (Option.some.inj spec).symm (Option.some.inj state).symm

theorem not_mem_groupNodes (own : node ∈ config.members .ipc)
    (member : group ∈ pairs config module) : node ∉ group.2.nodes := by
  obtain ⟨index, _, state⟩ := mem_pairs.mp member
  rw [(arranged.members _ _ state).mem_iff]
  exact members_apart (by simp) own

end

end Arranged

end Pairs

variable {ι : Type u} [DecidableEq ι] {config : ModuleConfig ι} {module : ModuleState ι} {node : ι}

def resetNodes (config : ModuleConfig ι) (module : ModuleState ι) : ModuleState ι :=
  (module.ipcGroup.nodes.take module.ipcGroup.activeNodes).foldl (resetNode config)
    { module with ipcAssigned := ⟨config.numHosts, config.numServices⟩ }

theorem resetNodes_onlyLoad (config : ModuleConfig ι) (module : ModuleState ι) :
    OnlyLoad module (resetNodes config module) := by
  apply OnlyLoad.trans _ (.foldl resetNode_onlyLoad _ _)
  exact ⟨rfl, rfl, rfl, rfl, rfl, rfl, rfl⟩

theorem pgroupReassignChecks_eq (config : ModuleConfig ι) (module : ModuleState ι) :
    pgroupReassignChecks config module =
      (pairs config module).foldl reassignGroup (resetNodes config module) := rfl

theorem resetNodes_current (arranged : Arranged config none module) :
    (resetNodes config module).current node =
      if node ∈ config.members .ipc ∧ IsActive config module node then
        tableCell config.ipcTables.hosts.assign config.ipcTables.services.assign
          (module.ipcGroup.activeNodes - 1) (module.peerId node) else module.current node := by
  simp only [← arranged.mem_ipcNodes_iff]
  exact foldl_resetNode_current arranged.nodup_ipcNodes

theorem reassign_current_of_ipc
    (arranged : Arranged config none module) (own : node ∈ config.members .ipc) :
    (pgroupReassignChecks config module).current node =
      (resetNodes config module).current node := by
  have noGroup : ¬ ∃ group ∈ pairs config module,
      group.2.activeNodes ≠ 0 ∧ node ∈ group.2.nodes := by
    rintro ⟨group, member, _, inGroup⟩
    exact arranged.not_mem_groupNodes own member inGroup
  rw [pgroupReassignChecks_eq, foldl_reassignGroup_current ⟨0, 0⟩
    (fun group member => arranged.nodup_groupNodes member), if_neg noGroup]
  intro group member _ inGroup
  exact absurd inGroup (arranged.not_mem_groupNodes own member)

def inherited (kind : ObjectKind) (config : ModuleConfig ι) (module : ModuleState ι) (node : ι) :
    Nat :=
  (((pairs config module).filter fun group => TakenOver group).map fun group =>
    (kind.tables group.1.tables).inherit (module.ipcGroup.activeNodes - 1) (module.peerId node)).sum

variable (arranged : Arranged config none module)

include arranged

theorem reassign_extra (kind : ObjectKind) :
    kind.count ((pgroupReassignChecks config module).extra node) =
      if node ∈ config.members .ipc ∧ IsActive config module node then
        if module.state node = .connected then (inherited kind config module node : Int) else 0
      else kind.count (module.extra node) := by
  have onlyLoad := resetNodes_onlyLoad config module
  have distinct := arranged.nodup_ipcNodes
  have reset : (resetNodes config module).extra node =
      if node ∈ module.ipcGroup.nodes.take module.ipcGroup.activeNodes then ⟨0, 0⟩
      else module.extra node :=
    foldl_resetNode_extra distinct
  rw [pgroupReassignChecks_eq, foldl_reassignGroup_extra (by rwa [onlyLoad.ipcGroup]), reset,
    onlyLoad.ipcGroup, onlyLoad.state, onlyLoad.peerId]
  simp only [arranged.mem_ipcNodes_iff]
  by_cases own : node ∈ config.members .ipc ∧ IsActive config module node
  · rw [if_pos own, if_pos own, kind.count_zero, Int.zero_add, inherited]
    simp only [own, and_self, true_and]
  · rw [if_neg own, if_neg own, if_neg fun both => own both.1, Int.add_zero]

theorem load_of_inactive (own : node ∈ config.members .ipc)
    (inactive : ¬ IsActive config module node) (kind : ObjectKind) :
    load kind (pgroupReassignChecks config module) node = load kind module node := by
  rw [load, reassign_extra arranged, if_neg fun both => inactive both.2,
    reassign_current_of_ipc arranged own, resetNodes_current arranged,
    if_neg fun both => inactive both.2, load]

theorem load_of_poller {group : PollerGroup ι × GroupState ι}
    (member : group ∈ pairs config module) (inGroup : node ∈ group.2.nodes) (kind : ObjectKind) :
    load kind (pgroupReassignChecks config module) node =
      (if group.2.activeNodes = 0 then kind.count (module.current node)
        else if module.state node ≠ .connected then 0
        else (kind.tables group.1.tables).assign (group.2.activeNodes - 1) (module.peerId node)) +
      kind.count (module.extra node) := by
  have onlyLoad := resetNodes_onlyLoad config module
  have remote : node ∉ config.members .ipc := fun own =>
    arranged.not_mem_groupNodes own member inGroup
  rw [load, reassign_extra arranged, if_neg fun both => remote both.1, pgroupReassignChecks_eq,
    foldl_reassignGroup_current
      (if module.state node ≠ .connected then ⟨0, 0⟩
        else tableCell group.1.tables.hosts.assign group.1.tables.services.assign
          (group.2.activeNodes - 1) (module.peerId node))
      (fun group member => arranged.nodup_groupNodes member)]
  · congr 1
    by_cases dead : group.2.activeNodes = 0
    · rw [if_pos dead, if_neg, resetNodes_current arranged, if_neg fun both => remote both.1]
      rintro ⟨other, memberOther, alive, inOther⟩
      rw [← arranged.pairs_unique member memberOther inGroup inOther] at alive
      exact alive dead
    · rw [if_neg dead, if_pos ⟨group, member, dead, inGroup⟩]
      split
      · exact kind.count_zero
      · exact kind.count_tableCell _ ObjectTables.assign _ _
  · intro other memberOther _ inOther
    rw [← arranged.pairs_unique member memberOther inGroup inOther, onlyLoad.state, onlyLoad.peerId]

end MonitorMerlin
