import MonitorMerlin.Module.Connections
import MonitorMerlin.Pgroup.Order

/-! # Peer groups and calls -/

namespace MonitorMerlin

open List

universe u

variable {ι : Type u}

/-- Connected, or the local node. -/
def IsActive (config : ModuleConfig ι) (module : ModuleState ι) (node : ι) : Prop :=
  node = config.me ∨ module.state node = .connected

instance IsActive.decidable [DecidableEq ι] (config : ModuleConfig ι) (module : ModuleState ι)
    (node : ι) : Decidable (IsActive config module node) :=
  inferInstanceAs (Decidable (_ ∨ _))

section Reference

def ModuleConfig.members (config : ModuleConfig ι) : GroupRef → List ι
  | .ipc => config.me :: config.peers
  | .poller index => (config.pollerGroups[index]?.map PollerGroup.nodes).getD []

def ModuleState.groupAt (module : ModuleState ι) : GroupRef → Option (GroupState ι)
  | .ipc => some module.ipcGroup
  | .poller index => module.groups[index]?

def ModuleState.setGroup (module : ModuleState ι) (group : GroupState ι) :
    GroupRef → ModuleState ι
  | .ipc => { module with ipcGroup := group }
  | .poller index => { module with groups := module.groups.set index group }

variable {config : ModuleConfig ι} {module : ModuleState ι} {group : GroupState ι}
  {ref other : GroupRef} {node : ι}

theorem ModuleState.groupAt_setGroup_self
    (found : module.groupAt ref = some group) (changed : GroupState ι) :
    (module.setGroup changed ref).groupAt ref = some changed := by
  cases ref with
  | ipc => rfl
  | poller index =>
    obtain ⟨within, _⟩ := List.getElem?_eq_some_iff.mp found
    exact getElem?_set_self within

theorem ModuleState.groupAt_setGroup_of_ne (different : other ≠ ref) (changed : GroupState ι) :
    (module.setGroup changed ref).groupAt other = module.groupAt other := by
  cases ref with
  | ipc =>
    cases other with
    | ipc => exact absurd rfl different
    | poller _ => rfl
  | poller index =>
    cases other with
    | ipc => rfl
    | poller otherIndex =>
      apply getElem?_set_ne
      rintro rfl
      exact different rfl

variable {index : Nat}

theorem ModuleConfig.mem_members_poller :
    node ∈ config.members (.poller index) ↔
      ∃ spec, config.pollerGroups[index]? = some spec ∧ node ∈ spec.nodes := by
  simp only [members]
  cases config.pollerGroups[index]? with
  | none | some spec => simp

theorem mem_pollers_of_mem_members (member : node ∈ config.members (.poller index)) :
    node ∈ config.pollers := by
  obtain ⟨spec, found, inSpec⟩ := ModuleConfig.mem_members_poller.mp member
  exact mem_flatMap.mpr ⟨spec, mem_of_getElem? found, inSpec⟩

theorem nodup_members : (config.members ref).Nodup := by
  cases ref with
  | ipc =>
    apply nodup_cons.mpr
    exact ⟨me_not_mem_nodesOf config .peer, nodesOf_nodup config .peer⟩
  | poller index =>
    have distinct : config.pollers.Nodup := nodesOf_nodup config .poller
    simp only [ModuleConfig.members]
    cases found : config.pollerGroups[index]? with
    | none => exact nodup_nil
    | some spec => exact (nodup_flatMap.mp distinct).1 spec (mem_of_getElem? found)

theorem members_poller_unique
    {first second : Nat} (memberFirst : node ∈ config.members (.poller first))
    (memberSecond : node ∈ config.members (.poller second)) : first = second := by
  have distinct : config.pollers.Nodup := nodesOf_nodup config .poller
  have apart := (nodup_flatMap.mp distinct).2
  rw [pairwise_iff_getElem] at apart
  obtain ⟨_, foundFirst, inFirst⟩ := ModuleConfig.mem_members_poller.mp memberFirst
  obtain ⟨_, foundSecond, inSecond⟩ := ModuleConfig.mem_members_poller.mp memberSecond
  obtain ⟨withinFirst, rfl⟩ := List.getElem?_eq_some_iff.mp foundFirst
  obtain ⟨withinSecond, rfl⟩ := List.getElem?_eq_some_iff.mp foundSecond
  rcases Nat.lt_trichotomy first second with less | equal | greater
  · have disjoint := apart first second withinFirst withinSecond less
    exact absurd inSecond (disjoint_left.mp disjoint inFirst)
  · exact equal
  · have disjoint := apart second first withinSecond withinFirst greater
    exact absurd inFirst (disjoint_left.mp disjoint inSecond)

end Reference

section Pgroup

variable [DecidableEq ι] {config : ModuleConfig ι} {qsort : Sorting.Sorter (PeerNode ι)}
  {module : ModuleState ι} {group : GroupState ι} {ref other : GroupRef} {node : ι}

theorem not_mem_pollers (own : node ∈ config.members .ipc) : node ∉ config.pollers := by
  intro inPollers
  rcases mem_cons.mp own with rfl | inPeers
  · exact me_not_mem_nodesOf config .poller inPollers
  · have isPoller : config.typeOf node = some .poller := typeOf_eq_some_iff.mpr inPollers
    exact not_mem_nodesOf isPoller (show NodeType.peer ≠ .poller by decide) inPeers

theorem pgroup_eq_some_iff : config.pgroup node = some ref ↔ node ∈ config.members ref := by
  unfold ModuleConfig.pgroup
  by_cases own : node = config.me ∨ node ∈ config.peers
  · rw [if_pos own]
    cases ref with
    | ipc => exact iff_of_true rfl (mem_cons.mpr own)
    | poller index =>
      apply iff_of_false (by simp)
      intro member
      exact not_mem_pollers (mem_cons.mpr own) (mem_pollers_of_mem_members member)
  · rw [if_neg own, Option.map_eq_some_iff]
    cases ref with
    | ipc =>
      apply iff_of_false (by simp)
      exact fun member => own (mem_cons.mp member)
    | poller index =>
      have atIndex (first : Nat)
          (search : config.pollerGroups.findIdx? (fun spec => node ∈ spec.nodes) = some first) :
          node ∈ config.members (.poller first) := by
        obtain ⟨within, member, _⟩ := findIdx?_eq_some_iff_getElem.mp search
        exact ModuleConfig.mem_members_poller.mpr
          ⟨_, getElem?_eq_getElem within, of_decide_eq_true member⟩
      constructor
      · rintro ⟨first, search, same⟩
        cases same
        exact atIndex index search
      · intro member
        cases search : config.pollerGroups.findIdx? fun spec => node ∈ spec.nodes with
        | none =>
          obtain ⟨spec, found, inSpec⟩ := ModuleConfig.mem_members_poller.mp member
          have notIn := findIdx?_eq_none_iff.mp search spec (mem_of_getElem? found)
          exact absurd inSpec (of_decide_eq_false notIn)
        | some first =>
          rw [members_poller_unique member (atIndex first search)]
          exact ⟨first, rfl, rfl⟩

theorem members_apart (different : other ≠ ref) (member : node ∈ config.members other) :
    node ∉ config.members ref := by
  rw [← pgroup_eq_some_iff] at member ⊢
  rw [member]
  exact fun same => different (Option.some.inj same)

theorem pgroupAssign_eq (found : module.groupAt ref = some group) :
    pgroupAssign config qsort module (some ref) =
      pgroupReassignChecks config
        (ModuleState.setGroup { module with peerId := (sortGroup config qsort module group).2 }
          (sortGroup config qsort module group).1 ref) := by
  cases ref with
  | ipc =>
    cases found
    rfl
  | poller index => exact pgroupAssign_poller found

theorem pgroupAssign_none (missing : module.groupAt ref = none) :
    pgroupAssign config qsort module (some ref) = module := by
  cases ref with
  | ipc => cases missing
  | poller index =>
    simp only [ModuleState.groupAt] at missing
    simp only [pgroupAssign, missing]

end Pgroup

section Untouched

variable {fits : Prop}

structure Untouched (fits : Prop) (before after : ModuleState ι) : Prop where
  ipcGroup : after.ipcGroup = before.ipcGroup
  groups : after.groups = before.groups
  peerId : after.peerId = before.peerId
  current : after.current = before.current
  extra : after.extra = before.extra
  accesses : after.accesses = before.accesses
  starts : (∀ node, (before.start node).Bounded) → fits → ∀ node, (after.start node).Bounded

theorem Untouched.refl (module : ModuleState ι) : Untouched fits module module :=
  ⟨rfl, rfl, rfl, rfl, rfl, rfl, fun starts _ => starts⟩

theorem Untouched.trans
    {first second third : ModuleState ι}
    (early : Untouched fits first second) (late : Untouched fits second third) :
    Untouched fits first third where
  ipcGroup := late.ipcGroup.trans early.ipcGroup
  groups := late.groups.trans early.groups
  peerId := late.peerId.trans early.peerId
  current := late.current.trans early.current
  extra := late.extra.trans early.extra
  accesses := late.accesses.trans early.accesses
  starts := fun bounded fit => late.starts (early.starts bounded fit) fit

end Untouched

section Definitions

def ModuleCall.Fits : ModuleCall ι → Prop
  | .setState _ _ _ => True
  | .disconnect _ => True
  | .setInfo _ start => start.Bounded

def ModuleCall.Toggles (config : ModuleConfig ι) (module : ModuleState ι) (node : ι) :
    ModuleCall ι → Prop
  | .setState target next _ => target = node ∧ node ≠ config.me ∧
      if module.state node = .connected then next ≠ .connected
      else next = .connected ∧ (module.state node).allows next = true
  | .disconnect target => target = node ∧ node ≠ config.me ∧ module.state node = .connected
  | .setInfo _ _ => False

structure Quiet (config : ModuleConfig ι) (fits : Prop) (before after : ModuleState ι) : Prop
    extends Untouched fits before after where
  active : ∀ node, IsActive config after node ↔ IsActive config before node

structure Flips (config : ModuleConfig ι) (fits : Prop) (node : ι) (before after : ModuleState ι) :
    Prop extends Untouched fits before after where
  ipcState : after.state config.me = before.state config.me
  flipped : IsActive config after node ↔ ¬ IsActive config before node
  others : ∀ other, other ≠ node → (IsActive config after other ↔ IsActive config before other)

variable {config : ModuleConfig ι} {fits : Prop}

theorem Quiet.refl (module : ModuleState ι) : Quiet config fits module module :=
  ⟨.refl module, fun _ => Iff.rfl⟩

theorem Quiet.trans {first second third : ModuleState ι}
    (early : Quiet config fits first second) (late : Quiet config fits second third) :
    Quiet config fits first third :=
  ⟨early.toUntouched.trans late.toUntouched,
    fun node => (late.active node).trans (early.active node)⟩

variable {module : ModuleState ι}

theorem toggles_setState_iff {node other : ι} {next : NodeState} {outcome : CtrlOutcome} :
    (ModuleCall.setState node next outcome).Toggles config module other ↔
      node = other ∧ node ≠ config.me ∧
        ((module.state node = .connected ∧ next ≠ .connected) ∨
          (module.state node ≠ .connected ∧ next = .connected ∧
            (module.state node).allows .connected = true)) := by
  unfold ModuleCall.Toggles
  constructor
  · rintro ⟨rfl, remote, changes⟩
    split at changes
    · exact ⟨rfl, remote, .inl ⟨by assumption, changes⟩⟩
    · obtain ⟨rfl, allows⟩ := changes
      exact ⟨rfl, remote, .inr ⟨by assumption, rfl, allows⟩⟩
  · rintro ⟨rfl, remote, ⟨connected, leaves⟩ | ⟨unconnected, rfl, allows⟩⟩
    · exact ⟨rfl, remote, by rwa [if_pos connected]⟩
    · exact ⟨rfl, remote, by rw [if_neg unconnected]; exact ⟨rfl, allows⟩⟩

theorem toggles_unique {call : ModuleCall ι} {first second : ι}
    (togglesFirst : call.Toggles config module first)
    (togglesSecond : call.Toggles config module second) : first = second := by
  cases call with
  | setState node next outcome | disconnect node => exact togglesFirst.1.symm.trans togglesSecond.1
  | setInfo node start => cases togglesFirst

end Definitions

variable [DecidableEq ι]

instance ModuleCall.Toggles.decidable (config : ModuleConfig ι) (module : ModuleState ι) (node : ι)
    (call : ModuleCall ι) : Decidable (call.Toggles config module node) :=
  match call with
  | .setState _ _ _ => inferInstanceAs (Decidable (_ ∧ _ ∧ ite _ _ _))
  | .disconnect _ => inferInstanceAs (Decidable (_ ∧ _ ∧ _))
  | .setInfo _ _ => inferInstanceAs (Decidable False)

inductive StepResult
    (config : ModuleConfig ι) (qsort : Sorting.Sorter (PeerNode ι)) (module : ModuleState ι)
    (call : ModuleCall ι) : ModuleState ι → Prop
  | quiet {after : ModuleState ι} (untoggled : ∀ node, ¬ call.Toggles config module node)
      (quiet : Quiet config call.Fits module after) :
      StepResult config qsort module call after
  | sorts {node : ι} {changed : ModuleState ι} (toggles : call.Toggles config module node)
      (flips : Flips config call.Fits node module changed) :
      StepResult config qsort module call (pgroupAssign config qsort changed (config.pgroup node))

variable {config : ModuleConfig ι} {qsort : Sorting.Sorter (PeerNode ι)}
  {module after : ModuleState ι} {node : ι} {next : NodeState} {outcome : CtrlOutcome}
  {fits : Prop}

theorem update_bounded
    {start : ι → Timeval} {time : Timeval} (starts : ∀ node, (start node).Bounded)
    (bounded : time.Bounded) (node other : ι) :
    (Function.update start node time other).Bounded := by
  by_cases same : other = node
  · rw [same, Function.update_self]
    exact bounded
  · rw [Function.update_of_ne same]
    exact starts other

theorem clearInfo_untouched (module : ModuleState ι) (node : ι) :
    Untouched fits module (clearInfo module node) :=
  ⟨rfl, rfl, rfl, rfl, rfl, rfl, fun starts _ => update_bounded starts Timeval.bounded_zero node⟩

theorem writeState_untouched (module : ModuleState ι) (node : ι) (next : NodeState) :
    Untouched fits module (writeState config module node next) :=
  ⟨rfl, rfl, rfl, rfl, rfl, rfl, fun starts _ => starts⟩

theorem writeState_quiet
    (same : node = config.me ∨ (next = .connected ↔ module.state node = .connected)) :
    Quiet config fits module (writeState config module node next) := by
  apply Quiet.mk (writeState_untouched module node next)
  intro other
  unfold IsActive
  rw [writeState_state]
  by_cases isNode : other = node
  · rw [isNode, Function.update_self]
    rcases same with isLocal | sameConnected
    · exact iff_of_true (.inl isLocal) (.inl isLocal)
    · rw [sameConnected]
  · rw [Function.update_of_ne isNode]

theorem writeState_flips
    (remote : node ≠ config.me) (flips : next = .connected ↔ ¬ module.state node = .connected) :
    Flips config fits node module (writeState config module node next) := by
  apply Flips.mk (writeState_untouched module node next)
  · rw [writeState_state, Function.update_of_ne remote.symm]
  · rw [IsActive, writeState_state, Function.update_self, or_iff_right remote, IsActive,
      or_iff_right remote]
    exact flips
  · intro other different
    rw [IsActive, writeState_state, Function.update_of_ne different, IsActive]

section

variable (inert : module.state node ≠ .connected ∨ node = config.me)

include inert

theorem setNone_quiet : Quiet config fits module (setNone config qsort module node) := by
  unfold setNone
  rw [if_pos inert]
  split
  · exact .refl module
  · apply writeState_quiet
    rcases inert with unconnected | isLocal
    · exact .inr (iff_of_false (by decide) unconnected)
    · exact .inl isLocal

theorem nodeDisconnect_quiet :
    Quiet config fits module (nodeDisconnect config qsort module node) := by
  unfold nodeDisconnect
  split
  · exact setNone_quiet inert
  · exact (setNone_quiet inert).trans ⟨clearInfo_untouched _ node, fun _ => Iff.rfl⟩

theorem nodeSendCtrlActive_quiet (outcome : CtrlOutcome) :
    Quiet config fits module (nodeSendCtrlActive config qsort module node outcome) := by
  cases outcome with
  | sent => exact .refl module
  | failed => exact nodeDisconnect_quiet inert
  | encryptionFailed =>
    apply (nodeDisconnect_quiet inert).trans
    apply nodeDisconnect_quiet
    apply Or.inl
    rw [nodeDisconnect_state, Function.update_self]
    decide

end

theorem clearedState_flips
    (connected : module.state node = .connected) (remote : node ≠ config.me) :
    Flips config fits node module (clearInfo (writeState config module node .none) node) := by
  have written : Flips config fits node module (writeState config module node .none) :=
    writeState_flips remote (iff_of_false (by decide) (not_not.mpr connected))
  exact ⟨written.toUntouched.trans (clearInfo_untouched _ node), written.ipcState, written.flipped,
    written.others⟩

variable {call : ModuleCall ι}

theorem setNone_sorts (connected : module.state node = .connected)
    (toggles : call.Toggles config module node) (remote : node ≠ config.me) :
    StepResult config qsort module call (setNone config qsort module node) := by
  have sorted : setNone config qsort module node =
      pgroupAssign config qsort (clearInfo (writeState config module node .none) node)
        (config.pgroup node) := by
    unfold setNone
    rw [if_neg (by rw [connected]; decide), if_neg (not_or.mpr ⟨not_not.mpr connected, remote⟩)]
  rw [sorted]
  exact .sorts toggles (clearedState_flips connected remote)

theorem pgroupAssign_start (module : ModuleState ι) (group : Option GroupRef) :
    (pgroupAssign config qsort module group).start = module.start := by
  rcases group with _ | ref
  · rfl
  · cases found : module.groupAt ref with
    | none => rw [pgroupAssign_none found]
    | some group =>
      rw [pgroupAssign_eq found, (pgroupReassignChecks_onlyLoad config _).start]
      cases ref <;> rfl

theorem nodeDisconnect_eq_setNone (connected : module.state node = .connected) :
    nodeDisconnect config qsort module node = setNone config qsort module node := by
  unfold nodeDisconnect
  split
  · rfl
  · rename_i remote
    have cleared : (setNone config qsort module node).start node = ⟨0, 0⟩ := by
      unfold setNone
      rw [if_neg (by rw [connected]; decide), if_neg (not_or.mpr ⟨not_not.mpr connected, remote⟩),
        pgroupAssign_start]
      exact Function.update_self _ _ _
    rw [clearInfo, ← cleared, Function.update_eq_self]

theorem nodeDisconnect_result (toggles : module.state node = .connected → node ≠ config.me →
      call.Toggles config module node)
    (untoggled : (module.state node ≠ .connected ∨ node = config.me) →
      ∀ other, ¬ call.Toggles config module other) :
    StepResult config qsort module call (nodeDisconnect config qsort module node) := by
  by_cases inert : module.state node ≠ .connected ∨ node = config.me
  · exact .quiet (untoggled inert) (nodeDisconnect_quiet inert)
  · obtain ⟨connected, remote⟩ := not_or.mp inert
    rw [not_not] at connected
    rw [nodeDisconnect_eq_setNone connected]
    exact setNone_sorts connected (toggles connected remote) remote

theorem moduleSetState_stepResult
    (result : SetStateResult config qsort module node outcome next after) :
    StepResult config qsort module (.setState node next outcome) after := by
  have untoggled (keeps : node = config.me ∨ (next = .connected ↔ module.state node = .connected)) :
      ∀ other, ¬ (ModuleCall.setState node next outcome).Toggles config module other := by
    intro other toggles
    obtain ⟨_, remote, changes⟩ := toggles_setState_iff.mp toggles
    rcases keeps with isLocal | same
    · exact remote isLocal
    · rcases changes with ⟨connected, leaves⟩ | ⟨unconnected, joins, _⟩
      · exact leaves (same.mpr connected)
      · exact unconnected (same.mp joins)
  cases result with
  | same same => exact .quiet (untoggled (.inr (by rw [same]))) (.refl module)
  | forbidden remote changes notAllowed =>
    apply nodeDisconnect_result
    · intro connected _
      rw [connected] at changes
      exact toggles_setState_iff.mpr ⟨rfl, remote, .inl ⟨connected, changes.symm⟩⟩
    · intro inert other toggles
      obtain ⟨_, _, ⟨connected, _⟩ | ⟨_, rfl, allows⟩⟩ := toggles_setState_iff.mp toggles
      · exact inert.elim (fun unconnected => unconnected connected) remote
      · rw [allows] at notAllowed
        cases notAllowed
  | none =>
    by_cases inert : module.state node ≠ .connected ∨ node = config.me
    · apply StepResult.quiet _ (setNone_quiet inert)
      apply untoggled
      rcases inert with unconnected | isLocal
      · exact .inr (iff_of_false (by decide) unconnected)
      · exact .inl isLocal
    · obtain ⟨connected, remote⟩ := not_or.mp inert
      rw [not_not] at connected
      apply setNone_sorts connected _ remote
      exact toggles_setState_iff.mpr ⟨rfl, remote, .inl ⟨connected, by decide⟩⟩
  | pending remote prev =>
    have same : NodeState.pending = .connected ↔ module.state node = .connected := by
      rw [prev]
      decide
    exact .quiet (untoggled (.inr same)) (writeState_quiet (.inr same))
  | negotiating remote prev =>
    have same : NodeState.negotiating = .connected ↔ module.state node = .connected := by
      rcases prev with prev | prev <;> rw [prev] <;> decide
    apply StepResult.quiet (untoggled (.inr same))
    apply (writeState_quiet (.inr same)).trans
    apply nodeSendCtrlActive_quiet
    exact .inl (by rw [writeState_state, Function.update_self]; decide)
  | connected remote prev =>
    have unconnected : module.state node ≠ .connected := by
      rcases prev with prev | prev <;> rw [prev] <;> decide
    have allows := (NodeState.allows_connected_iff _).mpr prev
    apply StepResult.sorts
    · exact toggles_setState_iff.mpr ⟨rfl, remote, .inr ⟨unconnected, rfl, allows⟩⟩
    · exact writeState_flips remote (iff_of_true rfl unconnected)
  | localUnconnected isLocal changes =>
    exact .quiet (untoggled (.inl isLocal)) (writeState_quiet (.inl isLocal))
  | localConnected isLocal changes =>
    apply StepResult.quiet (untoggled (.inl isLocal))
    apply (writeState_quiet (.inl isLocal)).trans
    exact nodeSendCtrlActive_quiet (.inr isLocal) outcome

theorem moduleStep_result (module : ModuleState ι) (call : ModuleCall ι) :
    StepResult config qsort module call (moduleStep config qsort module call) := by
  cases call with
  | setState node next outcome =>
    exact moduleSetState_stepResult (moduleSetState_result module node next outcome)
  | disconnect node =>
    apply nodeDisconnect_result
    · exact fun connected remote => ⟨rfl, remote, connected⟩
    · rintro inert other ⟨rfl, remote, connected⟩
      exact inert.elim (fun unconnected => unconnected connected) remote
  | setInfo node start =>
    apply StepResult.quiet
    · intro other toggles
      exact toggles
    · exact ⟨⟨rfl, rfl, rfl, rfl, rfl, rfl, fun starts bounded =>
        update_bounded starts bounded node⟩, fun _ => Iff.rfl⟩

end MonitorMerlin
