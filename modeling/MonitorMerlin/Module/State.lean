import Mathlib.Logic.Function.Basic
import MonitorMerlin.Node.Compat
import MonitorMerlin.Pgroup.Basic
import MonitorMerlin.Pgroup.Objects

/-! # The nodes of a module -/

namespace MonitorMerlin

open Tally

universe u

structure PollerGroup (ι : Type u) where
  nodes : List ι
  takeover : Bool
  tables : MappedGroup

structure ModuleConfig (ι : Type u) where
  me : ι
  masters : List ι
  peers : List ι
  pollerGroups : List (PollerGroup ι)
  ipcTables : MappedGroup
  numHosts : Nat
  numServices : Nat
  hostId2pg : List (Option Nat)
  serviceId2pg : List (Option Nat)
  distinct : (me :: (masters ++ peers ++ pollerGroups.flatMap PollerGroup.nodes)).Nodup
  few : (me :: (masters ++ peers ++ pollerGroups.flatMap PollerGroup.nodes)).length < 2 ^ 32

/-- `struct merlin_assigned_objects`. -/
structure AssignedObjects where
  hosts : Int
  services : Int
  deriving DecidableEq, Repr

structure GroupState (ι : Type u) where
  nodes : List ι
  activeNodes : Nat
  deriving DecidableEq, Repr

structure StateWrite (ι : Type u) where
  node : ι
  prev : NodeState
  next : NodeState
  counter : Int
  deriving DecidableEq, Repr

structure TableAccess where
  alloc : Nat
  active : Nat
  peerId : Nat
  deriving DecidableEq, Repr

/-- The state of a module, with its history. -/
structure ModuleState (ι : Type u) where
  state : ι → NodeState
  start : ι → Timeval
  peerId : ι → Nat
  active : NodeType → Nat
  ipcGroup : GroupState ι
  groups : List (GroupState ι)
  current : ι → AssignedObjects
  extra : ι → AssignedObjects
  ipcAssigned : AssignedObjects
  writes : List (StateWrite ι)
  accesses : List TableAccess

namespace ModuleConfig

variable {ι : Type u} (config : ModuleConfig ι)

def pollers : List ι := config.pollerGroups.flatMap PollerGroup.nodes

def nodesOf : NodeType → List ι
  | .master => config.masters
  | .peer => config.peers
  | .poller => config.pollers

variable [DecidableEq ι]

def typeOf (node : ι) : Option NodeType :=
  if node ∈ config.masters then
    some .master
  else if node ∈ config.peers then
    some .peer
  else if node ∈ config.pollers then
    some .poller
  else
    none

end ModuleConfig

inductive GroupRef where
  | ipc
  | poller (index : Nat)
  deriving DecidableEq, Repr

variable {ι : Type u} [DecidableEq ι] (config : ModuleConfig ι)
  (qsort : Sorting.Sorter (PeerNode ι))

def ModuleConfig.pgroup (node : ι) : Option GroupRef :=
  if node = config.me ∨ node ∈ config.peers then
    some .ipc
  else
    (config.pollerGroups.findIdx? fun group => node ∈ group.nodes).map .poller

def tableCell (hosts services : Table) (row index : Nat) : AssignedObjects :=
  ⟨hosts row index, services row index⟩

def AssignedObjects.add (first second : AssignedObjects) : AssignedObjects :=
  ⟨first.hosts + second.hosts, first.services + second.services⟩

def resetNode (module : ModuleState ι) (node : ι) : ModuleState ι :=
  { module with
    extra := Function.update module.extra node ⟨0, 0⟩
    current :=
      Function.update module.current node
        (tableCell config.ipcTables.hosts.assign config.ipcTables.services.assign
          (module.ipcGroup.activeNodes - 1) (module.peerId node))
    accesses :=
      module.accesses ++
        [⟨config.ipcTables.alloc, module.ipcGroup.activeNodes, module.peerId node⟩] }

def inheritNode (tables : MappedGroup) (module : ModuleState ι) (node : ι) : ModuleState ι :=
  if module.state node ≠ .connected then
    module
  else
    { module with
      extra :=
        Function.update module.extra node
          ((module.extra node).add
            (tableCell tables.hosts.inherit tables.services.inherit
              (module.ipcGroup.activeNodes - 1) (module.peerId node)))
      accesses :=
        module.accesses ++ [⟨tables.alloc, module.ipcGroup.activeNodes, module.peerId node⟩] }

def assignNode (tables : MappedGroup) (active : Nat) (module : ModuleState ι) (node : ι) :
    ModuleState ι :=
  if module.state node ≠ .connected then
    { module with current := Function.update module.current node ⟨0, 0⟩ }
  else
    { module with
      current :=
        Function.update module.current node
          (tableCell tables.hosts.assign tables.services.assign (active - 1) (module.peerId node))
      accesses := module.accesses ++ [⟨tables.alloc, active, module.peerId node⟩] }

section

variable (module : ModuleState ι)

def reassignGroup (group : PollerGroup ι × GroupState ι) : ModuleState ι :=
  if group.2.activeNodes = 0 then
    if group.1.takeover = false then
      module
    else
      (module.ipcGroup.nodes.take module.ipcGroup.activeNodes).foldl
        (inheritNode group.1.tables) module
  else
    group.2.nodes.foldl (assignNode group.1.tables group.2.activeNodes)
      { module with
        ipcAssigned :=
          ⟨module.ipcAssigned.hosts - group.1.tables.hosts.assigned,
            module.ipcAssigned.services - group.1.tables.services.assigned⟩ }

/-- `pgroup_reassign_checks`. -/
def pgroupReassignChecks : ModuleState ι :=
  let reset :=
    (module.ipcGroup.nodes.take module.ipcGroup.activeNodes).foldl (resetNode config)
      { module with ipcAssigned := ⟨config.numHosts, config.numServices⟩ }
  (config.pollerGroups.zip module.groups).foldl reassignGroup reset

def ModuleState.peerNode (node : ι) : PeerNode ι :=
  ⟨node, module.state node, module.start node, module.peerId node⟩

def ModuleState.peerGroup (group : GroupState ι) (takeover : Bool)
    (hostIdTable serviceIdTable : Option (List Nat)) : PeerGroup ι :=
  ⟨group.nodes.map module.peerNode, group.activeNodes, takeover, hostIdTable, serviceIdTable⟩

def sortGroup (group : GroupState ι) : GroupState ι × (ι → Nat) :=
  let pg := pgroupAssignPeerIds config.me qsort (module.peerGroup group false none none)
  (⟨pg.nodes.map PeerNode.id, pg.activeNodes⟩, fun node =>
      ((pg.nodes.find? fun other => other.id = node).map PeerNode.peerId).getD (module.peerId node))

/-- `pgroup_assign_peer_ids`. -/
def pgroupAssign : Option GroupRef → ModuleState ι
  | none => module
  | some .ipc =>
    let sorted := sortGroup config qsort module module.ipcGroup
    pgroupReassignChecks config { module with ipcGroup := sorted.1, peerId := sorted.2 }
  | some (.poller index) =>
    match module.groups[index]? with
    | none => module
    | some group =>
      let sorted := sortGroup config qsort module group
      pgroupReassignChecks config
        { module with groups := module.groups.set index sorted.1, peerId := sorted.2 }

def writeState (node : ι) (next : NodeState) : ModuleState ι :=
  let add : Int := if next = .connected then 1 else if module.state node = .connected then -1 else 0
  let counter : Int :=
    match config.typeOf node with
    | none => 0
    | some type => module.active type + add
  { module with
    active :=
      match config.typeOf node with
      | none => module.active
      | some type => Function.update module.active type (counter % 2 ^ 32).toNat
    state := Function.update module.state node next
    writes := module.writes ++ [⟨node, module.state node, next, counter⟩] }

def clearInfo (node : ι) : ModuleState ι :=
  { module with start := Function.update module.start node ⟨0, 0⟩ }

/-- `node_set_state` to `STATE_NONE`. -/
def setNone (node : ι) : ModuleState ι :=
  if module.state node = .none then
    module
  else
    let written := writeState config module node .none
    if module.state node ≠ .connected ∨ node = config.me then
      written
    else
      pgroupAssign config qsort (clearInfo written node) (config.pgroup node)

/-- `node_disconnect`. -/
def nodeDisconnect (node : ι) : ModuleState ι :=
  if node = config.me then
    setNone config qsort module node
  else
    clearInfo (setNone config qsort module node) node

inductive CtrlOutcome where
  | sent
  | failed
  | encryptionFailed
  deriving DecidableEq, Repr

/-- `node_send_ctrl_active`. -/
def nodeSendCtrlActive (node : ι) : CtrlOutcome → ModuleState ι
  | .sent => module
  | .failed => nodeDisconnect config qsort module node
  | .encryptionFailed => nodeDisconnect config qsort (nodeDisconnect config qsort module node) node

/-- `ipc_action_handler`, `node_action_handler`. -/
def nodeAction (node : ι) (prev : NodeState) (outcome : CtrlOutcome) :
    ModuleState ι :=
  if node = config.me then
    if module.state node = prev ∨ module.state node ≠ .connected then
      module
    else
      nodeSendCtrlActive config qsort module node outcome
  else
    match module.state node with
    | .connected => pgroupAssign config qsort module (config.pgroup node)
    | .negotiating => nodeSendCtrlActive config qsort module node outcome
    | .none => pgroupAssign config qsort (clearInfo module node) (config.pgroup node)
    | .pending => module

/-- `node_set_state`. -/
def moduleSetState (node : ι) (next : NodeState)
    (outcome : CtrlOutcome) : ModuleState ι :=
  if module.state node = next then
    module
  else if next ≠ .none ∧ node ≠ config.me ∧ (module.state node).allows next = false then
    nodeDisconnect config qsort module node
  else
    let written := writeState config module node next
    let sent :=
      if next = .negotiating ∧ node ≠ config.me then
        nodeSendCtrlActive config qsort written node outcome
      else
        written
    if sent.state node ≠ .connected ∧ module.state node ≠ .connected then
      sent
    else
      nodeAction config qsort sent node (module.state node) outcome

theorem moduleSetState_none (node : ι) (outcome : CtrlOutcome) :
    moduleSetState config qsort module node .none outcome = setNone config qsort module node := by
  have noneState : (writeState config module node .none).state node = .none :=
    Function.update_self _ _ _
  unfold moduleSetState setNone
  by_cases same : module.state node = .none
  · rw [if_pos same, if_pos same]
  · rw [if_neg same, if_neg same, if_neg (by simp)]
    simp only [reduceCtorEq, false_and, if_false]
    by_cases unconnected : module.state node ≠ .connected
    · rw [if_pos ⟨by rw [noneState]; decide, unconnected⟩, if_pos (.inl unconnected)]
    · rw [if_neg fun both => unconnected both.2]
      unfold nodeAction
      by_cases isLocal : node = config.me
      · rw [if_pos isLocal, if_pos (.inr (by rw [noneState]; decide)), if_pos (.inr isLocal)]
      · rw [if_neg isLocal, noneState, if_neg (not_or.mpr ⟨unconnected, isLocal⟩)]

inductive ModuleCall (ι : Type u) where
  | setState (node : ι) (next : NodeState) (outcome : CtrlOutcome)
  | disconnect (node : ι)
  | setInfo (node : ι) (start : Timeval)
  deriving DecidableEq, Repr

def moduleStep : ModuleCall ι → ModuleState ι
  | .setState node next outcome => moduleSetState config qsort module node next outcome
  | .disconnect node => nodeDisconnect config qsort module node
  | .setInfo node start => { module with start := Function.update module.start node start }

end

def initialModule (ipcState : NodeState) (ipcStart : Timeval) : ModuleState ι where
  state node := if node = config.me then ipcState else .none
  start node := if node = config.me then ipcStart else ⟨0, 0⟩
  peerId _ := 0
  active _ := 0
  ipcGroup := ⟨config.me :: config.peers, 0⟩
  groups := config.pollerGroups.map fun group => ⟨group.nodes, 0⟩
  current _ := ⟨0, 0⟩
  extra _ := ⟨0, 0⟩
  ipcAssigned := ⟨0, 0⟩
  writes := []
  accesses := []

def moduleRun (ipcState : NodeState) (ipcStart : Timeval) (calls : List (ModuleCall ι)) :
    ModuleState ι :=
  calls.foldl (moduleStep config qsort)
    (pgroupAssign config qsort (initialModule config ipcState ipcStart) (some .ipc))

theorem moduleRun_keeps
    {invariant : ModuleState ι → Prop} {ipcState : NodeState} {ipcStart : Timeval}
    {calls : List (ModuleCall ι)}
    (initially :
      invariant (pgroupAssign config qsort (initialModule config ipcState ipcStart) (some .ipc)))
    (step : ∀ module, invariant module → ∀ call ∈ calls,
      invariant (moduleStep config qsort module call)) :
    invariant (moduleRun config qsort ipcState ipcStart calls) :=
  List.foldlRecOn calls (moduleStep config qsort) initially step

end MonitorMerlin
