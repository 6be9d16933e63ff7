import MonitorMerlin.Pgroup.Hostgroups
import MonitorMerlin.Tiers.Sending

/-! # Who gets an event -/

namespace MonitorMerlin

open Grouping List

universe u

structure CfgVar where
  key : String
  value : Option (List Char)
  deriving DecidableEq, Repr

structure CfgComp where
  name : List Char
  vars : List CfgVar
  nested : List String
  deriving DecidableEq, Repr

structure NodeChecks where
  otherVar : NodeType → String → List Char → Bool
  confsync : CfgComp → Bool

structure ConfiguredNode where
  type : NodeType
  hostgroups : List (List Char)
  deriving DecidableEq, Repr

inductive CompoundKind where
  | skipped
  | node (type : NodeType)
  | unknown
  deriving DecidableEq, Repr

def compoundKind (name : List Char) : CompoundKind :=
  if "module".toList.isPrefixOf name ∨ "test".toList.isPrefixOf name then
    .skipped
  else if "daemon".toList.isPrefixOf name then
    .skipped
  else if "poller".toList.isPrefixOf name ∨ "slave".toList.isPrefixOf name then
    .node .poller
  else if "peer".toList.isPrefixOf name then
    .node .peer
  else if "noc".toList.isPrefixOf name ∨ "master".toList.isPrefixOf name then
    .node .master
  else
    .unknown

def grokVars (checks : NodeChecks) (type : NodeType) : List CfgVar → Option (List (List Char))
  | [] => some []
  | v :: vars =>
    v.value.bind fun value =>
      if type ≠ .master ∧ (v.key = "hostgroup" ∨ v.key = "hostgroups") then
        (grokVars checks type vars).map fun hostgroups => value :: hostgroups
      else if checks.otherVar type v.key value then
        grokVars checks type vars
      else
        none

/-- `grok_node`. -/
def grokNode (checks : NodeChecks) (type : NodeType) (c : CfgComp) : Option ConfiguredNode :=
  (grokVars checks type c.vars).bind fun hostgroups =>
    if ∀ name ∈ c.nested, name = "object_config" ∧ checks.confsync c ∨ name = "sync" then
      if type = .poller ∧ hostgroups = [] then none else some ⟨type, hostgroups⟩
    else
      none

/-- `node_grok_config`. -/
def nodeGrokConfig (checks : NodeChecks) : List CfgComp → Option (List ConfiguredNode)
  | [] => some []
  | c :: config =>
    match compoundKind c.name with
    | .skipped => nodeGrokConfig checks config
    | .unknown => none
    | .node type =>
      (grokNode checks type c).bind fun node =>
        (nodeGrokConfig checks config).map fun nodes => node :: nodes

def ConfiguredNode.selectionNames (node : ConfiguredNode) : List String :=
  node.hostgroups.flatMap addSelectionNames

def listingsFrom : (position : Nat) → List ConfiguredNode → List (String × Nat)
  | _, [] => []
  | position, node :: nodes =>
    node.selectionNames.map (fun name => (name, position)) ++ listingsFrom (position + 1) nodes

/-- `create_node_tree`, for a type. -/
def nodesOfType (nodes : List ConfiguredNode) (type : NodeType) : List Nat :=
  (List.range nodes.length).filter fun position =>
    nodes[position]?.map ConfiguredNode.type = some type

def configuredNeighbours (nodes : List ConfiguredNode) : Neighbours Nat where
  masters := nodesOfType nodes .master
  peers := nodesOfType nodes .peer
  pollers := nodesOfType nodes .poller
  listings := listingsFrom 0 nodes

def magicNonet : Nat := 0xffff
def ctrlGeneric : Nat := 0

structure OutgoingEvent where
  type : Nat
  code : Nat
  selection : Nat
  bound : selection < 2 ^ 16
  daemonWants : Bool
  encodes : Bool
  isDupe : Bool

def OutgoingEvent.IsGeneral (pkt : OutgoingEvent) : Prop :=
  pkt.selection = ctrlGeneric ∧ pkt.type = ctrlPacket

instance (pkt : OutgoingEvent) : Decidable pkt.IsGeneral := inferInstanceAs (Decidable (_ ∧ _))

structure OutgoingEvent.Leaves (pkt : OutgoingEvent) : Prop where
  encodes : pkt.encodes = true
  noDupe : pkt.isDupe = false
  net : pkt.code ≠ magicNonet

namespace Neighbours

variable {ι : Type u} (node : Neighbours ι)

/-- `nodes_by_sel_id`. -/
def nodesBySelIdIn (selection : Nat) : Option (List ι) :=
  if node.selections.length < selection then
    some []
  else
    node.selections[selection]?.map NodeSelection.nodes

def routeEvent (pkt : OutgoingEvent) : Option (List ι) :=
  if Selects pkt.selection destMagic then
    some ((if Selects pkt.selection destMasters then node.masters else []) ++
      (if Selects pkt.selection destPeers then node.peers else []) ++
      (if Selects pkt.selection destPollers then node.pollers else []))
  else if pkt.IsGeneral then
    some (node.masters ++ node.peers ++ node.pollers)
  else if node.pollers = [] then
    some (node.masters ++ node.peers)
  else
    (node.nodesBySelIdIn pkt.selection).map fun selected => node.masters ++ node.peers ++ selected

/-- The recipients of `send_generic`. -/
def sendGenericTo (pkt : OutgoingEvent) : Option (List ι) :=
  let nodeTable := node.masters ++ node.peers ++ node.pollers
  if (nodeTable = [] ∨ pkt.code = magicNonet) ∧ pkt.daemonWants = false then
    some []
  else if pkt.encodes = false then
    some []
  else if pkt.isDupe = true then
    some []
  else if nodeTable = [] then
    some []
  else if pkt.code = magicNonet then
    some []
  else
    node.routeEvent pkt

theorem nodesBySelIdIn_eq
    {node : Neighbours ι} {selection : Nat} (known : selection ≠ node.selections.length) :
    node.nodesBySelIdIn selection = some (node.nodesBySelId selection) := by
  rw [nodesBySelIdIn, nodesBySelId]
  split_ifs with beyond
  · rw [getElem?_eq_none (Nat.le_of_lt beyond)]
    rfl
  · have within : selection < node.selections.length := by omega
    rw [getElem?_eq_getElem within]
    rfl

theorem nodesBySelIdIn_length : node.nodesBySelIdIn node.selections.length = none := by
  rw [nodesBySelIdIn, if_neg (Nat.lt_irrefl _), getElem?_eq_none (Nat.le_refl _)]
  rfl

variable {node} {pkt : OutgoingEvent}

theorem sendGenericTo_of_leaves
    (leaves : pkt.Leaves) : node.sendGenericTo pkt = node.routeEvent pkt := by
  have encodes : ¬ pkt.encodes = false := by
    rw [leaves.encodes]
    decide
  have noDupe : ¬ pkt.isDupe = true := by
    rw [leaves.noDupe]
    decide
  rw [sendGenericTo]
  by_cases none : node.masters ++ node.peers ++ node.pollers = []
  · have nothing : node.routeEvent pkt = some [] := by
      simp only [append_eq_nil_iff] at none
      simp [routeEvent, none.1.1, none.1.2, none.2]
    simp only [none, true_or, true_and, encodes, noDupe, ite_self, nothing]
  · simp only [none, leaves.net, or_self, false_and, if_false, if_neg encodes, if_neg noDupe]

theorem routeEvent_eq (special : ¬ pkt.IsGeneral)
    (known : node.pollers = [] ∨ pkt.selection ≠ node.selections.length) :
    node.routeEvent pkt = some (node.sendGeneric pkt.selection) := by
  rw [routeEvent, sendGeneric]
  by_cases magic : Selects pkt.selection destMagic
  · rw [if_pos magic, if_pos magic]
  · rw [if_neg magic, if_neg special, if_neg magic]
    split_ifs with none
    · rw [append_nil]
    · rw [nodesBySelIdIn_eq (known.resolve_left none), Option.map_some]

end Neighbours

section Tables

variable {nodes : List ConfiguredNode} {position : Nat}

theorem mem_nodesOfType {type : NodeType} :
    position ∈ nodesOfType nodes type ↔
      ∃ node, nodes[position]? = some node ∧ node.type = type := by
  rw [nodesOfType, mem_filter, mem_range, decide_eq_true_iff, Option.map_eq_some_iff]
  constructor
  · exact fun found => found.2
  · rintro ⟨node, isNode, isType⟩
    exact ⟨(List.getElem?_eq_some_iff.mp isNode).1, node, isNode, isType⟩

theorem nodup_nodesOfType (nodes : List ConfiguredNode) (type : NodeType) :
    (nodesOfType nodes type).Nodup := List.nodup_range.filter _

variable {node : ConfiguredNode}

theorem count_nodesOfType (isNode : nodes[position]? = some node) (type : NodeType) :
    (nodesOfType nodes type).count position = if node.type = type then 1 else 0 := by
  split_ifs with isType
  · exact count_eq_one_of_mem (nodup_nodesOfType nodes type)
      (mem_nodesOfType.mpr ⟨node, isNode, isType⟩)
  · apply count_eq_zero_of_not_mem
    intro member
    obtain ⟨other, isOther, otherType⟩ := mem_nodesOfType.mp member
    cases isNode.symm.trans isOther
    exact isType otherType

theorem le_of_mem_listingsFrom
    {start : Nat} {listing : String × Nat} (member : listing ∈ listingsFrom start nodes) :
    start ≤ listing.2 := by
  induction nodes generalizing start with
  | nil => cases member
  | cons node nodes ih =>
    rw [listingsFrom, mem_append] at member
    rcases member with here | later
    · obtain ⟨name, _, rfl⟩ := mem_map.mp here
      exact Nat.le_refl _
    · exact Nat.le_of_succ_le (ih later)

theorem count_listingsFrom (name : String) (start : Nat) :
    (listingsFrom start nodes).count (name, start + position) =
      (nodes[position]?.map fun node => node.selectionNames.count name).getD 0 := by
  induction nodes generalizing start position with
  | nil => rfl
  | cons node nodes ih =>
    rw [listingsFrom, count_append]
    cases position with
    | zero =>
      have later : (listingsFrom (start + 1) nodes).count (name, start + 0) = 0 := by
        apply count_eq_zero_of_not_mem
        intro member
        have bound := le_of_mem_listingsFrom member
        simp at bound
      rw [later, Nat.add_zero, Nat.add_zero,
        count_map_of_injective _ (fun name => (name, start))
          (fun _ _ same => (Prod.mk.inj same).1)]
      rfl
    | succ position =>
      have here : (node.selectionNames.map fun name => (name, start)).count
          (name, start + (position + 1)) = 0 := by
        apply count_eq_zero_of_not_mem
        intro member
        obtain ⟨_, _, same⟩ := mem_map.mp member
        have positions := (Prod.mk.inj same).2
        omega
      rw [here, Nat.zero_add, show start + (position + 1) = start + 1 + position by omega,
        ih, getElem?_cons_succ]

variable {selection : NodeSelection Nat} {id : Nat}

theorem count_selection (found : (configuredNeighbours nodes).selections[id]? = some selection)
    (isNode : nodes[position]? = some node) :
    selection.nodes.count position = node.selectionNames.count selection.name := by
  have collected : (configuredNeighbours nodes).selections =
      selectionCollector.collect (listingsFrom 0 nodes) := by
    simp only [Neighbours.selections, configuredNeighbours, selectionTable, Collector.collect,
      addOneSelection_eq_insert]
  rw [collected] at found
  have items := Collector.collect_items (c := selectionCollector) NodeSelection.nodes
    (fun _ _ => rfl) (fun _ _ => rfl) (listingsFrom 0 nodes) selection (mem_of_getElem? found)
  have counted := @count_listingsFrom nodes position selection.name 0
  rw [items, Collector.count_itemsOf]
  rw [Nat.zero_add, isNode] at counted
  exact counted

theorem exists_node_of_mem_selection
    (found : (configuredNeighbours nodes).selections[id]? = some selection)
    (member : position ∈ selection.nodes) : ∃ node, nodes[position]? = some node := by
  have listed := mem_listings_of_mem_selectionTable (mem_of_getElem? found) member
  have counted := @count_listingsFrom nodes position selection.name 0
  rw [Nat.zero_add] at counted
  have positive := count_pos_iff.mpr listed
  cases isNode : nodes[position]? with
  | none =>
    rw [isNode] at counted
    exact absurd counted (Nat.ne_of_gt positive)
  | some node => exact ⟨node, rfl⟩

theorem nodup_iff_count
    {receivers : List Nat} (known : ∀ receiver ∈ receivers, ∃ node, nodes[receiver]? = some node) :
    receivers.Nodup ↔
      ∀ position node, nodes[position]? = some node → receivers.count position ≤ 1 := by
  rw [nodup_iff_count_le_one]
  constructor
  · exact fun once position _ _ => once position
  · intro once position
    by_cases member : position ∈ receivers
    · obtain ⟨node, isNode⟩ := known position member
      exact once position node isNode
    · rw [count_eq_zero_of_not_mem member]
      exact Nat.zero_le 1

theorem nodeTable_nodup (nodes : List ConfiguredNode) :
    (nodesOfType nodes .master ++ nodesOfType nodes .peer ++ nodesOfType nodes .poller).Nodup := by
  apply (nodup_iff_count _).mpr
  · intro position node isNode
    rw [count_append, count_append, count_nodesOfType isNode, count_nodesOfType isNode,
      count_nodesOfType isNode]
    cases node.type <;> decide
  · intro receiver member
    rw [mem_append, mem_append, mem_nodesOfType, mem_nodesOfType, mem_nodesOfType] at member
    rcases member with (⟨node, isNode, _⟩ | ⟨node, isNode, _⟩) | ⟨node, isNode, _⟩ <;>
      exact ⟨node, isNode⟩

end Tables

def typeBit : NodeType → Nat
  | .poller => 1
  | .peer => 2
  | .master => 3

def DeliveredOnce (nodes : List ConfiguredNode) (pkt : OutgoingEvent) : Prop :=
  ∃ receivers, (configuredNeighbours nodes).sendGenericTo pkt = some receivers ∧
    receivers.Nodup ∧
    (Selects pkt.selection destMagic → ∀ receiver, receiver ∈ receivers ↔
      ∃ node, nodes[receiver]? = some node ∧ pkt.selection.testBit (typeBit node.type) = true) ∧
    (¬ Selects pkt.selection destMagic → ¬ pkt.IsGeneral →
      ∀ selection, (configuredNeighbours nodes).selections[pkt.selection]? = some selection →
        ∀ receiver, receiver ∈ receivers ↔ ∃ node, nodes[receiver]? = some node ∧
          (node.type = .poller → selection.name ∈ node.selectionNames))

def HostgroupNamedOnce (nodes : List ConfiguredNode) (name : String) : Prop :=
  ∀ node ∈ nodes, (node.type = .peer → name ∉ node.selectionNames) ∧
    (node.type = .poller → node.selectionNames.count name ≤ 1)

def EntryNamedOnce (nodes : List ConfiguredNode) (id : Nat) : Option (NodeSelection Nat) → Prop
  | none => id ≠ (configuredNeighbours nodes).selections.length
  | some selection => HostgroupNamedOnce nodes selection.name

def NamedOnce (nodes : List ConfiguredNode) (pkt : OutgoingEvent) : Prop :=
  Selects pkt.selection destMagic ∨ pkt.IsGeneral ∨
    (∀ node ∈ nodes, node.type ≠ .poller) ∨
    EntryNamedOnce nodes pkt.selection (configuredNeighbours nodes).selections[pkt.selection]?

instance (nodes : List ConfiguredNode) (name : String) :
    Decidable (HostgroupNamedOnce nodes name) :=
  inferInstanceAs (Decidable (∀ node ∈ nodes, _ ∧ _))

instance (nodes : List ConfiguredNode) (id : Nat) (entry : Option (NodeSelection Nat)) :
    Decidable (EntryNamedOnce nodes id entry) :=
  match entry with
  | none => inferInstanceAs (Decidable (_ ≠ _))
  | some selection => inferInstanceAs (Decidable (HostgroupNamedOnce nodes selection.name))

instance (nodes : List ConfiguredNode) (pkt : OutgoingEvent) : Decidable (NamedOnce nodes pkt) :=
  inferInstanceAs (Decidable (_ ∨ _ ∨ _ ∨ _))

section Delivered

variable {nodes : List ConfiguredNode} {pkt : OutgoingEvent}

theorem selects_dest_iff
    {selection : Nat} (bound : selection < 2 ^ 16) (magic : Selects selection destMagic) :
    (Selects selection destMasters ↔ selection.testBit (typeBit .master) = true) ∧
      (Selects selection destPeers ↔ selection.testBit (typeBit .peer) = true) ∧
      (Selects selection destPollers ↔ selection.testBit (typeBit .poller) = true) := by
  have large := (selects_destMagic_iff bound).mp magic
  unfold destMagic at large
  interval_cases selection <;> decide

variable {receiver : Nat}

theorem mem_ite_nodesOfType {condition : Prop} [Decidable condition] {type : NodeType} :
    receiver ∈ (if condition then nodesOfType nodes type else []) ↔
      condition ∧ ∃ node, nodes[receiver]? = some node ∧ node.type = type := by
  split_ifs with holds
  · rw [mem_nodesOfType, and_iff_right holds]
  · exact iff_of_false not_mem_nil fun both => holds both.1

theorem deliveredOnce_of_magic (leaves : pkt.Leaves) (magic : Selects pkt.selection destMagic) :
    DeliveredOnce nodes pkt := by
  obtain ⟨masters, peers, pollers⟩ := selects_dest_iff pkt.bound magic
  refine ⟨_, by rw [Neighbours.sendGenericTo_of_leaves leaves, Neighbours.routeEvent,
    if_pos magic], ?_, ?_, fun ordinary => absurd magic ordinary⟩
  · refine (nodeTable_nodup nodes).sublist ?_
    exact ((Neighbours.sublist_of_ite _ _).append (Neighbours.sublist_of_ite _ _)).append
      (Neighbours.sublist_of_ite _ _)
  · intro _ receiver
    simp only [mem_append, configuredNeighbours, mem_ite_nodesOfType, masters, peers, pollers]
    constructor
    · rintro ((⟨bit, node, isNode, isType⟩ | ⟨bit, node, isNode, isType⟩) |
        ⟨bit, node, isNode, isType⟩) <;>
        exact ⟨node, isNode, by rw [isType]; exact bit⟩
    · rintro ⟨node, isNode, bit⟩
      cases isType : node.type with
      | master => exact .inl (.inl ⟨isType ▸ bit, node, isNode, isType⟩)
      | peer => exact .inl (.inr ⟨isType ▸ bit, node, isNode, isType⟩)
      | poller => exact .inr ⟨isType ▸ bit, node, isNode, isType⟩

theorem deliveredOnce_of_general
    (leaves : pkt.Leaves) (ordinary : ¬ Selects pkt.selection destMagic) (general : pkt.IsGeneral) :
    DeliveredOnce nodes pkt := by
  refine ⟨nodesOfType nodes .master ++ nodesOfType nodes .peer ++ nodesOfType nodes .poller, ?_,
    nodeTable_nodup nodes, fun magic => absurd magic ordinary,
    fun _ special => absurd general special⟩
  rw [Neighbours.sendGenericTo_of_leaves leaves, Neighbours.routeEvent, if_neg ordinary,
    if_pos general]
  rfl

theorem pollers_eq_nil_iff :
    (configuredNeighbours nodes).pollers = [] ↔ ∀ node ∈ nodes, node.type ≠ .poller := by
  rw [eq_nil_iff_forall_not_mem]
  constructor
  · intro none node member isPoller
    obtain ⟨position, isNode⟩ := mem_iff_getElem?.mp member
    exact none position (mem_nodesOfType.mpr ⟨node, isNode, isPoller⟩)
  · intro none position member
    obtain ⟨node, isNode, isPoller⟩ := mem_nodesOfType.mp member
    exact none node (mem_of_getElem? isNode) isPoller

theorem mem_masters_peers_iff :
    receiver ∈ nodesOfType nodes .master ++ nodesOfType nodes .peer ↔
      ∃ node, nodes[receiver]? = some node ∧ node.type ≠ .poller := by
  rw [mem_append, mem_nodesOfType, mem_nodesOfType, ← exists_or]
  apply exists_congr
  intro node
  cases node.type <;> simp

section Selected

variable {selection : NodeSelection Nat} {id : Nat}

theorem mem_configuredSelection_iff
    (found : (configuredNeighbours nodes).selections[id]? = some selection) {position : Nat} :
    position ∈ selection.nodes ↔
      ∃ node, nodes[position]? = some node ∧ selection.name ∈ node.selectionNames := by
  constructor
  · intro member
    obtain ⟨node, isNode⟩ := exists_node_of_mem_selection found member
    refine ⟨node, isNode, ?_⟩
    rw [← count_pos_iff, ← count_selection found isNode, count_pos_iff]
    exact member
  · rintro ⟨node, isNode, named⟩
    rw [← count_pos_iff, count_selection found isNode, count_pos_iff]
    exact named

theorem mem_selected_iff
    (found : (configuredNeighbours nodes).selections[id]? = some selection) {receiver : Nat} :
    receiver ∈ nodesOfType nodes .master ++ nodesOfType nodes .peer ++ selection.nodes ↔
      ∃ node, nodes[receiver]? = some node ∧
        (node.type = .poller → selection.name ∈ node.selectionNames) := by
  rw [mem_append, mem_masters_peers_iff, mem_configuredSelection_iff found]
  constructor
  · rintro (⟨node, isNode, noPoller⟩ | ⟨node, isNode, named⟩)
    · exact ⟨node, isNode, fun isPoller => absurd isPoller noPoller⟩
    · exact ⟨node, isNode, fun _ => named⟩
  · rintro ⟨node, isNode, named⟩
    by_cases isPoller : node.type = .poller
    · exact .inr ⟨node, isNode, named isPoller⟩
    · exact .inl ⟨node, isNode, isPoller⟩

theorem nodup_selected_iff (unnamed : ∀ node ∈ nodes, node.type = .master → node.hostgroups = [])
    (found : (configuredNeighbours nodes).selections[id]? = some selection) :
    (nodesOfType nodes .master ++ nodesOfType nodes .peer ++ selection.nodes).Nodup ↔
      HostgroupNamedOnce nodes selection.name := by
  rw [nodup_iff_count]
  · have counted {position : Nat} {node : ConfiguredNode} (isNode : nodes[position]? = some node) :
        (nodesOfType nodes .master ++ nodesOfType nodes .peer ++ selection.nodes).count position ≤
            1 ↔
          (node.type = .peer → selection.name ∉ node.selectionNames) ∧
            (node.type = .poller → node.selectionNames.count selection.name ≤ 1) := by
      rw [count_append, count_append, count_nodesOfType isNode, count_nodesOfType isNode,
        count_selection found isNode]
      cases isType : node.type with
      | master =>
        have none := unnamed node (mem_of_getElem? isNode) isType
        simp [ConfiguredNode.selectionNames, none]
      | peer => simp [count_eq_zero]
      | poller => simp
    constructor
    · intro once node member
      obtain ⟨position, isNode⟩ := mem_iff_getElem?.mp member
      exact (counted isNode).mp (once position node isNode)
    · intro once position node isNode
      exact (counted isNode).mpr (once node (mem_of_getElem? isNode))
  · intro receiver member
    obtain ⟨node, isNode, _⟩ := (mem_selected_iff found).mp member
    exact ⟨node, isNode⟩

end Selected

theorem deliveredOnce_of_no_pollers
    (leaves : pkt.Leaves) (ordinary : ¬ Selects pkt.selection destMagic)
    (special : ¬ pkt.IsGeneral) (none : ∀ node ∈ nodes, node.type ≠ .poller) :
    DeliveredOnce nodes pkt := by
  refine ⟨nodesOfType nodes .master ++ nodesOfType nodes .peer, ?_, ?_,
    fun magic => absurd magic ordinary, ?_⟩
  · rw [Neighbours.sendGenericTo_of_leaves leaves, Neighbours.routeEvent, if_neg ordinary,
      if_neg special, if_pos (pollers_eq_nil_iff.mpr none)]
    rfl
  · exact (nodup_append.mp (nodeTable_nodup nodes)).1
  · intro _ _ selection _ receiver
    rw [mem_masters_peers_iff]
    apply exists_congr
    intro node
    apply and_congr_right
    intro isNode
    have noPoller := none node (mem_of_getElem? isNode)
    exact iff_of_true noPoller fun isPoller => absurd isPoller noPoller

theorem deliveredOnce_iff_of_pollers
    (leaves : pkt.Leaves) (ordinary : ¬ Selects pkt.selection destMagic)
    (special : ¬ pkt.IsGeneral) (polls : ¬ ∀ node ∈ nodes, node.type ≠ .poller)
    (unnamed : ∀ node ∈ nodes, node.type = .master → node.hostgroups = []) :
    DeliveredOnce nodes pkt ↔
      EntryNamedOnce nodes pkt.selection
        (configuredNeighbours nodes).selections[pkt.selection]? := by
  have some : (configuredNeighbours nodes).pollers ≠ [] := mt pollers_eq_nil_iff.mp polls
  have small : pkt.selection < destMagic := by
    rw [← not_le, ← selects_destMagic_iff pkt.bound]
    exact ordinary
  have routed (known : pkt.selection ≠ (configuredNeighbours nodes).selections.length) :
      (configuredNeighbours nodes).sendGenericTo pkt =
        .some (nodesOfType nodes .master ++ nodesOfType nodes .peer ++
          (configuredNeighbours nodes).nodesBySelId pkt.selection) := by
    rw [Neighbours.sendGenericTo_of_leaves leaves, Neighbours.routeEvent_eq special (.inr known),
      Neighbours.sendGeneric_selection some small]
    rfl
  cases found : (configuredNeighbours nodes).selections[pkt.selection]? with
  | none =>
    constructor
    · rintro ⟨receivers, isSent, _⟩ beyond
      rw [Neighbours.sendGenericTo_of_leaves leaves, Neighbours.routeEvent, if_neg ordinary,
        if_neg special, if_neg some, beyond, Neighbours.nodesBySelIdIn_length] at isSent
      cases isSent
    · intro known
      refine ⟨nodesOfType nodes .master ++ nodesOfType nodes .peer, ?_, ?_,
        fun magic => absurd magic ordinary, ?_⟩
      · rw [routed known, Neighbours.nodesBySelId, found]
        simp
      · exact (nodup_append.mp (nodeTable_nodup nodes)).1
      · intro _ _ selection isSelection
        rw [found] at isSelection
        cases isSelection
  | some selection =>
    have within := (List.getElem?_eq_some_iff.mp found).1
    have sent := routed (Nat.ne_of_lt within)
    rw [Neighbours.nodesBySelId, found, Option.map_some, Option.getD_some] at sent
    refine Iff.trans ?_ (nodup_selected_iff unnamed found)
    constructor
    · rintro ⟨receivers, isSent, once, _⟩
      cases sent.symm.trans isSent
      exact once
    · intro once
      refine ⟨_, sent, once, fun magic => absurd magic ordinary, ?_⟩
      intro _ _ other isOther receiver
      rw [found] at isOther
      cases isOther
      exact mem_selected_iff found

end Delivered

section Accepted

variable {checks : NodeChecks}

theorem grokVars_master {vars : List CfgVar} {hostgroups : List (List Char)}
    (accepted : grokVars checks .master vars = some hostgroups) : hostgroups = [] := by
  induction vars with
  | nil =>
    cases accepted
    rfl
  | cons v vars ih =>
    obtain ⟨value, _, rest⟩ := Option.bind_eq_some_iff.mp accepted
    rw [if_neg fun both => both.1 rfl] at rest
    split at rest
    · exact ih rest
    · cases rest

theorem grokNode_master {type : NodeType} {c : CfgComp} {node : ConfiguredNode}
    (accepted : grokNode checks type c = some node) (isMaster : node.type = .master) :
    node.hostgroups = [] := by
  obtain ⟨hostgroups, isRead, rest⟩ := Option.bind_eq_some_iff.mp accepted
  split_ifs at rest
  cases rest
  cases isMaster
  exact grokVars_master isRead

theorem nodeGrokConfig_master {config : List CfgComp} {nodes : List ConfiguredNode}
    (accepted : nodeGrokConfig checks config = some nodes) :
    ∀ node ∈ nodes, node.type = .master → node.hostgroups = [] := by
  induction config generalizing nodes with
  | nil =>
    cases accepted
    exact forall_mem_nil _
  | cons c config ih =>
    rw [nodeGrokConfig] at accepted
    split at accepted
    · exact ih accepted
    · cases accepted
    · obtain ⟨first, isFirst, rest⟩ := Option.bind_eq_some_iff.mp accepted
      obtain ⟨others, isRest, rfl⟩ := Option.map_eq_some_iff.mp rest
      rw [forall_mem_cons]
      exact ⟨grokNode_master isFirst, ih isRest⟩

/-- Each node gets at most one copy, and the right nodes get it, exactly if the hostgroup of
the event is named once by pollers and not by peers. -/
theorem sendGeneric_once_iff
    {config : List CfgComp} {nodes : List ConfiguredNode}
    (accepted : nodeGrokConfig checks config = some nodes) (pkt : OutgoingEvent)
    (leaves : pkt.Leaves) :
    DeliveredOnce nodes pkt ↔ NamedOnce nodes pkt := by
  rw [NamedOnce]
  by_cases magic : Selects pkt.selection destMagic
  · exact iff_of_true (deliveredOnce_of_magic leaves magic) (.inl magic)
  by_cases general : pkt.IsGeneral
  · exact iff_of_true (deliveredOnce_of_general leaves magic general) (.inr (.inl general))
  by_cases none : ∀ node ∈ nodes, node.type ≠ .poller
  · exact iff_of_true (deliveredOnce_of_no_pollers leaves magic general none)
      (.inr (.inr (.inl none)))
  · rw [or_iff_right magic, or_iff_right general, or_iff_right none]
    exact deliveredOnce_iff_of_pollers leaves magic general none (nodeGrokConfig_master accepted)

end Accepted

def pollerEntries (peerVars : List CfgVar) (hostgroups : List (List Char)) : List CfgComp :=
  [⟨"module".toList, [], []⟩, ⟨"peer p".toList, peerVars, []⟩,
    ⟨"poller a".toList, [⟨"hostgroup", some "a".toList⟩], []⟩,
    ⟨"poller b".toList, hostgroups.map fun value => ⟨"hostgroup", some value⟩, []⟩]

def acceptsAll : NodeChecks := ⟨fun _ _ _ => true, fun _ => true⟩

def firstSelectionEvent : OutgoingEvent := ⟨13, 0, 0, by decide, false, true, false⟩

theorem firstSelectionEvent_leaves : firstSelectionEvent.Leaves := ⟨rfl, rfl, by decide⟩

theorem sendGeneric_once_two :
    DeliveredOnce [⟨.peer, []⟩, ⟨.poller, ["a".toList]⟩, ⟨.poller, ["b, a".toList]⟩]
      firstSelectionEvent := by
  have accepted : nodeGrokConfig acceptsAll (pollerEntries [] ["b, a".toList]) =
      some [⟨.peer, []⟩, ⟨.poller, ["a".toList]⟩, ⟨.poller, ["b, a".toList]⟩] := by
    decide +kernel
  apply (sendGeneric_once_iff accepted firstSelectionEvent firstSelectionEvent_leaves).mpr
  decide +kernel

theorem sendGeneric_twice :
    nodeGrokConfig acceptsAll (pollerEntries [] ["b".toList, "a, a".toList]) =
        some [⟨.peer, []⟩, ⟨.poller, ["a".toList]⟩, ⟨.poller, ["b".toList, "a, a".toList]⟩] ∧
      ¬ DeliveredOnce [⟨.peer, []⟩, ⟨.poller, ["a".toList]⟩,
        ⟨.poller, ["b".toList, "a, a".toList]⟩] firstSelectionEvent ∧
      (configuredNeighbours [⟨.peer, ["a".toList]⟩, ⟨.poller, ["a".toList]⟩]).sendGenericTo
        firstSelectionEvent = some [0, 1, 0] := by
  have sent : (configuredNeighbours [⟨.peer, []⟩, ⟨.poller, ["a".toList]⟩,
      ⟨.poller, ["b".toList, "a, a".toList]⟩]).sendGenericTo firstSelectionEvent =
        some [0, 2, 2, 1] := by
    decide +kernel
  refine ⟨by decide +kernel, ?_, by decide +kernel⟩
  rintro ⟨receivers, isSent, once, -⟩
  cases sent.symm.trans isSent
  exact absurd once (by decide)

end MonitorMerlin
