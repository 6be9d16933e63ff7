import Mathlib.Tactic.IntervalCases
import MonitorMerlin.Library.Grouping
import MonitorMerlin.Node.Compat

/-! # Where events go -/

namespace MonitorMerlin

open Grouping List

universe u

/-- `struct node_selection`. -/
structure NodeSelection (ι : Type u) where
  name : String
  nodes : List ι
  deriving DecidableEq, Repr

section Selections

variable {ι : Type u} {table : List (NodeSelection ι)} {name : String} {node : ι}
  {listings : List (String × ι)}

/-- `node_selection_by_name`. -/
def nodeSelectionByName (table : List (NodeSelection ι)) (name : String) : Option Nat :=
  table.findIdx? fun selection => selection.name = name

/-- `add_one_selection`. -/
def addOneSelection (name : String) (node : ι) :
    List (NodeSelection ι) → List (NodeSelection ι)
  | [] => [⟨name, [node]⟩]
  | selection :: table =>
    if selection.name = name then
      { selection with nodes := node :: selection.nodes } :: table
    else
      selection :: addOneSelection name node table

def selectionTable (listings : List (String × ι)) : List (NodeSelection ι) :=
  listings.foldl (fun table listing => addOneSelection listing.1 listing.2 table) []

theorem exists_nodeSelectionByName (named : name ∈ table.map NodeSelection.name) :
    ∃ id, nodeSelectionByName table name = some id := by
  obtain ⟨selection, member, rfl⟩ := mem_map.mp named
  apply Option.ne_none_iff_exists'.mp
  intro missing
  exact absurd (findIdx?_eq_none_iff.mp missing selection member) (by simp)

def selectionCollector : Collector String ι (NodeSelection ι) where
  key := NodeSelection.name
  fresh := fun name node => ⟨name, [node]⟩
  add := fun node selection => { selection with nodes := node :: selection.nodes }
  Holds := fun selection node => node ∈ selection.nodes
  key_fresh := fun _ _ => rfl
  key_add := fun _ _ => rfl
  holds_fresh := fun _ _ _ => mem_singleton
  holds_add := fun _ _ _ => mem_cons

theorem addOneSelection_eq_insert (name : String) (node : ι) (table : List (NodeSelection ι)) :
    addOneSelection name node table = selectionCollector.insert name node table := by
  induction table with
  | nil => rfl
  | cons selection table ih =>
    rw [addOneSelection, ih]
    rfl

theorem selectionTable_collects (listings : List (String × ι)) :
    selectionCollector.Collects listings (selectionTable listings) := by
  have same : selectionTable listings = selectionCollector.collect listings := by
    simp only [selectionTable, Collector.collect, addOneSelection_eq_insert]
  rw [same]
  exact Collector.collect_collects selectionCollector listings

theorem mem_names_selectionTable (listed : (name, node) ∈ listings) :
    name ∈ (selectionTable listings).map NodeSelection.name :=
  ((selectionTable_collects listings).keys name).mpr (mem_map.mpr ⟨_, listed, rfl⟩)

theorem mem_listings_of_mem_selectionTable {selection : NodeSelection ι}
    (member : selection ∈ selectionTable listings) (isNode : node ∈ selection.nodes) :
    (selection.name, node) ∈ listings :=
  ((selectionTable_collects listings).holds selection member node).mp isNode

end Selections

def destMagic : Nat := 0xfff0
def destPollers : Nat := destMagic + 2
def destPeers : Nat := destMagic + 4
def destMasters : Nat := destMagic + 8
def destPeersPollers : Nat := destPollers ||| destPeers
def destPeersMasters : Nat := destPeers ||| destMasters

def Selects (selection dest : Nat) : Prop := selection &&& dest = dest

instance (selection dest : Nat) : Decidable (Selects selection dest) :=
  inferInstanceAs (Decidable (_ = _))

structure Neighbours (ι : Type u) where
  masters : List ι
  peers : List ι
  pollers : List ι
  listings : List (String × ι)

def selectionOr (fallback : Nat) : Option Nat → Nat
  | some id => id &&& 0xffff
  | none => fallback

/-- `get_selection`. -/
def getSelection : Option Nat → Nat := selectionOr destPeersMasters

/-- `get_hostgroup_selection`. -/
def getHostgroupSelection : Option Nat → Nat := selectionOr destPeersPollers

theorem selectionOr_lt {fallback : Nat} (bound : fallback < 2 ^ 16) (found : Option Nat) :
    selectionOr fallback found < 2 ^ 16 := by
  cases found with
  | none => exact bound
  | some id =>
    rw [selectionOr, Nat.and_two_pow_sub_one_eq_mod id 16]
    exact Nat.mod_lt _ (by decide)

theorem selectionOr_of_lt {fallback id : Nat} (small : id < 2 ^ 16) :
    selectionOr fallback (some id) = id := by
  rw [selectionOr, Nat.and_two_pow_sub_one_eq_mod id 16, Nat.mod_eq_of_lt small]

theorem selects_destMagic_iff {selection : Nat} (bound : selection < 2 ^ 16) :
    Selects selection destMagic ↔ destMagic ≤ selection := by
  constructor
  · intro selects
    rw [← show selection &&& destMagic = destMagic from selects]
    exact Nat.and_le_left
  · intro large
    unfold destMagic at *
    interval_cases selection <;> decide

inductive CallbackType where
  | hostCheck
  | hostStatus
  | serviceCheck
  | serviceStatus
  | notification
  | externalCommand
  | comment
  | downtime
  | flapping
  | contactNotificationMethod
  | programStatus
  | process
  deriving DecidableEq, Repr

namespace Neighbours

variable {ι : Type u} (node : Neighbours ι)

def selections : List (NodeSelection ι) := selectionTable node.listings

/-- `nodes_by_sel_id`. -/
def nodesBySelId (selection : Nat) : List ι :=
  ((node.selections[selection]?).map NodeSelection.nodes).getD []

/-- The recipients of `send_generic`. -/
def sendGeneric (selection : Nat) : List ι :=
  if Selects selection destMagic then
    (if Selects selection destMasters then node.masters else []) ++
      (if Selects selection destPeers then node.peers else []) ++
      (if Selects selection destPollers then node.pollers else [])
  else
    node.masters ++ node.peers ++ (if node.pollers = [] then [] else node.nodesBySelId selection)

def ListsNeighbours : Prop :=
  ∀ listing ∈ node.listings, listing.2 ∈ node.peers ∨ listing.2 ∈ node.pollers

variable {node} {selection : Nat} {receiver : ι}

theorem mem_nodesBySelId (lists : node.ListsNeighbours)
    (member : receiver ∈ node.nodesBySelId selection) :
    receiver ∈ node.peers ∨ receiver ∈ node.pollers := by
  rw [nodesBySelId] at member
  cases found : node.selections[selection]? with
  | none =>
    rw [found] at member
    cases member
  | some entry =>
    rw [found] at member
    exact lists _ (mem_listings_of_mem_selectionTable (mem_of_getElem? found) member)

theorem sublist_of_ite (condition : Prop) [Decidable condition] (nodes : List ι) :
    (if condition then nodes else []).Sublist nodes := by
  split_ifs
  · exact List.Sublist.refl nodes
  · exact nil_sublist nodes

theorem mem_sendGeneric (lists : node.ListsNeighbours)
    (member : receiver ∈ node.sendGeneric selection) :
    receiver ∈ node.masters ∨ receiver ∈ node.peers ∨ receiver ∈ node.pollers := by
  rw [sendGeneric] at member
  by_cases magic : Selects selection destMagic
  · rw [if_pos magic, mem_append, mem_append] at member
    rcases member with (isMaster | isPeer) | isPoller
    · exact .inl ((sublist_of_ite _ _).subset isMaster)
    · exact .inr (.inl ((sublist_of_ite _ _).subset isPeer))
    · exact .inr (.inr ((sublist_of_ite _ _).subset isPoller))
  · rw [if_neg magic, mem_append, mem_append] at member
    rcases member with (isMaster | isPeer) | isSelected
    · exact .inl isMaster
    · exact .inr (.inl isPeer)
    · split_ifs at isSelected
      · cases isSelected
      · exact .inr (mem_nodesBySelId lists isSelected)

theorem sendGeneric_selection (some : node.pollers ≠ []) (small : selection < destMagic) :
    node.sendGeneric selection = node.masters ++ node.peers ++ node.nodesBySelId selection := by
  have bound : selection < 2 ^ 16 := small.trans (by decide)
  rw [sendGeneric, if_neg, if_neg some]
  rw [selects_destMagic_iff bound, not_le]
  exact small

theorem sendGeneric_peersMasters (node : Neighbours ι) :
    node.sendGeneric destPeersMasters = node.masters ++ node.peers := by
  rw [sendGeneric, if_pos (by decide), if_pos (by decide), if_pos (by decide),
    if_neg (by decide), append_nil]

variable [DecidableEq ι]

def typeOf (other : ι) : Option NodeType :=
  if other ∈ node.masters then
    some .master
  else if other ∈ node.peers then
    some .peer
  else if other ∈ node.pollers then
    some .poller
  else
    none

/-- To whom `handle_event` passes events on. -/
def handleEventRelays (type : CallbackType) (sender : ι) : List ι :=
  match node.typeOf sender with
  | some .poller => node.masters
  | some .master =>
    if type = .programStatus ∨ type = .contactNotificationMethod then [] else node.pollers
  | _ => []

theorem handleEventRelays_eq_nil (outer : node.masters = [] ∨ node.pollers = [])
    (type : CallbackType) (sender : ι) : node.handleEventRelays type sender = [] := by
  rw [handleEventRelays, typeOf]
  rcases outer with top | bottom
  · simp only [top, not_mem_nil, if_false]
    split_ifs <;> rfl
  · simp only [bottom, not_mem_nil, if_false]
    split_ifs <;> rfl

end Neighbours

end MonitorMerlin
