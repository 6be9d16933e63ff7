import MonitorMerlin.Library.Relay
import MonitorMerlin.Tiers.Sending

/-! # Events through tiers -/

namespace MonitorMerlin

open List Relay

universe u

inductive OriginEvent where
  | hostResult
  | serviceResult
  | comment (host : Option Nat)
  | hostCommand (host : Option Nat)
  | hostgroupCommand (hostgroup : Option Nat)
  | globalCommand
  deriving DecidableEq, Repr

namespace OriginEvent

def type : OriginEvent → CallbackType
  | hostResult => .hostCheck
  | serviceResult => .serviceCheck
  | comment _ => .comment
  | hostCommand _ | hostgroupCommand _ | globalCommand => .externalCommand

def subject : OriginEvent → Option Nat
  | hostResult | serviceResult | globalCommand => none
  | comment id | hostCommand id | hostgroupCommand id => id

def selection : OriginEvent → Nat
  | hostResult | serviceResult => destPeersMasters
  | comment id | hostCommand id => getSelection id
  | hostgroupCommand id => getHostgroupSelection id
  | globalCommand => destPeersPollers

theorem selection_lt (event : OriginEvent) : event.selection < 2 ^ 16 := by
  cases event with
  | hostResult | serviceResult | globalCommand => decide
  | comment id | hostCommand id | hostgroupCommand id => exact selectionOr_lt (by decide) id

theorem type_relayed (event : OriginEvent) :
    event.type ≠ .programStatus ∧ event.type ≠ .contactNotificationMethod := by
  cases event <;> simp [type]

end OriginEvent

section Levels

variable {ι : Type u}

def levelAt (levels : List (List ι)) (index : Nat) : List ι := (levels[index]?).getD []

def levelAbove (levels : List (List ι)) : Nat → List ι
  | 0 => []
  | index + 1 => levelAt levels index

variable {levels : List (List ι)} {index other : Nat} {me : ι}

theorem levelAt_eq_getElem (within : index < levels.length) :
    levelAt levels index = levels[index] := by
  rw [levelAt, getElem?_eq_getElem within, Option.getD_some]

theorem lt_length_of_mem_levelAt (member : me ∈ levelAt levels index) : index < levels.length := by
  by_contra beyond
  rw [levelAt, getElem?_eq_none (not_lt.mp beyond)] at member
  cases member

theorem mem_levels_of_mem_levelAt (member : me ∈ levelAt levels index) :
    levelAt levels index ∈ levels := by
  rw [levelAt_eq_getElem (lt_length_of_mem_levelAt member)]
  exact getElem_mem _

theorem levelAt_unique (distinct : levels.flatten.Nodup) (atIndex : me ∈ levelAt levels index)
    (atOther : me ∈ levelAt levels other) : index = other := by
  have apart := pairwise_iff_getElem.mp (nodup_flatten.mp distinct).2
  have within := lt_length_of_mem_levelAt atIndex
  have otherWithin := lt_length_of_mem_levelAt atOther
  rw [levelAt_eq_getElem within] at atIndex
  rw [levelAt_eq_getElem otherWithin] at atOther
  rcases lt_trichotomy index other with less | same | more
  · exact absurd atOther (apart index other within otherWithin less atIndex)
  · exact same
  · exact absurd atIndex (apart other index otherWithin within more atOther)

theorem reverse_take_levels (within : index < levels.length) :
    (levels.take (index + 1)).reverse = levelAt levels index :: (levels.take index).reverse := by
  rw [take_succ_eq_append_getElem within, reverse_append, levelAt_eq_getElem within]
  rfl

theorem drop_levels (within : index < levels.length) :
    levels.drop index = levelAt levels index :: levels.drop (index + 1) := by
  rw [drop_eq_getElem_cons within, levelAt_eq_getElem within]

theorem flatten_levels_perm (within : index < levels.length) :
    ((levels.take index).flatten ++ levelAt levels index ++
      (levels.drop (index + 1)).flatten).Perm levels.flatten := by
  rw [append_assoc, ← flatten_cons, ← drop_levels within, ← flatten_append, take_append_drop]

theorem narrow_take
    (narrow : ∀ level ∈ levels.tail.dropLast, level.length = 1) (within : index < levels.length) :
    ∀ level ∈ (levels.take index).reverse.dropLast, level.length = 1 := by
  intro level member
  apply narrow
  rw [dropLast_reverse, mem_reverse] at member
  cases levels with
  | nil => cases within
  | cons top rest =>
    cases index with
    | zero => cases member
    | succ index =>
      rw [take_succ_cons, tail_cons] at member
      rw [tail_cons, dropLast_eq_take]
      have fewer := Nat.le_sub_one_of_lt (Nat.lt_of_succ_lt_succ within)
      exact take_subset_take_left rest fewer member

theorem narrow_drop (narrow : ∀ level ∈ levels.tail.dropLast, level.length = 1) :
    ∀ level ∈ (levels.drop (index + 1)).dropLast, level.length = 1 := by
  intro level member
  apply narrow
  rw [← drop_tail] at member
  have some : levels.tail.drop index ≠ [] := by
    intro none
    rw [none] at member
    cases member
  rw [← take_append_drop index levels.tail, dropLast_append_of_ne_nil some]
  exact mem_append_right _ member

theorem exists_index_between {level : List ι} (member : level ∈ levels.tail.dropLast) :
    ∃ index, index + 2 < levels.length ∧ levelAt levels (index + 1) = level := by
  obtain ⟨index, within, rfl⟩ := mem_iff_getElem.mp member
  rw [length_dropLast, length_tail] at within
  refine ⟨index, by omega, ?_⟩
  rw [levelAt_eq_getElem (by omega), getElem_dropLast, getElem_tail]

end Levels

namespace Neighbours

variable {ι : Type u}

def ListsOnce (node : Neighbours ι) : Prop :=
  node.pollers ≠ [] → ∀ id < destMagic, (node.peers ++ node.nodesBySelId id).Nodup

theorem sendGeneric_parts
    {node : Neighbours ι} (lists : node.ListsNeighbours) (once : node.ListsOnce) {selection : Nat}
    (bound : selection < 2 ^ 16) :
    ∃ masters peers pollers, node.sendGeneric selection = masters ++ peers ++ pollers ∧
      masters.Sublist node.masters ∧ peers.Sublist node.peers ∧ pollers.Subperm node.pollers := by
  rw [sendGeneric]
  by_cases magic : Selects selection destMagic
  · rw [if_pos magic]
    exact ⟨_, _, _, rfl, sublist_of_ite _ _, sublist_of_ite _ _, (sublist_of_ite _ _).subperm⟩
  · rw [if_neg magic]
    refine ⟨_, _, _, rfl, List.Sublist.refl _, List.Sublist.refl _, ?_⟩
    split_ifs with none
    · exact nil_subperm
    · rw [selects_destMagic_iff bound, not_le] at magic
      obtain ⟨_, nodup, apart⟩ := nodup_append.mp (once none selection magic)
      apply subperm_of_subset nodup
      intro receiver member
      rcases mem_nodesBySelId lists member with isPeer | isPoller
      · exact absurd rfl (apart receiver isPeer receiver member)
      · exact isPoller

end Neighbours

section Topology

variable {ι : Type u} [DecidableEq ι]

structure LevelNode (levels : List (List ι)) (index : Nat) (me : ι) (node : Neighbours ι) :
    Prop where
  masters : node.masters.Perm (levelAbove levels index)
  peers : (me :: node.peers).Perm (levelAt levels index)
  pollers : node.pollers.Perm (levelAt levels (index + 1))
  lists : node.ListsNeighbours

/-- Levels of nodes, which know those next to them. -/
structure Topology (ι : Type u) [DecidableEq ι] where
  levels : List (List ι)
  node : ι → Neighbours ι
  populated : ∀ level ∈ levels, level ≠ []
  distinct : levels.flatten.Nodup
  knows : ∀ index, ∀ me ∈ levelAt levels index, LevelNode levels index me (node me)

namespace Topology

variable (topology : Topology ι)

def pass (type : CallbackType) (sender receiver : ι) : List ι :=
  (topology.node receiver).handleEventRelays type sender

def sent (origin : ι) (event : OriginEvent) : List (ι × ι) :=
  ((topology.node origin).sendGeneric event.selection).map fun receiver => (origin, receiver)

/-- No node handles an event twice, whatever comes first. -/
def AtMostOnce : Prop :=
  ∀ index, ∀ origin ∈ levelAt topology.levels index, ∀ event : OriginEvent,
    (∀ id, event.subject = some id → id < (topology.node origin).selections.length) →
    ∀ net, Reaches (passOn (topology.pass event.type)) (topology.sent origin event) net →
      (net.handled.map Prod.snd).Nodup

end Topology

namespace Topology

variable {topology : Topology ι} {type : CallbackType} {index : Nat} {sender me origin : ι}

theorem exists_mem_levelAt (within : index < topology.levels.length) :
    ∃ node, node ∈ levelAt topology.levels index := by
  rw [levelAt_eq_getElem within]
  exact exists_mem_of_ne_nil _ (topology.populated _ (getElem_mem within))

theorem nodup_levelAt (isMe : me ∈ levelAt topology.levels index) :
    (levelAt topology.levels index).Nodup :=
  (nodup_flatten.mp topology.distinct).1 _ (mem_levels_of_mem_levelAt isMe)

theorem not_mem_masters (isMe : me ∈ levelAt topology.levels index) {other : Nat}
    (isSender : sender ∈ levelAt topology.levels other) (below : index ≤ other) :
    sender ∉ (topology.node me).masters := by
  rw [(topology.knows index me isMe).masters.mem_iff]
  intro isMaster
  cases index with
  | zero => cases isMaster
  | succ index =>
    have same := levelAt_unique topology.distinct isSender isMaster
    omega

theorem pass_up (type : CallbackType) (isMe : me ∈ levelAt topology.levels index)
    (isSender : sender ∈ levelAt topology.levels (index + 1)) :
    (topology.pass type sender me).Perm (levelAbove topology.levels index) := by
  have view := topology.knows index me isMe
  have notMaster := not_mem_masters isMe isSender (Nat.le_succ index)
  have notPeer : sender ∉ (topology.node me).peers := by
    intro isPeer
    have atLevel := view.peers.mem_iff.mp (mem_cons_of_mem me isPeer)
    have same := levelAt_unique topology.distinct isSender atLevel
    omega
  rw [pass, Neighbours.handleEventRelays, Neighbours.typeOf, if_neg notMaster, if_neg notPeer,
    if_pos (view.pollers.mem_iff.mpr isSender)]
  exact view.masters

theorem pass_down (relayed : type ≠ .programStatus ∧ type ≠ .contactNotificationMethod)
    (isMe : me ∈ levelAt topology.levels (index + 1))
    (isSender : sender ∈ levelAt topology.levels index) :
    (topology.pass type sender me).Perm (levelAt topology.levels (index + 2)) := by
  have view := topology.knows (index + 1) me isMe
  have isMaster : sender ∈ (topology.node me).masters := view.masters.mem_iff.mpr isSender
  simp only [pass, Neighbours.handleEventRelays, Neighbours.typeOf, if_pos isMaster,
    if_neg (not_or.mpr relayed)]
  exact view.pollers

theorem runs_up (isMe : me ∈ levelAt topology.levels index)
    (isSender : sender ∈ levelAt topology.levels (index + 1)) :
    Runs (topology.pass type) (topology.levels.take index).reverse (sender, me) := by
  have passes := pass_up type isMe isSender
  induction index generalizing me sender with
  | zero => exact passes.eq_nil
  | succ index hypothesis =>
    rw [reverse_take_levels (Nat.lt_of_succ_lt (lt_length_of_mem_levelAt isMe))]
    apply And.intro passes
    intro next isNext
    exact hypothesis isNext isMe (pass_up type isNext isMe)

theorem runs_down (relayed : type ≠ .programStatus ∧ type ≠ .contactNotificationMethod)
    (isMe : me ∈ levelAt topology.levels (index + 1))
    (isSender : sender ∈ levelAt topology.levels index) :
    Runs (topology.pass type) (topology.levels.drop (index + 2)) (sender, me) := by
  have passes := pass_down relayed isMe isSender
  generalize ahead : topology.levels.drop (index + 2) = levels
  induction levels generalizing index me sender with
  | nil =>
    rw [levelAt, getElem?_eq_none (drop_eq_nil_iff.mp ahead)] at passes
    exact passes.eq_nil
  | cons level levels hypothesis =>
    have within : index + 2 < topology.levels.length := by
      by_contra beyond
      rw [drop_eq_nil_iff.mpr (not_lt.mp beyond)] at ahead
      cases ahead
    rw [drop_levels within] at ahead
    cases ahead
    apply And.intro passes
    intro next isNext
    exact hypothesis isNext isMe (pass_down relayed isNext isMe) rfl

theorem receivers_masters (isOrigin : origin ∈ levelAt topology.levels index)
    (narrow : ∀ level ∈ topology.levels.tail.dropLast, level.length = 1) :
    (receivers (topology.pass type) topology.levels.length
      ((topology.node origin).masters.map fun node => (origin, node))).Perm
      (topology.levels.take index).flatten := by
  have masters := (topology.knows index origin isOrigin).masters
  have within := lt_length_of_mem_levelAt isOrigin
  cases index with
  | zero =>
    rw [masters.eq_nil]
    exact List.Perm.refl []
  | succ index =>
    have ahead := reverse_take_levels (Nat.lt_of_succ_lt within)
    rw [levelAbove] at masters
    refine (receivers_perm (masters.map _)).trans ?_
    refine List.Perm.trans ?_ (reverse_perm _).flatten
    rw [ahead]
    apply receivers_level_perm
    · rw [length_reverse]
      exact length_take_le' _ _
    · exact fun node isNode => runs_up isNode isOrigin
    · rw [← ahead]
      exact narrow_take narrow within

theorem receivers_pollers (relayed : type ≠ .programStatus ∧ type ≠ .contactNotificationMethod)
    (isOrigin : origin ∈ levelAt topology.levels index)
    (narrow : ∀ level ∈ topology.levels.tail.dropLast, level.length = 1) :
    (receivers (topology.pass type) topology.levels.length
      ((topology.node origin).pollers.map fun node => (origin, node))).Perm
      (topology.levels.drop (index + 1)).flatten := by
  have pollers := (topology.knows index origin isOrigin).pollers
  by_cases within : index + 1 < topology.levels.length
  · refine (receivers_perm (pollers.map _)).trans ?_
    rw [drop_levels within]
    apply receivers_level_perm
    · rw [length_drop]
      exact Nat.sub_le _ _
    · exact fun node isNode => runs_down relayed isNode isOrigin
    · rw [← drop_levels within]
      exact narrow_drop narrow
  · rw [levelAt, getElem?_eq_none (not_lt.mp within)] at pollers
    rw [pollers.eq_nil, drop_eq_nil_iff.mpr (not_lt.mp within)]
    exact List.Perm.refl []

section

variable (isOrigin : origin ∈ levelAt topology.levels index)

include isOrigin

theorem runs_to_peer (isPeer : me ∈ (topology.node origin).peers) :
    Runs (topology.pass type) [] (origin, me) := by
  have peers := (topology.knows index origin isOrigin).peers
  have isMe := peers.mem_iff.mp (mem_cons_of_mem origin isPeer)
  have remote : origin ≠ me := by
    rintro rfl
    exact (nodup_cons.mp (peers.nodup_iff.mpr (nodup_levelAt isOrigin))).1 isPeer
  have isSender := (mem_cons.mp
    ((topology.knows index me isMe).peers.mem_iff.mpr isOrigin)).resolve_left remote
  rw [Runs, pass, Neighbours.handleEventRelays, Neighbours.typeOf,
    if_neg (not_mem_masters isMe isOrigin (Nat.le_refl index)), if_pos isSender]

theorem sent_ends {event : OriginEvent} :
    ∀ message ∈ topology.sent origin event,
      Ends (passOn (topology.pass event.type)) topology.levels.length message := by
  intro message member
  obtain ⟨node, isReceiver, rfl⟩ := mem_map.mp member
  have view := topology.knows index origin isOrigin
  rcases Neighbours.mem_sendGeneric view.lists isReceiver with isMaster | isPeer | isPoller
  · have above := view.masters.mem_iff.mp isMaster
    cases index with
    | zero => cases above
    | succ index =>
      apply (runs_up above isOrigin).ends.le
      rw [length_reverse]
      exact length_take_le' _ _
  · exact (runs_to_peer isOrigin isPeer).ends.le (Nat.zero_le _)
  · apply (runs_down event.type_relayed (view.pollers.mem_iff.mp isPoller) isOrigin).ends.le
    rw [length_drop]
    exact Nat.sub_le _ _

theorem receivers_nodup (event : OriginEvent)
    (narrow : ∀ level ∈ topology.levels.tail.dropLast, level.length = 1)
    (once : (topology.node origin).ListsOnce) :
    (receivers (topology.pass event.type) topology.levels.length
      (topology.sent origin event)).Nodup := by
  have view := topology.knows index origin isOrigin
  obtain ⟨masters, peers, pollers, parts, inMasters, inPeers, inPollers⟩ :=
    Neighbours.sendGeneric_parts view.lists once event.selection_lt
  have distinct := (flatten_levels_perm (lt_length_of_mem_levelAt isOrigin)).nodup_iff.mpr
    topology.distinct
  have within : (receivers (topology.pass event.type) topology.levels.length
      (topology.sent origin event)).Subperm
      ((topology.levels.take index).flatten ++ levelAt topology.levels index ++
        (topology.levels.drop (index + 1)).flatten) := by
    rw [sent, parts, map_append, map_append, receivers_append, receivers_append]
    refine (List.Subperm.append ?_ ?_).append ?_
    · exact (receivers_sublist (inMasters.map _)).subperm.trans
        (receivers_masters isOrigin narrow).subperm
    · rw [receivers_ended, map_map]
      · exact (map_id peers).symm ▸ (inPeers.cons origin).subperm.trans view.peers.subperm
      · intro message member
        obtain ⟨node, isPeer, rfl⟩ := mem_map.mp member
        exact runs_to_peer isOrigin (inPeers.subset isPeer)
    · obtain ⟨middle, perm, sublist⟩ := inPollers
      exact (receivers_subperm ⟨_, perm.map _, sublist.map _⟩).trans
        (receivers_pollers event.type_relayed isOrigin narrow).subperm
  exact nodup_of_subperm within distinct

end

section

variable (once : topology.AtMostOnce)

include once

theorem nodup_of_atMostOnce (isOrigin : origin ∈ levelAt topology.levels index)
    (event : OriginEvent)
    (fits : ∀ id, event.subject = some id → id < (topology.node origin).selections.length) :
    (receivers (topology.pass event.type) topology.levels.length
      (topology.sent origin event)).Nodup :=
  (nodup_handled_iff Prod.snd (sent_ends isOrigin)).mp (once index origin isOrigin event fits)

theorem level_unique_of_atMostOnce (isOrigin : origin ∈ levelAt topology.levels (index + 2))
    {first second next : ι} (isFirst : first ∈ levelAt topology.levels (index + 1))
    (isSecond : second ∈ levelAt topology.levels (index + 1))
    (isNext : next ∈ levelAt topology.levels index) : first = second := by
  by_contra different
  have masters := (topology.knows (index + 2) origin isOrigin).masters
  have nodup := nodup_of_atMostOnce once isOrigin .hostResult (fun _ none => by cases none)
  have isSent : ∀ node ∈ levelAt topology.levels (index + 1),
      (origin, node) ∈ topology.sent origin .hostResult := by
    intro node isNode
    apply mem_map_of_mem
    exact mem_append_left _ (mem_append_left _ (masters.mem_iff.mpr isNode))
  have both : [(origin, first), (origin, second)].Subperm (topology.sent origin .hostResult) := by
    apply subperm_of_subset
    · simp [different]
    · simp [isSent first isFirst, isSent second isSecond]
  have ahead := reverse_take_levels (lt_length_of_mem_levelAt isNext)
  have deep : ((topology.levels.take (index + 1)).reverse).length ≤ topology.levels.length := by
    rw [length_reverse]
    exact length_take_le' _ _
  have runs : ∀ node ∈ levelAt topology.levels (index + 1),
      Runs (topology.pass .hostCheck) (levelAt topology.levels index ::
        (topology.levels.take index).reverse) (origin, node) := by
    intro node isNode
    rw [← ahead]
    exact runs_up isNode isOrigin
  rw [ahead] at deep
  exact not_nodup_receivers deep (runs first isFirst) (runs second isSecond) isNext
    (nodup_of_subperm (receivers_subperm both) nodup)

theorem narrow_of_atMostOnce : ∀ level ∈ topology.levels.tail.dropLast, level.length = 1 := by
  intro level member
  obtain ⟨index, within, rfl⟩ := exists_index_between member
  have middleWithin := Nat.lt_of_succ_lt within
  obtain ⟨next, isNext⟩ := exists_mem_levelAt (Nat.lt_of_succ_lt middleWithin)
  obtain ⟨first, isFirst⟩ := exists_mem_levelAt middleWithin
  obtain ⟨origin, isOrigin⟩ := exists_mem_levelAt within
  have single : (levelAt topology.levels (index + 1)).Perm [first] := by
    apply (perm_ext_iff_of_nodup (nodup_levelAt isFirst) (nodup_singleton first)).mpr
    intro node
    rw [mem_singleton]
    constructor
    · intro isNode
      exact level_unique_of_atMostOnce once isOrigin isNode isFirst isNext
    · rintro rfl
      exact isFirst
  exact single.length_eq

theorem listsOnce_of_atMostOnce (isOrigin : origin ∈ levelAt topology.levels index) :
    (topology.node origin).ListsOnce := by
  intro some id small
  by_cases within : id < (topology.node origin).selections.length
  · have nodup := nodup_of_atMostOnce once isOrigin (.hostgroupCommand id)
      (fun _ same => by cases same; exact within)
    have sentOnce := (sublist_receivers _).nodup nodup
    rw [sent, map_map, OriginEvent.selection, getHostgroupSelection,
      selectionOr_of_lt (small.trans (by decide)), Neighbours.sendGeneric_selection some small,
      append_assoc] at sentOnce
    exact (nodup_append.mp ((map_id _) ▸ sentOnce)).2.1
  · have view := topology.knows index origin isOrigin
    have peers := view.peers.nodup_iff.mpr (nodup_levelAt isOrigin)
    rw [Neighbours.nodesBySelId, getElem?_eq_none (not_lt.mp within), Option.map_none,
      Option.getD_none, append_nil]
    exact (nodup_cons.mp peers).2

end

end Topology

/-- No node ever handles an event twice exactly when all levels between others have one node,
and no hostgroup names a poller twice, or a peer. -/
theorem atMostOnce_iff (topology : Topology ι) :
    topology.AtMostOnce ↔
      (∀ level ∈ topology.levels.tail.dropLast, level.length = 1) ∧
        ∀ index, ∀ me ∈ levelAt topology.levels index, (topology.node me).ListsOnce := by
  constructor
  · intro once
    exact ⟨Topology.narrow_of_atMostOnce once, fun index me isMe =>
      Topology.listsOnce_of_atMostOnce once isMe⟩
  · rintro ⟨narrow, lists⟩ index origin isOrigin event _
    apply (nodup_handled_iff Prod.snd (Topology.sent_ends isOrigin)).mpr
    exact Topology.receivers_nodup isOrigin event narrow (lists index origin isOrigin)

end Topology

def twoBetween : Topology (Fin 4) where
  levels := [[0], [1, 2], [3]]
  node
    | 0 => ⟨[], [], [1, 2], []⟩
    | 1 => ⟨[0], [2], [3], []⟩
    | 2 => ⟨[0], [1], [3], []⟩
    | 3 => ⟨[1, 2], [], [], []⟩
  populated := by decide
  distinct := by decide
  knows
    | 0, me, isMe => by
        cases mem_singleton.mp isMe
        exact ⟨by decide, by decide, by decide, by simp [Neighbours.ListsNeighbours]⟩
    | 1, me, isMe => by
        rcases mem_pair.mp isMe with rfl | rfl <;>
          exact ⟨by decide, by decide, by decide, by simp [Neighbours.ListsNeighbours]⟩
    | 2, me, isMe => by
        cases mem_singleton.mp isMe
        exact ⟨by decide, by decide, by decide, by simp [Neighbours.ListsNeighbours]⟩
    | _ + 3, _, isMe => absurd isMe not_mem_nil

theorem not_atMostOnce_twoBetween : ¬ twoBetween.AtMostOnce := by
  intro once
  have isOrigin : (3 : Fin 4) ∈ levelAt twoBetween.levels 2 := by decide
  have nodup := Topology.nodup_of_atMostOnce once isOrigin .hostResult (fun _ none => by cases none)
  exact absurd nodup (by decide)

end MonitorMerlin
