import Mathlib.Algebra.Order.BigOperators.Group.List
import Mathlib.Algebra.Order.Group.Nat
import Mathlib.Data.List.Perm.Basic

/-! # Nested groups of items -/

namespace Nesting

open List

universe u v w

/-- Named nodes with items and nested nodes. -/
inductive Tree (ν : Type u) (ι : Type v) : Type (max u v) where
  | node (name : ν) (items : List ι) (nest : List (Tree ν ι))

/-- What a text says, in order. -/
inductive Event (ν : Type u) (ι : Type v) : Type (max u v) where
  | start (name : ν)
  | item (item : ι)
  | close
  deriving DecidableEq, Repr

variable {ν : Type u} {ι : Type v}

namespace Tree

def name : Tree ν ι → ν
  | .node name _ _ => name

def items : Tree ν ι → List ι
  | .node _ items _ => items

def nest : Tree ν ι → List (Tree ν ι)
  | .node _ _ nest => nest

def addItem (tree : Tree ν ι) (item : ι) : Tree ν ι :=
  .node tree.name (tree.items ++ [item]) tree.nest

def addNested (tree nested : Tree ν ι) : Tree ν ι :=
  .node tree.name tree.items (tree.nest ++ [nested])

def join (front tree : Tree ν ι) : Tree ν ι :=
  .node front.name (front.items ++ tree.items) (front.nest ++ tree.nest)

private theorem join_addItem (front tree : Tree ν ι) (item : ι) :
    front.join (tree.addItem item) = (front.join tree).addItem item := by
  simp only [join, addItem, name, items, nest, append_assoc]

private theorem join_addNested (front tree nested : Tree ν ι) :
    front.join (tree.addNested nested) = (front.join tree).addNested nested := by
  simp only [join, addNested, name, items, nest, append_assoc]

theorem join_empty (tree : Tree ν ι) (other : ν) : tree.join (.node other [] []) = tree := by
  obtain ⟨name, items, nest⟩ := tree
  simp only [join, Tree.name, Tree.items, Tree.nest, append_nil]

end Tree

def Event.Alike : Event ν ι → Event ν ι → Prop
  | .start _, .start _ => True
  | .item _, .item _ => True
  | .close, .close => True
  | _, _ => False

/-- A tree that is being built, with its open parents. -/
structure Cursor (ν : Type u) (ι : Type v) : Type (max u v) where
  current : Tree ν ι
  parents : List (Tree ν ι)

namespace Cursor

section

variable (cursor : Cursor ν ι)

def start (name : ν) : Cursor ν ι :=
  ⟨.node name [] [], cursor.current :: cursor.parents⟩

def addItem (item : ι) : Cursor ν ι :=
  ⟨cursor.current.addItem item, cursor.parents⟩

def close : Cursor ν ι → Option (Cursor ν ι)
  | ⟨_, []⟩ => none
  | ⟨current, parent :: parents⟩ => some ⟨parent.addNested current, parents⟩

def step : Event ν ι → Option (Cursor ν ι)
  | .start name => some (cursor.start name)
  | .item item => some (cursor.addItem item)
  | .close => cursor.close

def run (events : List (Event ν ι)) : Option (Cursor ν ι) :=
  events.foldlM step cursor

def whole : Tree ν ι :=
  cursor.parents.foldl (fun inner outer => outer.addNested inner) cursor.current

end

section Building

variable {cursor other after : Cursor ν ι} {event otherEvent : Event ν ι}
  {events others : List (Event ν ι)}

theorem run_cons (cursor : Cursor ν ι) (event : Event ν ι) (events : List (Event ν ι)) :
    cursor.run (event :: events) = (cursor.step event).bind fun after => after.run events :=
  foldlM_cons

theorem run_append (cursor : Cursor ν ι) (first second : List (Event ν ι)) :
    cursor.run (first ++ second) = (cursor.run first).bind fun after => after.run second :=
  foldlM_append

theorem close_eq_none_iff : cursor.close = none ↔ cursor.parents = [] := by
  obtain ⟨current, parents⟩ := cursor
  cases parents with
  | nil => simp only [close]
  | cons parent parents => simp only [close, reduceCtorEq]

theorem close_eq_some_iff :
    cursor.close = some after ↔
      ∃ parent parents, cursor.parents = parent :: parents ∧
        after = ⟨parent.addNested cursor.current, parents⟩ := by
  obtain ⟨current, parents⟩ := cursor
  cases parents with
  | nil => simp only [close, reduceCtorEq, false_and, exists_false]
  | cons parent parents =>
    simp only [close, Option.some.injEq, cons.injEq]
    constructor
    · intro isAfter
      exact ⟨parent, parents, ⟨rfl, rfl⟩, isAfter.symm⟩
    · rintro ⟨_, _, ⟨rfl, rfl⟩, isAfter⟩
      exact isAfter.symm

private theorem addItem_injective {item otherItem : ι}
    (same : cursor.addItem item = other.addItem otherItem) : cursor = other ∧ item = otherItem := by
  obtain ⟨⟨name, items, nest⟩, parents⟩ := cursor
  obtain ⟨⟨otherName, otherItems, otherNest⟩, otherParents⟩ := other
  simp only [addItem, Tree.addItem, Tree.name, Tree.items, Tree.nest, Cursor.mk.injEq,
    Tree.node.injEq] at same
  obtain ⟨⟨sameName, sameItems, sameNest⟩, sameParents⟩ := same
  obtain ⟨sameFront, sameLast⟩ := append_inj' sameItems rfl
  rw [sameName, sameFront, sameNest, sameParents]
  exact ⟨rfl, head_eq_of_cons_eq sameLast⟩

private theorem close_injective (isAfter : cursor.close = some after)
    (isOther : other.close = some after) : cursor = other := by
  obtain ⟨⟨name, items, nest⟩, parents, around, rfl⟩ := close_eq_some_iff.mp isAfter
  obtain ⟨⟨otherName, otherItems, otherNest⟩, otherParents, otherAround, same⟩ :=
    close_eq_some_iff.mp isOther
  simp only [Tree.addNested, Tree.name, Tree.items, Tree.nest, Cursor.mk.injEq,
    Tree.node.injEq] at same
  obtain ⟨⟨sameName, sameItems, sameNest⟩, sameParents⟩ := same
  obtain ⟨sameFront, sameLast⟩ := append_inj' sameNest rfl
  obtain ⟨current, _⟩ := cursor
  obtain ⟨otherCurrent, _⟩ := other
  dsimp only at around otherAround sameLast
  rw [around, otherAround, sameName, sameItems, sameFront, sameParents, head_eq_of_cons_eq sameLast]

theorem step_injective (alike : event.Alike otherEvent) (isAfter : cursor.step event = some after)
    (isOther : other.step otherEvent = some after) : cursor = other ∧ event = otherEvent := by
  cases event with
  | start name =>
    cases otherEvent with
    | start otherName =>
      have same := Option.some.inj (isAfter.trans isOther.symm)
      simp only [start, Cursor.mk.injEq, Tree.node.injEq, cons.injEq] at same
      obtain ⟨⟨sameName, -⟩, sameCurrent, sameParents⟩ := same
      obtain ⟨current, parents⟩ := cursor
      obtain ⟨otherCurrent, otherParents⟩ := other
      dsimp only at sameCurrent sameParents
      rw [sameName, sameCurrent, sameParents]
      exact ⟨rfl, rfl⟩
    | item otherItem | close => exact alike.elim
  | item item =>
    cases otherEvent with
    | start otherName => exact alike.elim
    | item otherItem =>
      obtain ⟨sameCursor, sameItem⟩ :=
        addItem_injective (Option.some.inj (isAfter.trans isOther.symm))
      exact ⟨sameCursor, congrArg Event.item sameItem⟩
    | close => exact alike.elim
  | close =>
    cases otherEvent with
    | start otherName | item otherItem => exact alike.elim
    | close => exact ⟨close_injective isAfter isOther, rfl⟩

private theorem run_injective (alike : List.Forall₂ Event.Alike events others)
    (isAfter : cursor.run events = some after) (isOther : other.run others = some after) :
    cursor = other ∧ events = others := by
  induction alike generalizing cursor other with
  | nil => exact ⟨Option.some.inj (isAfter.trans isOther.symm), rfl⟩
  | cons first rest ih =>
    rw [run_cons, Option.bind_eq_some_iff] at isAfter isOther
    obtain ⟨next, isNext, isAfter⟩ := isAfter
    obtain ⟨otherNext, isOtherNext, isOther⟩ := isOther
    obtain ⟨rfl, rfl⟩ := ih isAfter isOther
    obtain ⟨sameCursor, rfl⟩ := step_injective first isNext isOtherNext
    exact ⟨sameCursor, rfl⟩

end Building

end Cursor

section Collecting

variable {κ : Type w}

mutual

def Tree.collect (ofTree : ν → List ι → List κ) : Tree ν ι → List κ
  | .node name items nest => ofTree name items ++ collectAll ofTree nest

def collectAll (ofTree : ν → List ι → List κ) : List (Tree ν ι) → List κ
  | [] => []
  | tree :: trees => tree.collect ofTree ++ collectAll ofTree trees

end

def Tree.allItems (tree : Tree ν ι) : List ι := tree.collect fun _ items => items

private theorem collectAll_append (ofTree : ν → List ι → List κ) (first second : List (Tree ν ι)) :
    collectAll ofTree (first ++ second) = collectAll ofTree first ++ collectAll ofTree second := by
  induction first with
  | nil => rfl
  | cons tree first ih => rw [cons_append, collectAll, collectAll, ih, append_assoc]

def Cursor.collect (ofTree : ν → List ι → List κ) (cursor : Cursor ν ι) : List κ :=
  cursor.current.collect ofTree ++ collectAll ofTree cursor.parents

structure Grows (ofTree : ν → List ι → List κ) (ofEvent : Event ν ι → List κ) : Prop where
  start : ∀ name, ofTree name [] = ofEvent (.start name)
  item : ∀ name items item,
    ofTree name (items ++ [item]) = ofTree name items ++ ofEvent (.item item)
  close : ofEvent .close = []

variable {ofTree : ν → List ι → List κ} {ofEvent : Event ν ι → List κ} {cursor after : Cursor ν ι}
  {event : Event ν ι} {events : List (Event ν ι)}

theorem Grows.step (grows : Grows ofTree ofEvent) (isAfter : cursor.step event = some after) :
    (after.collect ofTree).Perm (cursor.collect ofTree ++ ofEvent event) := by
  obtain ⟨⟨name, items, nest⟩, parents⟩ := cursor
  cases event with
  | start started =>
    obtain rfl := Option.some.inj isAfter
    simp only [Cursor.start, Cursor.collect, Tree.collect, collectAll, append_nil, grows.start]
    exact perm_append_comm
  | item item =>
    obtain rfl := Option.some.inj isAfter
    simp only [Cursor.addItem, Tree.addItem, Tree.name, Tree.items, Tree.nest, Cursor.collect,
      Tree.collect, grows.item, append_assoc]
    apply List.Perm.append_left
    rw [← append_assoc (collectAll ofTree nest)]
    exact perm_append_comm
  | close =>
    obtain ⟨⟨outerName, outerItems, outerNest⟩, around, rfl, rfl⟩ :=
      Cursor.close_eq_some_iff.mp isAfter
    simp only [Tree.addNested, Tree.name, Tree.items, Tree.nest, Cursor.collect, Tree.collect,
      collectAll, collectAll_append, grows.close, append_nil, append_assoc]
    have swapped := perm_append_comm_assoc (ofTree outerName outerItems ++
      collectAll ofTree outerNest) (ofTree name items ++ collectAll ofTree nest)
      (collectAll ofTree around)
    simpa only [append_assoc] using swapped

theorem Grows.run (grows : Grows ofTree ofEvent) (isAfter : cursor.run events = some after) :
    (after.collect ofTree).Perm (cursor.collect ofTree ++ events.flatMap ofEvent) := by
  induction events generalizing cursor with
  | nil =>
    obtain rfl := Option.some.inj isAfter
    rw [flatMap_nil, append_nil]
  | cons event events ih =>
    rw [Cursor.run_cons, Option.bind_eq_some_iff] at isAfter
    obtain ⟨next, isNext, isAfter⟩ := isAfter
    rw [flatMap_cons, ← append_assoc]
    exact (ih isAfter).trans ((grows.step isNext).append_right _)

end Collecting

def Event.names : Event ν ι → List ν
  | .start name => [name]
  | _ => []

def Event.items : Event ν ι → List ι
  | .item single => [single]
  | _ => []

theorem grows_names :
    Grows (fun name (_ : List ι) => [name]) (Event.names : Event ν ι → List ν) where
  start := fun _ => rfl
  item := fun _ _ _ => (append_nil _).symm
  close := rfl

theorem grows_items : Grows (fun (_ : ν) items => items) (Event.items : Event ν ι → List ι) where
  start := fun _ => rfl
  item := fun _ _ _ => rfl
  close := rfl

section Members

variable {events : List (Event ν ι)}

theorem mem_names_iff {name : ν} : name ∈ events.flatMap Event.names ↔ .start name ∈ events := by
  constructor
  · intro member
    obtain ⟨event, isEvent, isName⟩ := mem_flatMap.mp member
    cases event with
    | start found => rwa [mem_singleton.mp isName]
    | item found | close => cases isName
  · exact fun isEvent => mem_flatMap.mpr ⟨_, isEvent, mem_singleton_self name⟩

private theorem mem_items_iff {single : ι} :
    single ∈ events.flatMap Event.items ↔ .item single ∈ events := by
  constructor
  · intro member
    obtain ⟨event, isEvent, isItem⟩ := mem_flatMap.mp member
    cases event with
    | start found => cases isItem
    | item found => rwa [mem_singleton.mp isItem]
    | close => cases isItem
  · exact fun isEvent => mem_flatMap.mpr ⟨_, isEvent, mem_singleton_self single⟩

end Members

def Event.closes : Event ν ι → List Unit
  | .close => [()]
  | _ => []

section Counting

variable {cursor after : Cursor ν ι} {events others : List (Event ν ι)}

theorem Cursor.run_depth (ran : cursor.run events = some after) :
    after.parents.length + (events.flatMap Event.closes).length =
      cursor.parents.length + (events.flatMap Event.names).length := by
  induction events generalizing cursor with
  | nil =>
    rw [Option.some.inj ran]
    rfl
  | cons event events ih =>
    rw [run_cons, Option.bind_eq_some_iff] at ran
    obtain ⟨next, isNext, ran⟩ := ran
    have rest := ih ran
    rw [flatMap_cons, flatMap_cons, length_append, length_append]
    cases event with
    | start name =>
      rw [← Option.some.inj isNext] at rest
      simp only [start, length_cons, Event.closes, Event.names, length_nil] at rest ⊢
      omega
    | item single =>
      rw [← Option.some.inj isNext] at rest
      simp only [addItem, Event.closes, Event.names, length_nil] at rest ⊢
      omega
    | close =>
      obtain ⟨parent, parents, isParents, rfl⟩ := close_eq_some_iff.mp isNext
      simp only [isParents, Event.closes, Event.names, length_nil, length_cons] at rest ⊢
      omega

theorem length_eq_counts (events : List (Event ν ι)) :
    events.length = (events.flatMap Event.names).length + (events.flatMap Event.items).length +
      (events.flatMap Event.closes).length := by
  induction events with
  | nil => rfl
  | cons event events ih =>
    rw [length_cons, ih]
    cases event <;>
      simp only [flatMap_cons, Event.names, Event.items, Event.closes, nil_append,
        singleton_append, length_cons] <;>
      omega

private theorem alike_of_counts (single : events.length ≤ 1)
    (names : (events.flatMap Event.names).length = (others.flatMap Event.names).length)
    (items : (events.flatMap Event.items).length = (others.flatMap Event.items).length)
    (closes : (events.flatMap Event.closes).length = (others.flatMap Event.closes).length) :
    List.Forall₂ Event.Alike events others := by
  have sameLength : events.length = others.length := by
    rw [length_eq_counts events, length_eq_counts others, names, items, closes]
  match events, others with
  | [], [] => exact .nil
  | [event], [other] =>
    refine .cons ?_ .nil
    cases event <;> cases other <;>
      simp [Event.names, Event.items, Event.closes] at names items closes <;>
      exact trivial
  | _ :: _ :: _, _ => exact absurd single (by simp)

end Counting

section Parts

variable {α : Type*} {κ : Type w} {parts : List α}

private theorem forall_eq_of_flatMap_eq {first second : α → List κ}
    (lengths : ∀ part ∈ parts, (first part).length = (second part).length)
    (same : parts.flatMap first = parts.flatMap second) :
    ∀ part ∈ parts, first part = second part := by
  induction parts with
  | nil => exact fun _ => nofun
  | cons part parts ih =>
    rw [forall_mem_cons] at lengths ⊢
    obtain ⟨sameFirst, sameRest⟩ := append_inj same lengths.1
    exact ⟨sameFirst, ih lengths.2 sameRest⟩

variable {cursor after : Cursor ν ι} {events others : List (Event ν ι)}
  {first second : α → List (Event ν ι)} {ofEvent : Event ν ι → List κ}

theorem forall_count_eq (le : ∀ part ∈ parts, ((first part).flatMap ofEvent).length ≤
      ((second part).flatMap ofEvent).length)
    (same : ((parts.flatMap first).flatMap ofEvent).length =
      ((parts.flatMap second).flatMap ofEvent).length) :
    ∀ part ∈ parts, ((first part).flatMap ofEvent).length =
      ((second part).flatMap ofEvent).length := by
  by_contra different
  push Not at different
  obtain ⟨part, member, notSame⟩ := different
  have less := sum_lt_sum _ _ le ⟨part, member, Nat.lt_of_le_of_ne (le part member) notSame⟩
  rw [flatMap_assoc, flatMap_assoc, length_flatMap, length_flatMap] at same
  exact Nat.ne_of_lt less same

theorem Grows.perm {ofTree : ν → List ι → List κ} (grows : Grows ofTree ofEvent)
    (ran : cursor.run events = some after) (ranOther : cursor.run others = some after) :
    (events.flatMap ofEvent).Perm (others.flatMap ofEvent) :=
  (perm_append_left_iff _).mp ((grows.run ran).symm.trans (grows.run ranOther))

section

variable (ran : cursor.run events = some after) (ranOther : cursor.run others = some after)

include ran ranOther

theorem start_mem_iff {name : ν} : .start name ∈ events ↔ .start name ∈ others := by
  rw [← mem_names_iff, ← mem_names_iff, (grows_names.perm ran ranOther).mem_iff]

theorem item_mem_iff {single : ι} : .item single ∈ events ↔ .item single ∈ others := by
  rw [← mem_items_iff, ← mem_items_iff, (grows_items.perm ran ranOther).mem_iff]

theorem length_closes_eq :
    (events.flatMap Event.closes).length = (others.flatMap Event.closes).length := by
  have depth := Cursor.run_depth ran
  have otherDepth := Cursor.run_depth ranOther
  have names := (grows_names.perm ran ranOther).length_eq
  omega

end

theorem forall_eq_of_counts (ran : cursor.run (parts.flatMap first) = some after)
    (ranSecond : cursor.run (parts.flatMap second) = some after)
    (single : ∀ part ∈ parts, (first part).length ≤ 1)
    (names : ∀ part ∈ parts, ((first part).flatMap Event.names).length =
      ((second part).flatMap Event.names).length)
    (items : ∀ part ∈ parts, ((first part).flatMap Event.items).length =
      ((second part).flatMap Event.items).length)
    (closes : ∀ part ∈ parts, ((first part).flatMap Event.closes).length =
      ((second part).flatMap Event.closes).length) : ∀ part ∈ parts, first part = second part := by
  have alike : ∀ part ∈ parts, List.Forall₂ Event.Alike (first part) (second part) :=
    fun part member => alike_of_counts (single part member) (names part member)
      (items part member) (closes part member)
  have alikeAll : List.Forall₂ Event.Alike (parts.flatMap first) (parts.flatMap second) := by
    have related : List.Forall₂ (fun part other => part = other ∧ part ∈ parts) parts parts :=
      List.forall₂_same.mpr fun part member => ⟨rfl, member⟩
    apply rel_flatMap related
    rintro part _ ⟨rfl, member⟩
    exact alike part member
  exact forall_eq_of_flatMap_eq (fun part member => (alike part member).length_eq)
    (Cursor.run_injective alikeAll ran ranSecond).2

end Parts

mutual

def Tree.events : Tree ν ι → List (Event ν ι)
  | .node name items nest => .start name :: (items.map .item ++ eventsOf nest ++ [.close])

def eventsOf : List (Tree ν ι) → List (Event ν ι)
  | [] => []
  | tree :: trees => tree.events ++ eventsOf trees

end

def Tree.contents (tree : Tree ν ι) : List (Event ν ι) := tree.items.map .item ++ eventsOf tree.nest

namespace Cursor

private theorem run_items (cursor : Cursor ν ι) (items : List ι) :
    cursor.run (items.map .item) =
      some ⟨.node cursor.current.name (cursor.current.items ++ items) cursor.current.nest,
        cursor.parents⟩ := by
  induction items generalizing cursor with
  | nil =>
    obtain ⟨⟨name, items, nest⟩, parents⟩ := cursor
    rw [append_nil]
    rfl
  | cons item items ih =>
    rw [map_cons, run_cons, step, Option.bind_some, ih]
    simp only [addItem, Tree.addItem, Tree.name, Tree.items, Tree.nest, append_assoc,
      cons_append, nil_append]

private theorem run_eventsOf {trees : List (Tree ν ι)} (cursor : Cursor ν ι)
    (each : ∀ tree ∈ trees, ∀ cursor : Cursor ν ι,
      cursor.run tree.events = some ⟨cursor.current.addNested tree, cursor.parents⟩) :
    cursor.run (eventsOf trees) =
      some ⟨.node cursor.current.name cursor.current.items (cursor.current.nest ++ trees),
        cursor.parents⟩ := by
  induction trees generalizing cursor with
  | nil =>
    obtain ⟨⟨name, items, nest⟩, parents⟩ := cursor
    rw [append_nil]
    rfl
  | cons tree trees ih =>
    rw [eventsOf, run_append, each tree mem_cons_self, Option.bind_some,
      ih _ fun other member => each other (mem_cons_of_mem _ member)]
    simp only [Tree.addNested, Tree.name, Tree.items, Tree.nest, append_assoc,
      cons_append, nil_append]

private theorem run_events (cursor : Cursor ν ι) : (tree : Tree ν ι) →
    cursor.run tree.events = some ⟨cursor.current.addNested tree, cursor.parents⟩
  | .node name items nest => by
      rw [Tree.events, run_cons, step, Option.bind_some, run_append, run_append, run_items,
        Option.bind_some, run_eventsOf _ fun tree _ cursor => run_events cursor tree,
        Option.bind_some]
      rfl

theorem run_contents (tree : Tree ν ι) :
    (⟨.node tree.name [] [], []⟩ : Cursor ν ι).run tree.contents = some ⟨tree, []⟩ := by
  obtain ⟨name, items, nest⟩ := tree
  rw [Tree.contents, run_append, run_items, Option.bind_some,
    run_eventsOf _ fun tree _ cursor => run_events cursor tree]
  rfl

end Cursor

def Tree.nestedNames (tree : Tree ν ι) : List ν := collectAll (fun name _ => [name]) tree.nest

section Contents

variable {tree : Tree ν ι}

theorem mem_nestedNames_of_start {name : ν} (member : .start name ∈ tree.contents) :
    name ∈ tree.nestedNames := by
  have collected := grows_names.run (Cursor.run_contents tree)
  obtain ⟨ofTree, items, nest⟩ := tree
  simp only [Cursor.collect, Tree.collect, collectAll, Tree.name, append_nil,
    singleton_append, perm_cons] at collected
  exact collected.mem_iff.mpr (mem_names_iff.mpr member)

theorem mem_allItems_of_item {single : ι} (member : .item single ∈ tree.contents) :
    single ∈ tree.allItems := by
  have collected := grows_items.run (Cursor.run_contents tree)
  simp only [Cursor.collect, Tree.collect, collectAll, append_nil, nil_append] at collected
  exact collected.mem_iff.mpr (mem_items_iff.mpr member)

end Contents

namespace Cursor

def ontoParents (front : Tree ν ι) : List (Tree ν ι) → List (Tree ν ι)
  | [] => []
  | [outermost] => [front.join outermost]
  | parent :: next :: parents => parent :: ontoParents front (next :: parents)

def onto (front : Tree ν ι) : Cursor ν ι → Cursor ν ι
  | ⟨current, []⟩ => ⟨front.join current, []⟩
  | ⟨current, parent :: parents⟩ => ⟨current, ontoParents front (parent :: parents)⟩

theorem step_onto (front : Tree ν ι) (cursor : Cursor ν ι) (event : Event ν ι) :
    (cursor.onto front).step event = (cursor.step event).map (onto front) := by
  obtain ⟨current, parents⟩ := cursor
  cases event with
  | start name =>
    cases parents with
    | nil | cons parent parents => rfl
  | item item =>
    cases parents with
    | nil => simp only [step, onto, addItem, Option.map_some, Tree.join_addItem]
    | cons parent parents => rfl
  | close =>
    match parents with
    | [] => rfl
    | [outermost] =>
      simp only [step, onto, ontoParents, close, Option.map_some, Tree.join_addNested]
    | parent :: next :: parents => rfl

private theorem run_onto (front : Tree ν ι) (cursor : Cursor ν ι) (events : List (Event ν ι)) :
    (cursor.onto front).run events = (cursor.run events).map (onto front) := by
  induction events generalizing cursor with
  | nil => rfl
  | cons event events ih =>
    rw [run_cons, run_cons, step_onto]
    cases cursor.step event with
    | none => rfl
    | some next => exact ih next

theorem run_renamed {name : ν} {tree : Tree ν ι} {events : List (Event ν ι)}
    (ran : (⟨.node name [] [], []⟩ : Cursor ν ι).run events = some ⟨tree, []⟩) (other : ν) :
    (⟨.node other [] [], []⟩ : Cursor ν ι).run events =
      some ⟨.node other tree.items tree.nest, []⟩ := by
  have renamed := run_onto (.node other [] []) ⟨.node name [] [], []⟩ events
  rw [ran] at renamed
  exact renamed

private theorem foldl_ontoParents (front parent : Tree ν ι) (current : Tree ν ι)
    (parents : List (Tree ν ι)) :
    (ontoParents front (parent :: parents)).foldl (fun inner outer => outer.addNested inner)
        current =
      front.join ((parent :: parents).foldl (fun inner outer => outer.addNested inner)
        current) := by
  induction parents generalizing current parent with
  | nil => exact (Tree.join_addNested front parent current).symm
  | cons next parents ih => exact ih next (parent.addNested current)

theorem collect_whole {κ : Type w} (ofTree : ν → List ι → List κ) (cursor : Cursor ν ι) :
    (cursor.whole.collect ofTree).Perm (cursor.collect ofTree) := by
  obtain ⟨current, parents⟩ := cursor
  induction parents generalizing current with
  | nil =>
    rw [collect, collectAll, append_nil]
    exact List.Perm.refl _
  | cons parent parents ih =>
    refine (ih (parent.addNested current)).trans ?_
    obtain ⟨name, items, nest⟩ := parent
    simp only [collect, Tree.addNested, Tree.name, Tree.items, Tree.nest, Tree.collect,
      collectAll, collectAll_append, append_nil, append_assoc]
    have swapped := perm_append_comm_assoc (ofTree name items ++ collectAll ofTree nest)
      (current.collect ofTree) (collectAll ofTree parents)
    simpa only [append_assoc] using swapped

theorem whole_onto (front : Tree ν ι) (cursor : Cursor ν ι) :
    (cursor.onto front).whole = front.join cursor.whole := by
  obtain ⟨current, parents⟩ := cursor
  cases parents with
  | nil => rfl
  | cons parent parents => exact foldl_ontoParents front parent current parents

end Cursor

end Nesting
