import Mathlib.Data.List.Basic
import Mathlib.Logic.Function.Basic

/-! # Doubly linked lists in memory -/

namespace LinkedList

open List

universe u

variable {α : Type u}

structure Entry (α : Type u) where
  data : α
  next : Option Nat
  prev : Option Nat
  deriving DecidableEq, Repr

structure Heap (α : Type u) where
  cells : Nat → Option (Entry α)
  top : Nat
  unused : ∀ address, top ≤ address → cells address = none

namespace Heap

def empty : Heap α := ⟨fun _ => none, 0, fun _ _ => rfl⟩

def modify (heap : Heap α) (pointer : Option Nat) (change : Entry α → Entry α) : Heap α where
  cells := fun address =>
    if pointer = some address then (heap.cells address).map change else heap.cells address
  top := heap.top
  unused := by
    intro address above
    rw [heap.unused address above]
    split
    · rfl
    · rfl

def alloc (heap : Heap α) (entry : Entry α) : Heap α where
  cells := fun address => if address = heap.top then some entry else heap.cells address
  top := heap.top + 1
  unused := by
    intro address above
    rw [if_neg (by omega)]
    exact heap.unused address (by omega)

def free (heap : Heap α) (freed : Nat) : Heap α where
  cells := fun address => if address = freed then none else heap.cells address
  top := heap.top
  unused := by
    intro address above
    split
    · rfl
    · exact heap.unused address above

def dataAt (heap : Heap α) (address : Nat) : Option α := (heap.cells address).map Entry.data

end Heap

def insertBefore (heap : Heap α) (list : Option Nat) (data : α) : Heap α × Nat :=
  let created := heap.alloc ⟨data, none, none⟩
  match list with
  | none => (created, heap.top)
  | some first =>
    let prev := (created.cells first).bind Entry.prev
    let linked := created.modify prev fun entry => { entry with next := some heap.top }
    let inserted := linked.modify (some heap.top) fun entry =>
      { entry with prev := prev, next := some first }
    (inserted.modify (some first) fun entry => { entry with prev := some heap.top }, heap.top)

def remove (heap : Heap α) (head : Option Nat) (address : Nat) : Heap α × Option Nat :=
  match heap.cells address with
  | none => (heap, head)
  | some entry =>
    let first := if head = some address then entry.prev.or entry.next else head
    let skipped := heap.modify entry.prev fun before => { before with next := entry.next }
    let linked := skipped.modify entry.next fun after => { after with prev := entry.prev }
    (linked.free address, first)

theorem address_insertBefore (heap : Heap α) (list : Option Nat) (data : α) :
    (insertBefore heap list data).2 = heap.top := by
  unfold insertBefore
  cases list with
  | none | some first => rfl

private theorem dataAt_modify (heap : Heap α) (pointer : Option Nat) {change : Entry α → Entry α}
    (keeps : ∀ entry, (change entry).data = entry.data) (address : Nat) :
    (heap.modify pointer change).dataAt address = heap.dataAt address := by
  unfold Heap.dataAt Heap.modify
  simp only
  split
  · cases heap.cells address with
    | none => rfl
    | some entry => simp [keeps]
  · rfl

theorem dataAt_modify_data (heap : Heap α) (changed : Nat) (data : α) (address : Nat) :
    (heap.modify (some changed) fun entry => { entry with data := data }).dataAt address =
      if address = changed then (heap.dataAt address).map fun _ => data
      else heap.dataAt address := by
  unfold Heap.dataAt Heap.modify
  by_cases same : address = changed
  · simp [same, Function.comp_def]
  · have differs : ¬ (changed = address) := fun equal => same equal.symm
    simp [same, differs]

theorem dataAt_insertBefore (heap : Heap α) (list : Option Nat) (data : α) (address : Nat) :
    (insertBefore heap list data).1.dataAt address =
      if address = heap.top then some data else heap.dataAt address := by
  have created :
      (heap.alloc ⟨data, none, none⟩).dataAt address =
        if address = heap.top then some data else heap.dataAt address := by
    unfold Heap.dataAt Heap.alloc
    simp only
    split
    · rfl
    · rfl
  unfold insertBefore
  cases list with
  | none => exact created
  | some first =>
    simp only
    rw [dataAt_modify, dataAt_modify, dataAt_modify, created]
    · intro entry
      rfl
    · intro entry
      rfl
    · intro entry
      rfl

theorem dataAt_remove (heap : Heap α) (head : Option Nat) (removed address : Nat) :
    (remove heap head removed).1.dataAt address =
      if address = removed then none else heap.dataAt address := by
  unfold remove
  cases found : heap.cells removed with
  | none =>
    by_cases same : address = removed
    · simp [same, Heap.dataAt, found]
    · simp [same]
  | some entry =>
    have freed (linked : Heap α) :
        (linked.free removed).dataAt address =
          if address = removed then none else linked.dataAt address := by
      unfold Heap.dataAt Heap.free
      simp only
      split
      · rfl
      · rfl
    simp only
    rw [freed, dataAt_modify, dataAt_modify]
    · intro entry
      rfl
    · intro entry
      rfl

/-- A doubly linked list from `head` on. -/
structure IsList (heap : Heap α) (head : Option Nat) (addresses : List Nat) : Prop where
  head : addresses.head? = head
  nodup : addresses.Nodup
  linked : ∀ before address after, addresses = before ++ address :: after →
    ∃ data, heap.cells address = some ⟨data, after.head?, before.getLast?⟩

theorem isList_nil (heap : Heap α) : IsList heap none [] := by
  refine ⟨rfl, nodup_nil, ?_⟩
  intro before address after split
  exact absurd split (by simp)

variable {heap : Heap α} {head : Option Nat} {addresses : List Nat} {address : Nat}

section

variable (isList : IsList heap head addresses)

include isList

theorem IsList.allocated (member : address ∈ addresses) : (heap.cells address).isSome = true := by
  obtain ⟨before, after, split⟩ := append_of_mem member
  obtain ⟨data, found⟩ := isList.linked before address after split
  rw [found]
  rfl

theorem IsList.notMem_top : heap.top ∉ addresses := by
  intro member
  have allocated := isList.allocated member
  rw [heap.unused heap.top (Nat.le_refl _)] at allocated
  cases allocated

theorem IsList.modify_data (pointer : Option Nat) (data : α) :
    IsList (heap.modify pointer fun entry => { entry with data := data }) head addresses := by
  refine ⟨isList.head, isList.nodup, ?_⟩
  intro before address after split
  obtain ⟨old, found⟩ := isList.linked before address after split
  unfold Heap.modify
  simp only [found, Option.map_some]
  split
  · exact ⟨data, rfl⟩
  · exact ⟨old, rfl⟩

theorem IsList.cells_insertBefore (data : α) (address : Nat) :
    (insertBefore heap head data).1.cells address = if address = heap.top then
        some ⟨data, head, none⟩
      else if head = some address then
        (heap.cells address).map fun entry => { entry with prev := some heap.top }
      else
        heap.cells address := by
  unfold insertBefore
  cases first : head with
  | none => simp [Heap.alloc]
  | some top =>
    have isHead : addresses.head? = some top := isList.head.trans first
    have notNew : top ≠ heap.top := by
      rintro rfl
      exact isList.notMem_top (mem_of_mem_head? isHead)
    obtain ⟨rest, split⟩ : ∃ rest, addresses = top :: rest := head?_eq_some_iff.mp isHead
    obtain ⟨firstData, found⟩ := isList.linked [] top rest split
    have noPrev : ((heap.alloc ⟨data, none, none⟩).cells top).bind Entry.prev = none := by
      simp [Heap.alloc, notNew, found]
    simp only [noPrev]
    by_cases isNew : address = heap.top
    · simp [Heap.modify, Heap.alloc, isNew, notNew]
    · by_cases isTop : address = top
      · simp [Heap.modify, Heap.alloc, isTop, notNew, notNew.symm]
      · have differs : ¬ (top = address) := fun same => isTop same.symm
        have other : ¬ (heap.top = address) := fun same => isNew same.symm
        simp [Heap.modify, Heap.alloc, isNew, differs, other]

theorem IsList.insertBefore (data : α) :
    IsList (LinkedList.insertBefore heap head data).1
      (some (LinkedList.insertBefore heap head data).2) (heap.top :: addresses) := by
  rw [address_insertBefore]
  refine ⟨rfl, nodup_cons.mpr ⟨isList.notMem_top, isList.nodup⟩, ?_⟩
  intro before found after split
  rw [isList.cells_insertBefore data]
  cases before with
  | nil =>
    obtain ⟨isNew, isRest⟩ := cons.inj split
    rw [if_pos isNew.symm, ← isList.head, isRest]
    exact ⟨data, rfl⟩
  | cons first others =>
    obtain ⟨isNew, splitOld⟩ := cons.inj split
    have member : found ∈ addresses := by
      rw [splitOld]
      exact mem_append_right others mem_cons_self
    have notNew : found ≠ heap.top := by
      rintro rfl
      exact isList.notMem_top member
    obtain ⟨oldData, old⟩ := isList.linked others found after splitOld
    rw [if_neg notNew, ← isList.head, old]
    refine ⟨oldData, ?_⟩
    cases others with
    | nil =>
      rw [splitOld]
      simp [isNew]
    | cons second rest =>
      have notHead : addresses.head? ≠ some found := by
        intro isHead
        rw [splitOld] at isHead
        have nodup := isList.nodup
        rw [splitOld, Option.some.inj isHead] at nodup
        simp at nodup
      rw [if_neg notHead]
      simp

end

theorem cells_remove {removed : Nat} {entry : Entry α} (found : heap.cells removed = some entry)
    (other : address ≠ removed) :
    (remove heap head removed).1.cells address = (heap.cells address).map fun old =>
        ⟨old.data, if entry.prev = some address then entry.next else old.next,
          if entry.next = some address then entry.prev else old.prev⟩ := by
  unfold remove
  rw [found]
  simp only [Heap.free, if_neg other, Heap.modify]
  cases heap.cells address with
  | none => simp
  | some old =>
    split
    · split
      · rfl
      · rfl
    · split
      · rfl
      · rfl

variable {earlier later : List Nat} {removed : Nat}
  (isList : IsList heap head (earlier ++ removed :: later))

include isList

theorem IsList.head_remove : (earlier ++ later).head? = (remove heap head removed).2 := by
  obtain ⟨data, found⟩ := isList.linked earlier removed later rfl
  unfold LinkedList.remove
  simp only [found]
  cases earlier with
  | nil =>
    have isHead : head = some removed := isList.head.symm
    simp [isHead]
  | cons first rest =>
    have isHead : head = some first := isList.head.symm
    have notRemoved : head ≠ some removed := by
      intro same
      have nodup := isList.nodup
      rw [isHead] at same
      rw [Option.some.inj same] at nodup
      simp at nodup
    rw [if_neg notRemoved, isHead]
    rfl

theorem IsList.linked_remove_later {between after : List Nat}
    (split : later = between ++ address :: after) :
    ∃ data, (remove heap head removed).1.cells address =
      some ⟨data, after.head?, (earlier ++ between).getLast?⟩ := by
  obtain ⟨removedData, found⟩ := isList.linked earlier removed later rfl
  obtain ⟨data, old⟩ := isList.linked (earlier ++ removed :: between) address after (by
    rw [split]
    simp)
  have nodup := isList.nodup
  rw [split] at nodup
  have differs : address ≠ removed := by
    rintro rfl
    simp [nodup_append] at nodup
  have notBefore : earlier.getLast? ≠ some address := by
    intro isLast
    have member : address ∈ earlier := mem_of_mem_getLast? isLast
    rw [nodup_append] at nodup
    exact nodup.2.2 address member address (by simp) rfl
  refine ⟨data, ?_⟩
  rw [cells_remove found differs, old]
  simp only [Option.map_some, if_neg notBefore]
  cases between with
  | nil =>
    rw [split]
    simp
  | cons first rest =>
    have notFirst : first ≠ address := by
      rintro rfl
      rw [nodup_append] at nodup
      simp at nodup
    rw [split]
    simp [notFirst, getLast?_append, getLast?_cons_cons]

theorem IsList.linked_remove_earlier {before between : List Nat}
    (split : earlier = before ++ address :: between) :
    ∃ data, (remove heap head removed).1.cells address =
      some ⟨data, (between ++ later).head?, before.getLast?⟩ := by
  obtain ⟨removedData, found⟩ := isList.linked earlier removed later rfl
  obtain ⟨data, old⟩ := isList.linked before address (between ++ removed :: later) (by
    rw [split]
    simp)
  have nodup := isList.nodup
  rw [split] at nodup
  have differs : address ≠ removed := by
    rintro rfl
    simp [nodup_append] at nodup
  have notAfter : later.head? ≠ some address := by
    intro isHead
    have member : address ∈ later := mem_of_mem_head? isHead
    rw [nodup_append] at nodup
    exact nodup.2.2 address (by simp) address (mem_cons_of_mem removed member) rfl
  refine ⟨data, ?_⟩
  rw [cells_remove found differs, old]
  simp only [Option.map_some, if_neg notAfter]
  cases between with
  | nil =>
    rw [split]
    simp
  | cons first rest =>
    have notLast : earlier.getLast? ≠ some address := by
      intro isLast
      rw [split, getLast?_append_cons, getLast?_cons_cons] at isLast
      have member : address ∈ first :: rest := mem_of_mem_getLast? isLast
      rw [nodup_append, nodup_append, nodup_cons] at nodup
      exact nodup.1.2.1.1 member
    rw [if_neg notLast]
    rfl

theorem IsList.remove :
    IsList (LinkedList.remove heap head removed).1 (LinkedList.remove heap head removed).2
      (earlier ++ later) := by
  refine ⟨isList.head_remove, ?_, ?_⟩
  · apply List.Nodup.sublist _ isList.nodup
    exact List.Sublist.append_left (sublist_cons_self removed later) earlier
  · intro before address after split
    rcases append_eq_append_iff.mp split with
      ⟨between, isBefore, isLater⟩ | ⟨rest, isEarlier, isAfter⟩
    · rw [isBefore]
      exact isList.linked_remove_later isLater
    · cases rest with
      | nil =>
        rw [append_nil] at isEarlier
        rw [← isEarlier, ← append_nil earlier]
        exact isList.linked_remove_later isAfter.symm
      | cons first between =>
        obtain ⟨same, isRest⟩ := cons.inj isAfter
        rw [isRest]
        apply isList.linked_remove_earlier
        rw [isEarlier, same]

end LinkedList
