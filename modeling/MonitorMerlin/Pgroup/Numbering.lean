import MonitorMerlin.Pgroup.Objects

/-! # The loop that numbers objects -/

namespace MonitorMerlin

open List Tally

def written {α : Type} (map : Finset Nat) (value : Nat → α) (items : List α) (count id : Nat) :
    Option α :=
  if id < count ∧ id ∈ map then items[id]?.map fun _ => value id else items[id]?

section Written

variable {α : Type} {map : Finset Nat} {value : Nat → α} {items current : List α} {count id : Nat}

@[simp]
theorem written_zero : written map value items 0 id = items[id]? := by
  simp [written]

theorem written_of_mem (member : id ∈ map) (below : id < count) (within : id < items.length) :
    written map value items count id = some (value id) := by
  unfold written
  rw [if_pos ⟨below, member⟩, getElem?_eq_getElem within]
  rfl

theorem written_of_not_mem (other : id ∉ map) : written map value items count id = items[id]? :=
  if_neg fun both => other both.2

theorem written_succ (before : id ≠ count ∨ id ∉ map) :
    written map value items (count + 1) id = written map value items count id := by
  unfold written
  by_cases member : id ∈ map
  · have bound : id < count + 1 ↔ id < count := by
      have different := before.resolve_right (not_not.mpr member)
      omega
    simp only [bound]
  · rw [if_neg fun both => member both.2, if_neg fun both => member both.2]

theorem written_set (before : ∀ id, current[id]? = written map value items count id)
    (member : count ∈ map) :
    (current.set count (value count))[id]? = written map value items (count + 1) id := by
  by_cases same : count = id
  · subst same
    have lengths := before count
    unfold written at lengths ⊢
    rw [if_neg fun both => lt_irrefl _ both.1] at lengths
    rw [if_pos ⟨Nat.lt_succ_self _, member⟩, ← lengths, getElem?_set_self']
    rfl
  · rw [getElem?_set_ne same, before, written_succ (.inl (Ne.symm same))]

theorem written_written {larger : Finset Nat}
    (before : ∀ id, current[id]? = written map value items count id) (within : map ⊆ larger) :
    written larger value current count id = written larger value items count id := by
  have same := before id
  unfold written at same ⊢
  by_cases member : id ∈ map
  · by_cases below : id < count
    · rw [if_pos ⟨below, member⟩] at same
      rw [if_pos ⟨below, within member⟩, if_pos ⟨below, within member⟩, same, Option.map_map]
      rfl
    · rw [if_neg fun both => below both.1] at same ⊢
      rw [if_neg fun both => below both.1, same]
  · rw [if_neg fun both => member both.2] at same
    rw [same]

theorem length_of_written (after : ∀ id, current[id]? = written map value items count id) :
    current.length = items.length := by
  have sameEnd (id : Nat) : current.length ≤ id ↔ items.length ≤ id := by
    rw [← getElem?_eq_none_iff, ← getElem?_eq_none_iff, after id]
    unfold written
    split
    · rw [Option.map_eq_none_iff]
    · exact Iff.rfl
  exact le_antisymm ((sameEnd _).mpr le_rfl) ((sameEnd _).mp le_rfl)

end Written

structure Numbered
    (alloc group : Nat) (map : Finset Nat) (start : Numbering) (count : Nat)
    (numbering : Numbering) : Prop where
  next : numbering.next = rank map count
  idTable : ∀ id, numbering.idTable[id]? = written map (rank map) start.idTable count id
  id2pg : ∀ id, numbering.id2pg[id]? = written map (fun _ => some group) start.id2pg count id
  assign : ∀ row < alloc, ∀ index, numbering.assign row index = start.assign row index +
    Nat.count (fun id => id ∈ map ∧ rank map id % (row + 1) = index) count
  inherit : ∀ row < alloc, ∀ index, numbering.inherit row index = start.inherit row index +
    Nat.count (fun id => id ∈ map ∧ id % (row + 1) = index) count

section Numbering

variable {alloc group count : Nat} {map : Finset Nat} {start numbering : Numbering}

theorem Numbered.step (numbered : Numbered alloc group map start count numbering) :
    Numbered alloc group map start (count + 1) (numberObject alloc group map numbering count) := by
  unfold numberObject
  split_ifs with member
  · constructor
    · rw [rank_succ, if_pos member, numbered.next]
    · intro id
      rw [numbered.next]
      exact written_set numbered.idTable member
    · intro id
      exact written_set numbered.id2pg member
    · intro row within index
      dsimp only
      rw [bump_of_lt _ _ within, numbered.assign row within, Nat.count_succ, numbered.next]
      simp [member, Nat.add_assoc]
    · intro row within index
      dsimp only
      rw [bump_of_lt _ _ within, numbered.inherit row within, Nat.count_succ]
      simp [member, Nat.add_assoc]
  · have skipped (id : Nat) : id ≠ count ∨ id ∉ map := by
      by_cases same : id = count
      · exact .inr (same ▸ member)
      · exact .inl same
    constructor
    · rw [rank_succ, if_neg member, numbered.next, Nat.add_zero]
    · intro id
      rw [numbered.idTable, written_succ (skipped id)]
    · intro id
      rw [numbered.id2pg, written_succ (skipped id)]
    · intro row within index
      rw [numbered.assign row within, Nat.count_succ]
      simp [member]
    · intro row within index
      rw [numbered.inherit row within, Nat.count_succ]
      simp [member]

theorem Numbered.run (alloc group : Nat) (map : Finset Nat) (start : Numbering) (count : Nat)
    (fromZero : start.next = 0) :
    Numbered alloc group map start count
      ((List.range count).foldl (numberObject alloc group map) start) := by
  induction count with
  | zero =>
    constructor
    · exact fromZero
    · simp
    · simp
    · simp
    · simp
  | succ count ih =>
    rw [range_succ, foldl_append]
    exact ih.step

end Numbering

/-- What `pg_create_id_convtables` makes of a group. -/
structure Converted
    (alloc group total : Nat) (tables : ObjectTables) (id2pg : List (Option Nat))
    (result : ObjectTables × List (Option Nat)) : Prop where
  map : result.1.map = tables.map
  assigned : result.1.assigned = tables.assigned
  idTable : ∃ table, result.1.idTable = some table ∧
    ∀ id ∈ tables.map, table[id]? = some (rank tables.map id)
  id2pg : ∀ id, result.2[id]? = written tables.map (fun _ => some group) id2pg total id
  assign : ∀ row < alloc, ∀ index, result.1.assign row index =
    tables.assign row index + share (rank tables.map) tables.map row index
  inherit : ∀ row < alloc, ∀ index, result.1.inherit row index =
    tables.inherit row index + share id tables.map row index

theorem createIdTable_converted
    (alloc group total : Nat) {tables : ObjectTables} (id2pg : List (Option Nat))
    (bounded : ∀ id ∈ tables.map, id < total) :
    Converted alloc group total tables id2pg (createIdTable alloc group total tables id2pg) := by
  have numbered := Numbered.run alloc group tables.map
    ⟨0, replicate total (2 ^ 32 - 1), id2pg, tables.assign, tables.inherit⟩ total rfl
  refine ⟨rfl, rfl, ⟨_, rfl, ?_⟩, numbered.id2pg, ?_, ?_⟩
  · intro id member
    rw [numbered.idTable, written_of_mem member (bounded id member)]
    rw [length_replicate]
    exact bounded id member
  · intro row within index
    rw [share_eq_count _ _ _ bounded]
    exact numbered.assign row within index
  · intro row within index
    rw [share_eq_count _ _ _ bounded]
    exact numbered.inherit row within index

end MonitorMerlin
