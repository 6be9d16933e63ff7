import Mathlib.Data.List.Induction
import Mathlib.Data.List.Nodup

/-! # Collecting items under keys -/

namespace Grouping

open List

universe u v w

/-- Records that collect items by a key. -/
structure Collector (κ : Type u) (α : Type v) (ρ : Type w) where
  key : ρ → κ
  fresh : κ → α → ρ
  add : α → ρ → ρ
  Holds : ρ → α → Prop
  key_fresh : ∀ k item, key (fresh k item) = k
  key_add : ∀ item record, key (add item record) = key record
  holds_fresh : ∀ k item other, Holds (fresh k item) other ↔ other = item
  holds_add : ∀ item record other, Holds (add item record) other ↔ other = item ∨ Holds record other

namespace Collector

variable {κ : Type u} {α : Type v} {ρ : Type w}

/-- One record for each key, with its items. -/
structure Collects (c : Collector κ α ρ) (pairs : List (κ × α)) (records : List ρ) : Prop where
  nodup : (records.map c.key).Nodup
  keys : ∀ k, k ∈ records.map c.key ↔ k ∈ pairs.map Prod.fst
  holds : ∀ record ∈ records, ∀ item, c.Holds record item ↔ (c.key record, item) ∈ pairs

section Records

variable {c : Collector κ α ρ} {pairs : List (κ × α)} {records : List ρ} {k : κ} {item : α}

theorem Collects.nil : c.Collects [] [] where
  nodup := nodup_nil
  keys := fun _ => Iff.rfl
  holds := by
    intro record member
    cases member

variable {record : ρ}

theorem Collects.holds_other (collects : c.Collects pairs records) (member : record ∈ records)
    (other : c.key record ≠ k) (present : α) :
    c.Holds record present ↔ (c.key record, present) ∈ pairs ++ [(k, item)] := by
  rw [collects.holds record member present, mem_append, mem_singleton, Prod.mk.injEq]
  simp [other]

theorem Collects.append_fresh (collects : c.Collects pairs records) (new : k ∉ records.map c.key) :
    c.Collects (pairs ++ [(k, item)]) (records ++ [c.fresh k item]) := by
  have keys : (records ++ [c.fresh k item]).map c.key = records.map c.key ++ [k] := by
    rw [map_append, map_singleton, c.key_fresh]
  constructor
  · rw [keys, ← concat_eq_append]
    exact collects.nodup.concat new
  · intro other
    rw [keys, mem_append, collects.keys, map_append, mem_append, map_singleton]
  · intro record member present
    rcases mem_append.mp member with isOld | isNew
    · apply collects.holds_other isOld
      rintro rfl
      exact new (mem_map_of_mem isOld)
    · rw [mem_singleton.mp isNew, c.holds_fresh, c.key_fresh, mem_append,
        mem_singleton, Prod.mk.injEq]
      constructor
      · exact fun same => .inr ⟨rfl, same⟩
      · rintro (before | ⟨_, same⟩)
        · exact absurd ((collects.keys k).mpr (mem_map.mpr ⟨_, before, rfl⟩)) new
        · exact same

theorem Collects.add {before behind : List ρ}
    (collects : c.Collects pairs (before ++ record :: behind)) (item : α) :
    c.Collects (pairs ++ [(c.key record, item)]) (before ++ c.add item record :: behind) := by
  have keys : (before ++ c.add item record :: behind).map c.key =
      (before ++ record :: behind).map c.key := by
    rw [map_append, map_cons, c.key_add, map_append, map_cons]
  have inside : record ∈ before ++ record :: behind := by simp
  constructor
  · rw [keys]
    exact collects.nodup
  · intro k
    rw [keys, collects.keys, map_append, mem_append, map_singleton, mem_singleton]
    constructor
    · exact .inl
    · rintro (present | rfl)
      · exact present
      · exact (collects.keys _).mp (mem_map_of_mem inside)
  · have distinct := collects.nodup
    rw [map_append, map_cons, nodup_middle, nodup_cons, ← map_append] at distinct
    have untouched : ∀ other ∈ before ++ behind, ∀ present,
        c.Holds other present ↔ (c.key other, present) ∈ pairs ++ [(c.key record, item)] := by
      intro other member
      apply collects.holds_other
      · rcases mem_append.mp member with front | back
        · exact mem_append_left _ front
        · exact mem_append_right _ (mem_cons_of_mem _ back)
      · intro same
        exact distinct.1 (same ▸ mem_map_of_mem member)
    intro other member present
    rcases mem_append.mp member with front | rest
    · exact untouched other (mem_append_left _ front) present
    · rcases mem_cons.mp rest with rfl | back
      · rw [c.holds_add, c.key_add, collects.holds record inside, mem_append,
          mem_singleton, Prod.mk.injEq, or_comm]
        simp
      · exact untouched other (mem_append_right _ back) present

end Records

variable [DecidableEq κ] (c : Collector κ α ρ)

def insert (k : κ) (item : α) : List ρ → List ρ
  | [] => [c.fresh k item]
  | record :: records =>
    if c.key record = k then
      c.add item record :: records
    else
      record :: insert k item records

def collect (pairs : List (κ × α)) : List ρ :=
  pairs.foldl (fun records pair => c.insert pair.1 pair.2 records) []

variable {c} {k : κ} {item : α} {records : List ρ}

private theorem insert_of_notMem (new : k ∉ records.map c.key) :
    c.insert k item records = records ++ [c.fresh k item] := by
  induction records with
  | nil => rfl
  | cons record records ih =>
    rw [map_cons, mem_cons, not_or] at new
    rw [insert, if_neg (Ne.symm new.1), ih new.2, cons_append]

private theorem insert_of_mem (item : α) (old : k ∈ records.map c.key) :
    ∃ before record behind, records = before ++ record :: behind ∧ c.key record = k ∧
      c.insert k item records = before ++ c.add item record :: behind := by
  induction records with
  | nil => cases old
  | cons first records ih =>
    by_cases same : c.key first = k
    · refine ⟨[], first, records, rfl, same, ?_⟩
      rw [insert, if_pos same, nil_append]
    · have later : k ∈ records.map c.key := by
        rw [map_cons, mem_cons] at old
        exact old.resolve_left (Ne.symm same)
      obtain ⟨before, record, behind, rfl, isKey, result⟩ := ih later
      refine ⟨first :: before, record, behind, rfl, isKey, ?_⟩
      rw [insert, if_neg same, result, cons_append]

variable {pairs : List (κ × α)}

theorem Collects.insert (collects : c.Collects pairs records) (k : κ) (item : α) :
    c.Collects (pairs ++ [(k, item)]) (c.insert k item records) := by
  by_cases old : k ∈ records.map c.key
  · obtain ⟨before, record, behind, rfl, rfl, result⟩ := insert_of_mem item old
    rw [result]
    exact collects.add item
  · rw [insert_of_notMem old]
    exact collects.append_fresh old

theorem collect_collects (c : Collector κ α ρ) (pairs : List (κ × α)) :
    c.Collects pairs (c.collect pairs) := by
  induction pairs using reverseRecOn with
  | nil => exact Collects.nil
  | append_singleton pairs pair ih =>
    rw [collect, foldl_append]
    exact ih.insert pair.1 pair.2

def itemsOf (pairs : List (κ × α)) (k : κ) : List α :=
  ((pairs.filter fun pair => pair.1 = k).map Prod.snd).reverse

private theorem itemsOf_append_same (pairs : List (κ × α)) (pair : κ × α) :
    itemsOf (pairs ++ [pair]) pair.1 = pair.2 :: itemsOf pairs pair.1 := by
  simp [itemsOf]

private theorem itemsOf_append_other (pairs : List (κ × α)) {pair : κ × α} (other : k ≠ pair.1) :
    itemsOf (pairs ++ [pair]) k = itemsOf pairs k := by
  simp [itemsOf, other.symm]

private theorem itemsOf_of_notMem (new : k ∉ pairs.map Prod.fst) : itemsOf pairs k = [] := by
  have none : pairs.filter (fun pair => pair.1 = k) = [] := by
    rw [filter_eq_nil_iff]
    intro pair isPair same
    exact new (of_decide_eq_true same ▸ mem_map_of_mem isPair)
  rw [itemsOf, none]
  rfl

theorem count_itemsOf [DecidableEq α] (pairs : List (κ × α)) (k : κ) (item : α) :
    (itemsOf pairs k).count item = pairs.count (k, item) := by
  induction pairs using reverseRecOn with
  | nil => rfl
  | append_singleton pairs pair ih =>
    rw [count_append, count_singleton, ← ih]
    by_cases same : k = pair.1
    · have matched : (pair == (pair.1, item)) = (pair.2 == item) := by
        rw [Bool.eq_iff_iff, beq_iff_eq, beq_iff_eq, Prod.ext_iff]
        simp
      rw [same, itemsOf_append_same, count_cons, matched]
    · rw [itemsOf_append_other pairs same, if_neg]
      · rfl
      · rw [beq_iff_eq]
        exact fun equal => same (congrArg Prod.fst equal).symm

theorem collect_items (items : ρ → List α) (fresh : ∀ k item, items (c.fresh k item) = [item])
    (added : ∀ item record, items (c.add item record) = item :: items record)
    (pairs : List (κ × α)) :
    ∀ record ∈ c.collect pairs, items record = itemsOf pairs (c.key record) := by
  induction pairs using reverseRecOn with
  | nil =>
    intro record member
    cases member
  | append_singleton pairs pair ih =>
    have collects := collect_collects c pairs
    have inserted : c.collect (pairs ++ [pair]) = c.insert pair.1 pair.2 (c.collect pairs) := by
      rw [collect, foldl_append]
      rfl
    have unchanged : ∀ record ∈ c.collect pairs, c.key record ≠ pair.1 →
        items record = itemsOf (pairs ++ [pair]) (c.key record) := by
      intro record member different
      rw [itemsOf_append_other pairs different]
      exact ih record member
    intro record member
    rw [inserted] at member
    by_cases old : pair.1 ∈ (c.collect pairs).map c.key
    · obtain ⟨before, first, behind, split, isKey, result⟩ := insert_of_mem pair.2 old
      have distinct := collects.nodup
      rw [split, map_append, map_cons, nodup_middle, nodup_cons, ← map_append, isKey] at distinct
      rw [result, mem_append, mem_cons, or_left_comm, ← mem_append] at member
      rcases member with rfl | other
      · rw [added, c.key_add, isKey, itemsOf_append_same, ← isKey, ih first (by rw [split]; simp)]
      · apply unchanged record
        · rw [split, mem_append, mem_cons, or_left_comm, ← mem_append]
          exact .inr other
        · intro same
          exact distinct.1 (same ▸ mem_map_of_mem other)
    · rw [insert_of_notMem old, mem_append, mem_singleton] at member
      rcases member with isOld | rfl
      · apply unchanged record isOld
        intro same
        exact old (same ▸ mem_map_of_mem isOld)
      · rw [collects.keys] at old
        rw [fresh, c.key_fresh, itemsOf_append_same, itemsOf_of_notMem old]

end Collector

end Grouping
