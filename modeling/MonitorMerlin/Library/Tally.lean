import Mathlib.Algebra.GroupWithZero.Nat
import Mathlib.Algebra.BigOperators.Group.Finset.Basic
import Mathlib.Data.Fintype.Basic
import Mathlib.Data.Int.CardIntervalMod
import Mathlib.Data.Nat.Count
import Mathlib.Order.Interval.Finset.Nat

/-! # Tallies -/

namespace Tally

open List hiding Disjoint

abbrev Table := Nat → Nat → Nat

def bump (rows : Nat) (cell : Nat → Nat) (table : Table) : Table :=
  fun row index => table row index + if row < rows ∧ cell row = index then 1 else 0

variable {rows row : Nat}

theorem bump_of_lt (cell : Nat → Nat) (table : Table) (within : row < rows) (index : Nat) :
    bump rows cell table row index = table row index + if cell row = index then 1 else 0 := by
  simp [bump, within]

/-- The items that fall to party `index` of `row + 1`. -/
def share (key : Nat → Nat) (items : Finset Nat) : Table :=
  fun row index => (items.filter fun item => key item % (row + 1) = index).card

@[simp]
theorem share_empty (key : Nat → Nat) (row index : Nat) : share key ∅ row index = 0 := by
  unfold share
  rw [Finset.filter_empty, Finset.card_empty]

theorem share_union {first second : Finset Nat} (key : Nat → Nat) (disjoint : Disjoint first second)
    (row index : Nat) :
    share key (first ∪ second) row index =
      share key first row index + share key second row index := by
  unfold share
  rw [Finset.filter_union, Finset.card_union_of_disjoint]
  exact Finset.disjoint_filter_filter disjoint

variable {items : Finset Nat} {item : Nat}

theorem share_insert (key : Nat → Nat) (new : item ∉ items) (row index : Nat) :
    share key (insert item items) row index =
      share key items row index + if key item % (row + 1) = index then 1 else 0 := by
  unfold share
  rw [Finset.filter_insert]
  split
  · rw [Finset.card_insert_of_notMem fun member => new (Finset.mem_filter.mp member).1]
  · rfl

theorem foldl_bump {items : List Nat} (distinct : items.Nodup) (table : Table)
    (within : row < rows) (index : Nat) :
    items.foldl (fun current item => bump rows (fun other => item % (other + 1)) current) table
        row index = table row index + share id items.toFinset row index := by
  induction items generalizing table with
  | nil => simp
  | cons item items ih =>
    obtain ⟨new, distinctItems⟩ := nodup_cons.mp distinct
    rw [foldl_cons, ih distinctItems, bump_of_lt _ _ within,
      toFinset_cons, share_insert _ (by rwa [mem_toFinset]), Nat.add_assoc,
      Nat.add_comm (share _ _ _ _)]
    rfl

theorem sum_share (key : Nat → Nat) (items : Finset Nat) (row : Nat) :
    ∑ index ∈ Finset.range (row + 1), share key items row index = items.card := by
  unfold share
  apply (Finset.card_eq_sum_card_fiberwise _).symm
  intro item _
  rw [Finset.mem_coe, Finset.mem_range]
  exact Nat.mod_lt _ (Nat.succ_pos row)

theorem share_zero (key : Nat → Nat) (items : Finset Nat) : share key items 0 0 = items.card := by
  have total := sum_share key items 0
  rwa [Finset.sum_range_one] at total

/-- The number of smaller items. -/
def rank (items : Finset Nat) (item : Nat) : Nat := Nat.count (· ∈ items) item

theorem rank_succ (items : Finset Nat) (item : Nat) :
    rank items (item + 1) = rank items item + if item ∈ items then 1 else 0 := Nat.count_succ _ _

theorem rank_eq_card (items : Finset Nat) (item : Nat) :
    rank items item = (items.filter (· < item)).card := by
  unfold rank
  rw [Nat.count_eq_card_filter_range]
  congr 1
  ext other
  simp only [Finset.mem_filter, Finset.mem_range]
  exact and_comm

theorem rank_lt_card (member : item ∈ items) : rank items item < items.card := by
  rw [rank_eq_card]
  apply Finset.card_lt_card
  rw [Finset.filter_ssubset]
  exact ⟨item, member, lt_irrefl item⟩

theorem rank_of_order {number : Nat → Nat} (below : ∀ item ∈ items, number item < items.card)
    (ordered : ∀ first ∈ items, ∀ second ∈ items, first < second → number first < number second)
    (member : item ∈ items) : number item = rank items item := by
  have injective : Set.InjOn number items := by
    intro first memberFirst second memberSecond same
    rcases Nat.lt_trichotomy first second with less | equal | greater
    · exact absurd same (ordered first memberFirst second memberSecond less).ne
    · exact equal
    · exact absurd same (ordered second memberSecond first memberFirst greater).ne'
  have smaller : (items.filter (· < item)).card ≤ (Finset.range (number item)).card := by
    apply Finset.card_le_card_of_injOn number
    · intro other otherMember
      obtain ⟨inItems, less⟩ := Finset.mem_filter.mp otherMember
      exact Finset.mem_coe.mpr (Finset.mem_range.mpr (ordered other inItems item member less))
    · exact injective.mono (Finset.coe_subset.mpr (Finset.filter_subset _ _))
  have larger : (items.filter (¬ · < item)).card ≤ (Finset.Ico (number item) items.card).card := by
    apply Finset.card_le_card_of_injOn number
    · intro other otherMember
      obtain ⟨inItems, notLess⟩ := Finset.mem_filter.mp otherMember
      apply Finset.mem_coe.mpr (Finset.mem_Ico.mpr ⟨_, below other inItems⟩)
      rcases (not_lt.mp notLess).eq_or_lt with same | less
      · rw [same]
      · exact (ordered item member other inItems less).le
    · exact injective.mono (Finset.coe_subset.mpr (Finset.filter_subset _ _))
  have total := Finset.card_filter_add_card_filter_not (s := items) (· < item)
  have bound := below item member
  rw [Finset.card_range] at smaller
  rw [Nat.card_Ico] at larger
  rw [rank_eq_card]
  omega

variable {sets : List (Finset Nat)}

theorem mem_foldr_union : item ∈ sets.foldr (· ∪ ·) ∅ ↔ ∃ items ∈ sets, item ∈ items := by
  induction sets with
  | nil => simp
  | cons items sets ih => simp [ih]

theorem sum_share_of_disjoint (key : Nat → Nat) (disjoint : sets.Pairwise Disjoint)
    (row index : Nat) :
    (sets.map fun items => share key items row index).sum =
      share key (sets.foldr (· ∪ ·) ∅) row index := by
  induction sets with
  | nil => exact (share_empty key row index).symm
  | cons items sets ih =>
    obtain ⟨apart, disjointSets⟩ := pairwise_cons.mp disjoint
    rw [map_cons, sum_cons, ih disjointSets, foldr_cons, share_union]
    rw [Finset.disjoint_left]
    intro item member memberUnion
    obtain ⟨other, inSets, inOther⟩ := mem_foldr_union.mp memberUnion
    exact Finset.disjoint_left.mp (apart other inSets) member inOther

theorem share_eq_count {total : Nat} (key : Nat → Nat) (row index : Nat)
    (bounded : ∀ item ∈ items, item < total) :
    share key items row index =
      Nat.count (fun item => item ∈ items ∧ key item % (row + 1) = index) total := by
  rw [Nat.count_eq_card_filter_range]
  unfold share
  congr 1
  ext item
  simp only [Finset.mem_filter, Finset.mem_range]
  constructor
  · rintro ⟨member, falls⟩
    exact ⟨bounded item member, member, falls⟩
  · rintro ⟨_, member, falls⟩
    exact ⟨member, falls⟩

theorem card_filter_update {κ : Type*} {β : Type*} [Fintype κ] [DecidableEq κ]
    (holds : κ → β → Prop) [∀ key value, Decidable (holds key value)]
    (cells : κ → β) (key : κ) (value : β) :
    ((Finset.univ.filter fun other => holds other (Function.update cells key value other)).card :
        Int) =
      (Finset.univ.filter fun other => holds other (cells other)).card -
        (if holds key (cells key) then 1 else 0) + (if holds key value then 1 else 0) := by
  have split (values : κ → β) :
      ((Finset.univ.filter fun other => holds other (values other)).card : Int) =
        ((Finset.univ.erase key).filter fun other => holds other (values other)).card +
          (if holds key (values key) then 1 else 0) := by
    rw [← Finset.insert_erase (Finset.mem_univ key), Finset.filter_insert]
    split
    · rw [Finset.card_insert_of_notMem (by simp)]
      simp
    · simp
  have others : ((Finset.univ.erase key).filter fun other =>
          holds other (Function.update cells key value other)) =
        (Finset.univ.erase key).filter fun other => holds other (cells other) := by
    apply Finset.filter_congr
    intro other member
    rw [Function.update_of_ne (Finset.ne_of_mem_erase member)]
  rw [split, others, split cells, Function.update_self]
  omega

universe u v w

variable {σ : Type u} {α : Type v} {β : Type w} {step : σ → α → σ} {state : σ}

theorem foldl_unchanged {read : σ → β}
    (unchanged : ∀ state item, read (step state item) = read state) (items : List α) (state : σ) :
    read (items.foldl step state) = read state := by
  induction items generalizing state with
  | nil => rfl
  | cons item items ih => exact (ih _).trans (unchanged state item)

theorem foldl_cell
    [DecidableEq α] (read : σ → α → β) (value : α → β → β) (keeps : σ → Prop) {items : List α}
    (distinct : items.Nodup) (kept : ∀ state item, keeps state → keeps (step state item))
    (write : ∀ state item, keeps state →
      read (step state item) = Function.update (read state) item (value item (read state item)))
    (initially : keeps state) (item : α) :
    read (items.foldl step state) item =
      if item ∈ items then value item (read state item) else read state item := by
  induction items generalizing state with
  | nil => rfl
  | cons first rest ih =>
    obtain ⟨notInRest, distinctRest⟩ := nodup_cons.mp distinct
    rw [foldl_cons, ih distinctRest (kept state first initially), write state first initially]
    by_cases isFirst : item = first
    · rw [isFirst, if_neg notInRest, Function.update_self, if_pos mem_cons_self]
    · rw [Function.update_of_ne isFirst]
      simp [isFirst]

end Tally
