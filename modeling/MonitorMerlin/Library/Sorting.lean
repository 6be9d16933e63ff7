import Mathlib.Data.List.Sort

/-! # Sorting with a comparator -/

namespace Sorting

open List

universe u v

variable {α : Type u} {κ : Type v}

/-- What `qsort` requires of a comparison. -/
structure Consistent (cmp : α → α → Int) (items : List α) : Prop where
  swap : ∀ a ∈ items, ∀ b ∈ items, cmp a b < 0 ↔ 0 < cmp b a
  trans : ∀ a ∈ items, ∀ b ∈ items, ∀ c ∈ items, cmp a b ≤ 0 → cmp b c ≤ 0 → cmp a c ≤ 0

variable {items : List α} {cmp : α → α → Int}

theorem Consistent.total (consistent : Consistent cmp items) {a b : α} (memberA : a ∈ items)
    (memberB : b ∈ items) : cmp a b ≤ 0 ∨ cmp b a ≤ 0 := by
  have swap := consistent.swap b memberB a memberA
  omega

variable {key : α → κ}

theorem Consistent.of_order [LinearOrder κ] (below : ∀ a b, cmp a b < 0 ↔ key a < key b)
    (above : ∀ a b, 0 < cmp a b ↔ key b < key a) (items : List α) : Consistent cmp items := by
  have le : ∀ a b, cmp a b ≤ 0 ↔ key a ≤ key b := by
    intro a b
    rw [← not_lt, above, not_lt]
  constructor
  · intro a _ b _
    rw [below, above]
  · intro a _ b _ c _ first second
    rw [le] at first second ⊢
    exact first.trans second

/-- A `qsort`, which sorts if the comparison is consistent. -/
structure Sorter (α : Type u) where
  sort : (α → α → Int) → List α → List α
  perm : ∀ {cmp items}, Consistent cmp items → (sort cmp items).Perm items
  sorted : ∀ {cmp items}, Consistent cmp items → (sort cmp items).Pairwise fun a b => cmp a b ≤ 0

theorem Sorter.map_sort_eq (sorter other : Sorter α) {cmp cmp' : α → α → Int}
    {items items' : List α} {le : κ → κ → Prop} (consistent : Consistent cmp items)
    (consistent' : Consistent cmp' items')
    (follows : ∀ a ∈ items, ∀ b ∈ items, cmp a b ≤ 0 → le (key a) (key b))
    (follows' : ∀ a ∈ items', ∀ b ∈ items', cmp' a b ≤ 0 → le (key a) (key b))
    (antisymm : ∀ a ∈ items.map key, ∀ b ∈ items.map key, le a b → le b a → a = b)
    (sameKeys : (items.map key).Perm (items'.map key)) :
    (sorter.sort cmp items).map key = (other.sort cmp' items').map key := by
  have perm := sorter.perm consistent
  have perm' := other.perm consistent'
  have ordered : ((sorter.sort cmp items).map key).Pairwise le := by
    rw [pairwise_map]
    exact (sorter.sorted consistent).imp_of_mem fun memberA memberB before =>
      follows _ (perm.mem_iff.mp memberA) _ (perm.mem_iff.mp memberB) before
  have ordered' : ((other.sort cmp' items').map key).Pairwise le := by
    rw [pairwise_map]
    exact (other.sorted consistent').imp_of_mem fun memberA memberB before =>
      follows' _ (perm'.mem_iff.mp memberA) _ (perm'.mem_iff.mp memberB) before
  refine List.Perm.eq_of_pairwise ?_ ordered ordered'
    (((perm.map key).trans sameKeys).trans (perm'.map key).symm)
  intro a b memberA memberB
  refine antisymm a ((perm.map key).mem_iff.mp memberA) b ?_
  exact sameKeys.mem_iff.mpr ((perm'.map key).mem_iff.mp memberB)

theorem take_countP_of_front {kind : α → Prop} [DecidablePred kind]
    (front : items.Pairwise fun a b => kind b → kind a) :
    items.take (items.countP fun item => kind item) = items.filter fun item => kind item := by
  induction items with
  | nil => rfl
  | cons item items ih =>
    obtain ⟨first, rest⟩ := pairwise_cons.mp front
    by_cases isKind : kind item
    · rw [countP_cons_of_pos (by simpa using isKind), take_succ_cons,
        filter_cons_of_pos (by simpa using isKind), ih rest]
    · have noneAfter : ∀ other ∈ item :: items, ¬ decide (kind other) = true := by
        intro other member
        rw [decide_eq_true_iff]
        rcases mem_cons.mp member with rfl | later
        · exact isKind
        · exact fun otherKind => isKind (first other later otherKind)
      rw [countP_eq_zero.mpr noneAfter, filter_eq_nil_iff.mpr noneAfter, take_zero]

theorem perm_attach_insertionSort (cmp : α → α → Int) (items : List α) :
    ((items.attach.insertionSort fun a b => cmp a.1 b.1 ≤ 0).map Subtype.val).Perm items := by
  have sorted := (perm_insertionSort (fun a b => cmp a.1 b.1 ≤ 0) items.attach).map Subtype.val
  rwa [attach_map_subtype_val] at sorted

def insertionSorter (α : Type u) : Sorter α where
  sort cmp items := (items.attach.insertionSort fun a b => cmp a.1 b.1 ≤ 0).map Subtype.val
  perm {cmp items} _ := perm_attach_insertionSort cmp items
  sorted {cmp items} consistent := by
    have total : Std.Total fun a b : { item // item ∈ items } => cmp a.1 b.1 ≤ 0 :=
      ⟨fun a b => consistent.total a.2 b.2⟩
    have trans : IsTrans { item // item ∈ items } fun a b => cmp a.1 b.1 ≤ 0 :=
      ⟨fun a b c => consistent.trans a.1 a.2 b.1 b.2 c.1 c.2⟩
    rw [pairwise_map]
    exact pairwise_insertionSort _ items.attach

structure Sorter.FrontFirst (sorter : Sorter α) : Prop where
  perm : ∀ cmp items, (sorter.sort cmp items).Perm items
  front : ∀ cmp items (kind : α → Prop),
    (∀ a ∈ items, ∀ b ∈ items, kind a → ¬ kind b → cmp a b ≤ 0 ∧ ¬ cmp b a ≤ 0) →
    (sorter.sort cmp items).Pairwise fun a b => kind b → kind a

theorem orderedInsert_front {r : α → α → Prop} [DecidableRel r] {kind : α → Prop}
    (before : ∀ a b, kind a → ¬ kind b → r a b ∧ ¬ r b a) (a : α)
    (front : items.Pairwise fun a b => kind b → kind a) :
    (items.orderedInsert r a).Pairwise fun a b => kind b → kind a := by
  induction items with
  | nil => exact pairwise_singleton _ a
  | cons b items ih =>
    obtain ⟨first, rest⟩ := pairwise_cons.mp front
    by_cases inserted : r a b
    · rw [orderedInsert_cons_of_le _ _ inserted]
      refine pairwise_cons.mpr ⟨?_, front⟩
      intro other member otherKind
      have bKind : kind b := by
        rcases mem_cons.mp member with rfl | later
        · exact otherKind
        · exact first other later otherKind
      by_contra aKind
      exact (before b a bKind aKind).2 inserted
    · rw [orderedInsert_of_not_le _ _ inserted]
      refine pairwise_cons.mpr ⟨?_, ih rest⟩
      intro other member otherKind
      rcases (mem_orderedInsert r).mp member with rfl | later
      · by_contra bKind
        exact inserted (before other b otherKind bKind).1
      · exact first other later otherKind

theorem insertionSorter_frontFirst (α : Type u) : (insertionSorter α).FrontFirst where
  perm := perm_attach_insertionSort
  front cmp items kind before := by
    refine pairwise_map.mpr ?_
    induction items.attach with
    | nil => exact List.Pairwise.nil
    | cons item rest ih =>
      refine orderedInsert_front ?_ item ih
      intro a b aKind bKind
      exact before a.1 a.2 b.1 b.2 aKind bKind

end Sorting
