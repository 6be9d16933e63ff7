import Mathlib.Data.Finset.Card
import Mathlib.Data.Finset.Union
import Mathlib.Data.Fintype.Basic
import Mathlib.Data.Set.List

/-! # Writing records that refer to each other -/

namespace Ledger

open List

universe u v w

variable {κ : Type u} {α : Type v}

structure Format (κ : Type u) (α : Type v) where
  key : α → Option κ
  refs : α → List κ

/-- The keys that are marked, and what was written. -/
structure Book (κ : Type u) (α : Type v) where
  marked : Finset κ
  out : List α

def Book.write (book : Book κ α) (record : α) : Book κ α :=
  { book with out := book.out ++ [record] }

def Book.enter [DecidableEq κ] (book : Book κ α) (k : κ) (record : α) : Book κ α :=
  ⟨insert k book.marked, book.out ++ [record]⟩

section Steps

variable [DecidableEq κ]

structure Adds (format : Format κ α) (Kind : α → Prop) (before : Book κ α) (new : List α)
    (after : Book κ α) : Prop where
  out : after.out = before.out ++ new
  kind : ∀ record ∈ new, Kind record
  nodup : (new.filterMap format.key).Nodup
  fresh : ∀ k ∈ new.filterMap format.key, k ∉ before.marked
  marked : after.marked = before.marked ∪ (new.filterMap format.key).toFinset
  closed : ∀ record ∈ new, ∀ k ∈ format.refs record, k ∈ after.marked

def Covers (format : Format κ α) (Kind : α → Prop) (wanted : List κ) (before after : Book κ α) :
    Prop :=
  (∃ new, Adds format Kind before new after) ∧ ∀ k ∈ wanted, k ∈ after.marked

variable {format : Format κ α} {Kind : α → Prop} {before middle after : Book κ α}
  {wanted others : List κ}

theorem Adds.marked_mono {new : List α} (adds : Adds format Kind before new after) :
    before.marked ⊆ after.marked := by
  rw [adds.marked]
  exact Finset.subset_union_left

theorem Adds.nil (format : Format κ α) (Kind : α → Prop) (book : Book κ α) :
    Adds format Kind book [] book where
  out := (append_nil _).symm
  kind := by simp
  nodup := nodup_nil
  fresh := by simp
  marked := by simp
  closed := by simp

theorem Adds.append
    {new later : List α} (early : Adds format Kind before new middle)
    (late : Adds format Kind middle later after) :
    Adds format Kind before (new ++ later) after where
  out := by
    rw [late.out, early.out, append_assoc]
  kind := by
    intro record member
    rcases mem_append.mp member with isNew | isLater
    · exact early.kind record isNew
    · exact late.kind record isLater
  nodup := by
    rw [filterMap_append, nodup_append]
    refine ⟨early.nodup, late.nodup, ?_⟩
    rintro k isNew _ isLater rfl
    apply late.fresh k isLater
    rw [early.marked, Finset.mem_union, mem_toFinset]
    exact .inr isNew
  fresh := by
    intro k member
    rw [filterMap_append] at member
    rcases mem_append.mp member with isNew | isLater
    · exact early.fresh k isNew
    · exact fun isOld => late.fresh k isLater (early.marked_mono isOld)
  marked := by
    rw [late.marked, early.marked, filterMap_append, toFinset_append, Finset.union_assoc]
  closed := by
    intro record member k isRef
    rcases mem_append.mp member with isNew | isLater
    · exact late.marked_mono (early.closed record isNew k isRef)
    · exact late.closed record isLater k isRef

theorem Covers.refl (format : Format κ α) (Kind : α → Prop) {book : Book κ α}
    (present : ∀ k ∈ wanted, k ∈ book.marked) : Covers format Kind wanted book book :=
  ⟨⟨[], Adds.nil format Kind book⟩, present⟩

theorem Covers.marked_mono (covers : Covers format Kind wanted before after) :
    before.marked ⊆ after.marked := by
  obtain ⟨⟨_, adds⟩, _⟩ := covers
  exact adds.marked_mono

theorem Covers.trans (early : Covers format Kind wanted before middle)
    (late : Covers format Kind others middle after) :
    Covers format Kind (wanted ++ others) before after := by
  obtain ⟨⟨new, adds⟩, present⟩ := early
  obtain ⟨⟨later, addsLater⟩, presentLater⟩ := late
  refine ⟨⟨new ++ later, adds.append addsLater⟩, ?_⟩
  intro k member
  rcases mem_append.mp member with isWanted | isOther
  · exact addsLater.marked_mono (present k isWanted)
  · exact presentLater k isOther

theorem Covers.mono {Kind' : α → Prop} (covers : Covers format Kind wanted before after)
    (implies : ∀ record, Kind record → Kind' record) : Covers format Kind' wanted before after := by
  obtain ⟨⟨new, adds⟩, present⟩ := covers
  exact ⟨⟨new, { adds with kind := fun record member => implies record (adds.kind record member) }⟩,
    present⟩

theorem Covers.wants (covers : Covers format Kind wanted before after)
    (fewer : ∀ k ∈ others, k ∈ wanted) : Covers format Kind others before after :=
  ⟨covers.1, fun k member => covers.2 k (fewer k member)⟩

variable {k : κ}

theorem Covers.notMem (covers : Covers format Kind wanted before after) (new : k ∉ before.marked)
    (other : ∀ record, Kind record → format.key record ≠ some k) : k ∉ after.marked := by
  obtain ⟨⟨records, adds⟩, _⟩ := covers
  rw [adds.marked, Finset.mem_union, not_or, mem_toFinset, mem_filterMap]
  refine ⟨new, ?_⟩
  rintro ⟨record, member, isKey⟩
  exact other record (adds.kind record member) isKey

variable {β : Type w}

theorem Covers.foldl {step : Book κ α → β → Book κ α} {wants : β → List κ} {items : List β}
    (covers : ∀ item ∈ items, ∀ book, before.marked ⊆ book.marked →
      Covers format Kind (wants item) book (step book item)) :
    Covers format Kind (items.flatMap wants) before (items.foldl step before) := by
  induction items generalizing before with
  | nil => exact Covers.refl format Kind (by simp)
  | cons item items ih =>
    have first := covers item mem_cons_self before (Finset.Subset.refl _)
    apply first.trans
    apply ih
    intro other member book marks
    exact covers other (mem_cons_of_mem _ member) book (first.marked_mono.trans marks)

theorem Covers.foldl_nil {step : Book κ α → β → Book κ α} {items : List β}
    (covers : ∀ item ∈ items, ∀ book, Covers format Kind [] book (step book item)) :
    Covers format Kind [] before (items.foldl step before) := by
  have all : Covers format Kind (items.flatMap fun _ => []) before (items.foldl step before) :=
    Covers.foldl fun item member book _ => covers item member book
  exact all.wants (by simp)

variable {record : α}

theorem Covers.write (isKind : Kind record) (untracked : format.key record = none)
    (refs : ∀ k ∈ format.refs record, k ∈ before.marked) :
    Covers format Kind [] before (before.write record) := by
  have keys : [record].filterMap format.key = [] := by
    simp [untracked]
  refine ⟨⟨[record], ?_⟩, by simp⟩
  refine ⟨rfl, by simpa using isKind, ?_, ?_, ?_, ?_⟩
  · rw [keys]
    exact nodup_nil
  · simp [keys]
  · simp [keys, Book.write]
  · intro other member
    rw [mem_singleton.mp member]
    exact refs

theorem Covers.enter (isKind : Kind record) (isKey : format.key record = some k)
    (new : k ∉ before.marked) (rest : Covers format Kind wanted (before.enter k record) after)
    (refs : ∀ k ∈ format.refs record, k ∈ after.marked) :
    Covers format Kind (k :: wanted) before after := by
  obtain ⟨⟨later, adds⟩, present⟩ := rest
  have keys : (record :: later).filterMap format.key = k :: later.filterMap format.key :=
    filterMap_cons_some isKey
  have entered : k ∈ (before.enter k record).marked := Finset.mem_insert_self k _
  refine ⟨⟨record :: later, ?_⟩, ?_⟩
  · constructor
    · rw [adds.out, Book.enter, append_assoc, singleton_append]
    · intro other member
      rcases mem_cons.mp member with rfl | isLater
      · exact isKind
      · exact adds.kind other isLater
    · rw [keys, nodup_cons]
      exact ⟨fun isLater => adds.fresh k isLater entered, adds.nodup⟩
    · intro other member
      rw [keys] at member
      rcases mem_cons.mp member with rfl | isLater
      · exact new
      · exact fun isOld => adds.fresh other isLater (Finset.mem_insert_of_mem isOld)
    · rw [adds.marked, keys, Book.enter, toFinset_cons, Finset.insert_union, Finset.union_insert]
    · intro other member
      rcases mem_cons.mp member with rfl | isLater
      · exact refs
      · exact adds.closed other isLater
  · intro other member
    rcases mem_cons.mp member with rfl | isWanted
    · exact adds.marked_mono entered
    · exact present other isWanted

theorem Covers.then_enter (early : Covers format Kind wanted before middle) (isKind : Kind record)
    (isKey : format.key record = some k) (new : k ∉ middle.marked)
    (refs : ∀ k ∈ format.refs record, k ∈ wanted) :
    Covers format Kind [k] before (middle.enter k record) := by
  have entered : Covers format Kind [k] middle (middle.enter k record) := by
    apply (Covers.refl format Kind (by simp)).enter isKind isKey new
    intro ref isRef
    exact Finset.mem_insert_of_mem (early.2 ref (refs ref isRef))
  apply (early.trans entered).wants
  simp

theorem Covers.then_write (early : Covers format Kind wanted before middle) (isKind : Kind record)
    (untracked : format.key record = none) (refs : ∀ k ∈ format.refs record, k ∈ wanted) :
    Covers format Kind wanted before (middle.write record) := by
  have written : Covers format Kind [] middle (middle.write record) :=
    Covers.write isKind untracked fun ref isRef => early.2 ref (refs ref isRef)
  apply (early.trans written).wants
  simp

end Steps

variable [DecidableEq κ] {τ : Type w}

/-- Enter what can be reached, unless it is marked. -/
def visit (key : τ → κ) (record : τ → α) (next : τ → List τ) :
    Nat → τ → Book κ α → Book κ α
  | 0, _, book => book
  | fuel + 1, vertex, book =>
    if key vertex ∈ book.marked then
      book
    else
      (next vertex).foldl (fun book other => visit key record next fuel other book)
        (book.enter (key vertex) (record vertex))

def unmarked [Fintype τ] (key : τ → κ) (book : Book κ α) : Finset τ :=
  Finset.univ.filter fun vertex => key vertex ∉ book.marked

variable [Fintype τ] {key : τ → κ} {record : τ → α} {next : τ → List τ}
  {format : Format κ α} {Kind : α → Prop}

private theorem card_unmarked_le {before after : Book κ α} (marks : before.marked ⊆ after.marked) :
    (unmarked key after).card ≤ (unmarked key before).card := by
  apply Finset.card_le_card
  intro vertex member
  rw [unmarked, Finset.mem_filter] at member ⊢
  exact ⟨member.1, fun isOld => member.2 (marks isOld)⟩

variable {book : Book κ α}

private theorem card_unmarked_enter_lt {vertex : τ} (new : key vertex ∉ book.marked) (record : α) :
    (unmarked key (book.enter (key vertex) record)).card < (unmarked key book).card := by
  apply Finset.card_lt_card
  rw [Finset.ssubset_iff_of_subset]
  · refine ⟨vertex, by simp [unmarked, new], ?_⟩
    simp [unmarked, Book.enter]
  · intro other member
    rw [unmarked, Finset.mem_filter] at member ⊢
    exact ⟨member.1, fun isOld => member.2 (Finset.mem_insert_of_mem isOld)⟩

theorem visit_covers (Due : τ → Prop) (base : Finset κ)
    (isKind : ∀ vertex, Due vertex → key vertex ∉ base → Kind (record vertex))
    (isDue : ∀ vertex, Due vertex → key vertex ∉ base → ∀ other ∈ next vertex, Due other)
    (isKey : ∀ vertex, format.key (record vertex) = some (key vertex))
    (isNext : ∀ vertex, format.refs (record vertex) = (next vertex).map key) {fuel : Nat}
    (enough : (unmarked key book).card < fuel) (marks : base ⊆ book.marked) {vertex : τ}
    (due : Due vertex) :
    Covers format Kind [key vertex] book (visit key record next fuel vertex book) := by
  induction fuel generalizing book vertex with
  | zero => exact absurd enough (Nat.not_lt_zero _)
  | succ fuel ih =>
    rw [visit]
    split_ifs with present
    · exact Covers.refl format Kind (by simpa using present)
    · have fewer := card_unmarked_enter_lt present (record vertex)
      have new : key vertex ∉ base := fun isOld => present (marks isOld)
      have rest : Covers format Kind ((next vertex).flatMap fun other => [key other])
          (book.enter (key vertex) (record vertex))
          ((next vertex).foldl (fun book other => visit key record next fuel other book)
            (book.enter (key vertex) (record vertex))) := by
        apply Covers.foldl
        intro other member later more
        apply ih
        · exact lt_of_le_of_lt (card_unmarked_le more) (by omega)
        · exact (marks.trans (Finset.subset_insert _ _)).trans more
        · exact isDue vertex due new other member
      have entered := rest.enter (isKind vertex due new) (isKey vertex) present (by
        intro k isRef
        rw [isNext vertex] at isRef
        apply rest.2
        simpa [mem_flatMap, eq_comm] using isRef)
      apply entered.wants
      simp

inductive Reaches (key : τ → κ) (next : τ → List τ) (marked : Finset κ) (vertex : τ) :
    τ → Prop where
  | start (new : key vertex ∉ marked) : Reaches key next marked vertex vertex
  | step {early late : τ} (path : Reaches key next marked vertex early) (edge : late ∈ next early)
      (new : key late ∉ marked) :
      Reaches key next marked vertex late

theorem visit_trail (injective : Function.Injective key)
    (isKey : ∀ vertex, format.key (record vertex) = some (key vertex))
    (isNext : ∀ vertex, format.refs (record vertex) = (next vertex).map key) {fuel : Nat}
    (enough : (unmarked key book).card < fuel) (vertex : τ) :
    ∃ trail : List τ, trail.Nodup ∧
      (∀ other, other ∈ trail ↔ Reaches key next book.marked vertex other) ∧
      visit key record next fuel vertex book =
        ⟨book.marked ∪ (trail.map key).toFinset, book.out ++ trail.map record⟩ := by
  have covers : Covers format
      (fun written => ∃ other, Reaches key next book.marked vertex other ∧ record other = written)
      [key vertex] book (visit key record next fuel vertex book) := by
    apply visit_covers (fun other => key other ∉ book.marked →
      Reaches key next book.marked vertex other) book.marked _ _ isKey isNext enough
      (Finset.Subset.refl _) .start
    · exact fun other due new => ⟨other, due new, rfl⟩
    · exact fun early due new late edge isNew => .step (due new) edge isNew
  obtain ⟨⟨new, adds⟩, present⟩ := covers
  obtain ⟨trail, rfl⟩ : ∃ trail, map record trail = new := by
    rw [← Set.mem_range, Set.range_list_map]
    intro written member
    obtain ⟨other, _, same⟩ := adds.kind written member
    exact ⟨other, same⟩
  have keys : (trail.map record).filterMap format.key = trail.map key := by
    rw [filterMap_map, show format.key ∘ record = some ∘ key from funext isKey, filterMap_eq_map]
  have onTrail : ∀ other, key other ∉ book.marked →
      key other ∈ (visit key record next fuel vertex book).marked → other ∈ trail := by
    intro other isNew isMarked
    rw [adds.marked, keys, Finset.mem_union, mem_toFinset] at isMarked
    exact (mem_map_of_injective injective).mp (isMarked.resolve_left isNew)
  refine ⟨trail, Nodup.of_map key (keys ▸ adds.nodup), ?_, ?_⟩
  · intro other
    constructor
    · intro member
      obtain ⟨reached, path, same⟩ := adds.kind (record other) (mem_map_of_mem member)
      have sameKey : some (key reached) = some (key other) := by
        rw [← isKey, ← isKey, same]
      exact injective (Option.some.inj sameKey) ▸ path
    · intro path
      induction path with
      | start isNew => exact onTrail vertex isNew (present _ mem_cons_self)
      | @step early late _ edge isNew ih =>
        apply onTrail late isNew
        apply adds.closed (record early) (mem_map_of_mem ih)
        rw [isNext]
        exact mem_map_of_mem edge
  · rw [← keys, ← adds.marked, ← adds.out]

/-! Enough fuel is never used up. -/

omit [Fintype τ] in
private theorem visit_marked_subset (fuel : Nat) (vertex : τ) :
    book.marked ⊆ (visit key record next fuel vertex book).marked := by
  induction fuel generalizing book vertex with
  | zero => exact Finset.Subset.refl _
  | succ fuel ih =>
    rw [visit]
    split_ifs with present
    · exact Finset.Subset.refl _
    · apply foldlRecOn (motive := fun later : Book κ α => book.marked ⊆ later.marked)
      · exact Finset.subset_insert _ _
      · exact fun later marks other _ => marks.trans (ih other)

private theorem visit_succ {fuel : Nat} (enough : (unmarked key book).card < fuel) (vertex : τ) :
    visit key record next (fuel + 1) vertex book = visit key record next fuel vertex book := by
  induction fuel generalizing book vertex with
  | zero => exact absurd enough (Nat.not_lt_zero _)
  | succ fuel ih =>
    rw [visit, visit]
    split_ifs with present
    · rfl
    · have fewer := card_unmarked_enter_lt present (record vertex)
      generalize book.enter (key vertex) (record vertex) = entered at fewer
      induction next vertex generalizing entered with
      | nil => rfl
      | cons other others ihOthers =>
        rw [foldl_cons, foldl_cons, ih (by omega)]
        apply ihOthers
        exact lt_of_le_of_lt (card_unmarked_le (visit_marked_subset fuel other)) fewer

theorem visit_of_le {fuel more : Nat} (enough : (unmarked key book).card < fuel)
    (le : fuel ≤ more) (vertex : τ) :
    visit key record next more vertex book = visit key record next fuel vertex book := by
  induction more, le using Nat.le_induction with
  | base => rfl
  | succ more le ih => rw [visit_succ (by omega), ih]

end Ledger
