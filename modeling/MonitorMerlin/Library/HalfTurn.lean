import MonitorMerlin.Library.MachineInt
import Mathlib.Data.List.Basic

/-! # Comparing by a difference that is cut to an `int` -/

namespace HalfTurn

open MachineInt

theorem truncateInt_neg_iff {value : Int} : truncateInt value < 0 ↔ 2 ^ 31 ≤ value % 2 ^ 32 := by
  unfold truncateInt Int.bmod
  dsimp only
  split <;> omega

theorem truncateInt_pos_iff {value : Int} :
    0 < truncateInt value ↔ 0 < value % 2 ^ 32 ∧ value % 2 ^ 32 < 2 ^ 31 := by
  unfold truncateInt Int.bmod
  dsimp only
  split <;> omega

universe u

variable {α : Type u}

/-- All values are less than half a turn ahead of one. -/
def Within (value : α → Int) (group : List α) : Prop :=
  ∃ first ∈ group, ∀ item ∈ group, (value item - value first) % 2 ^ 32 < 2 ^ 31

instance (value : α → Int) (group : List α) : Decidable (Within value group) :=
  inferInstanceAs (Decidable (∃ first ∈ group, _))

/-- The sign of the difference, cut to 32 bits. -/
def Behind (x y : Int) : Prop := 2 ^ 31 ≤ (x - y) % 2 ^ 32

def Transitive (value : α → Int) (group : List α) : Prop :=
  ∀ a ∈ group, ∀ b ∈ group, ∀ c ∈ group,
    Behind (value a) (value b) → Behind (value b) (value c) → Behind (value a) (value c)

variable {value : α → Int} {group : List α}

private theorem not_behind_self (x : Int) : ¬ Behind x x := by
  unfold Behind
  omega

theorem Transitive.exists_first (transitive : Transitive value group) (notEmpty : group ≠ []) :
    ∃ first ∈ group, ∀ item ∈ group, ¬ Behind (value item) (value first) := by
  induction group with
  | nil => exact absurd rfl notEmpty
  | cons head tail ih =>
    have inside {item : α} (member : item ∈ tail) : item ∈ head :: tail :=
      List.mem_cons_of_mem head member
    by_cases empty : tail = []
    · subst empty
      simp [not_behind_self]
    · obtain ⟨first, member, least⟩ := ih (fun a memberA b memberB c memberC =>
        transitive a (inside memberA) b (inside memberB) c (inside memberC)) empty
      by_cases behind : Behind (value head) (value first)
      · refine ⟨head, List.mem_cons_self, List.forall_mem_cons.mpr ⟨not_behind_self _, ?_⟩⟩
        intro item inTail before
        exact least item inTail (transitive item (inside inTail) head List.mem_cons_self first
          (inside member) before behind)
      · exact ⟨first, inside member, List.forall_mem_cons.mpr ⟨behind, least⟩⟩

theorem Transitive.within (transitive : Transitive value group) (notEmpty : group ≠ []) :
    Within value group := by
  obtain ⟨first, member, least⟩ := transitive.exists_first notEmpty
  exact ⟨first, member, fun item inGroup => Int.not_le.mp (least item inGroup)⟩

end HalfTurn
