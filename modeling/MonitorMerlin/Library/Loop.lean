import Mathlib.Data.Nat.Find

/-! # Loops with input -/

namespace Loop

universe u v w

section Definitions

variable {σ : Type u} {ι : Type v} (goesOn : σ → Prop) [DecidablePred goesOn]
  (turn : σ → ι → Option σ) (inputs : Nat → ι) (start : σ)

/-- The state after some turns, unless one fails. -/
def after : Nat → Option σ
  | 0 => some start
  | count + 1 =>
    (after count).bind fun state => if goesOn state then turn state (inputs count) else some state

/-- The loop ends in this state. -/
def EndsIn (final : σ) : Prop :=
  ∃ count, after goesOn turn inputs start count = some final ∧ ¬ goesOn final

end Definitions

variable {σ : Type u} {ι : Type v} {goesOn : σ → Prop} [DecidablePred goesOn]
  {turn : σ → ι → Option σ} {inputs : Nat → ι} {start : σ}
  {count : Nat} {state : σ}

theorem after_succ (reached : after goesOn turn inputs start count = some state)
    (continues : goesOn state) :
    after goesOn turn inputs start (count + 1) = turn state (inputs count) := by
  rw [after, reached, Option.bind_some, if_pos continues]

variable {final : σ}

private theorem after_add_of_ended (reached : after goesOn turn inputs start count = some final)
    (ended : ¬ goesOn final) (more : Nat) :
    after goesOn turn inputs start (count + more) = some final := by
  induction more with
  | zero => exact reached
  | succ more ih => rw [← Nat.add_assoc, after, ih, Option.bind_some, if_neg ended]

theorem after_add_of_failed (failed : after goesOn turn inputs start count = none) (more : Nat) :
    after goesOn turn inputs start (count + more) = none := by
  induction more with
  | zero => exact failed
  | succ more ih => rw [← Nat.add_assoc, after, ih, Option.bind_none]

private theorem lt_of_goesOn {state final : σ} {count last : Nat}
    (reached : after goesOn turn inputs start count = some state) (continues : goesOn state)
    (ends : after goesOn turn inputs start last = some final) (ended : ¬ goesOn final) :
    count < last := by
  apply Nat.lt_of_not_le
  intro late
  have same := after_add_of_ended ends ended (count - last)
  rw [Nat.add_sub_cancel' late, reached] at same
  rw [Option.some.inj same] at continues
  exact ended continues

theorem exists_before (reached : after goesOn turn inputs start (count + 1) = some state) :
    ∃ before, after goesOn turn inputs start count = some before ∧
      (goesOn before ∧ turn before (inputs count) = some state ∨
        ¬ goesOn before ∧ before = state) := by
  rw [after, Option.bind_eq_some_iff] at reached
  obtain ⟨before, reachedBefore, turned⟩ := reached
  refine ⟨before, reachedBefore, ?_⟩
  split_ifs at turned with continues
  · exact .inl ⟨continues, turned⟩
  · exact .inr ⟨continues, Option.some.inj turned⟩

theorem kept_of_after (kept : σ → Prop) (keeps : ∀ state next count, kept state → goesOn state →
      turn state (inputs count) = some next → kept next) (starts : kept start)
    (reached : after goesOn turn inputs start count = some state) : kept state := by
  induction count generalizing state with
  | zero =>
    rw [← Option.some.inj reached]
    exact starts
  | succ count ih =>
    obtain ⟨before, reachedBefore, ⟨continues, turned⟩ | ⟨-, rfl⟩⟩ := exists_before reached
    · exact keeps before state count (ih reachedBefore) continues turned
    · exact ih reachedBefore

private theorem endsIn_of_lower_later (kept : σ → Prop) (measure : σ → Nat)
    (lowers : ∀ count state, after goesOn turn inputs start count = some state → kept state →
      goesOn state → ∃ later next, after goesOn turn inputs start later = some next ∧
        kept next ∧ measure next < measure state) (starts : kept start) :
    ∃ final, EndsIn goesOn turn inputs start final ∧ kept final := by
  have fromState : ∀ bound count state, measure state < bound →
      after goesOn turn inputs start count = some state → kept state →
      ∃ final, EndsIn goesOn turn inputs start final ∧ kept final := by
    intro bound
    induction bound with
    | zero =>
      intro count state small
      exact absurd small (Nat.not_lt_zero _)
    | succ bound ih =>
      intro count state small reached holds
      by_cases continues : goesOn state
      · obtain ⟨later, next, reachedNext, holdsNext, lower⟩ :=
          lowers count state reached holds continues
        have smaller : measure next < bound := Nat.lt_of_lt_of_le lower (Nat.le_of_lt_succ small)
        exact ih later next smaller reachedNext holdsNext
      · exact ⟨state, ⟨count, reached, continues⟩, holds⟩
  exact fromState _ 0 start (Nat.lt_succ_self _) rfl starts

section Measure

variable (kept : σ → Prop) (measure : σ → Nat)
  (lowers : ∀ count state, after goesOn turn inputs start count = some state → kept state →
    goesOn state →
    ∃ next, turn state (inputs count) = some next ∧ kept next ∧ measure next < measure state)
  (starts : kept start)

include lowers starts

theorem endsIn_of_measure : ∃ final, EndsIn goesOn turn inputs start final ∧ kept final := by
  refine endsIn_of_lower_later kept measure ?_ starts
  intro count state reached holds continues
  obtain ⟨next, turned, holdsNext, lower⟩ := lowers count state reached holds continues
  exact ⟨count + 1, next, (after_succ reached continues).trans turned, holdsNext, lower⟩

theorem ended_of_measure :
    ∃ final, after goesOn turn inputs start (measure start) = some final ∧ ¬ goesOn final ∧
      kept final := by
  have lowered : ∀ count, ∃ state, after goesOn turn inputs start count = some state ∧
      kept state ∧ (goesOn state → measure state + count ≤ measure start) := by
    intro count
    induction count with
    | zero => exact ⟨start, rfl, starts, fun _ => Nat.le_refl _⟩
    | succ count ih =>
      obtain ⟨state, reached, holds, bound⟩ := ih
      by_cases continues : goesOn state
      · obtain ⟨next, turned, holdsNext, lower⟩ := lowers count state reached holds continues
        have bounded := bound continues
        exact ⟨next, (after_succ reached continues).trans turned, holdsNext, fun _ => by omega⟩
      · exact ⟨state, after_add_of_ended reached continues 1, holds,
          fun goes => absurd goes continues⟩
  obtain ⟨final, reached, holds, bound⟩ := lowered (measure start)
  refine ⟨final, reached, fun continues => ?_, holds⟩
  obtain ⟨next, -, -, lower⟩ := lowers _ final reached holds continues
  have bounded := bound continues
  omega

end Measure

theorem EndsIn.exists_last (ends : EndsIn goesOn turn inputs start final)
    (continues : goesOn start) :
    ∃ count before, after goesOn turn inputs start count = some before ∧ goesOn before ∧
      turn before (inputs count) = some final := by
  obtain ⟨count, reached, ended⟩ := ends
  induction count with
  | zero =>
    rw [Option.some.inj reached] at continues
    exact absurd continues ended
  | succ count ih =>
    obtain ⟨before, reachedBefore, ⟨goes, turned⟩ | ⟨-, rfl⟩⟩ := exists_before reached
    · exact ⟨count, before, reachedBefore, goes, turned⟩
    · exact ih reachedBefore

theorem EndsIn.unique {final other : σ} (ends : EndsIn goesOn turn inputs start final)
    (endsOther : EndsIn goesOn turn inputs start other) : final = other := by
  obtain ⟨count, reached, ended⟩ := ends
  obtain ⟨last, reachedOther, endedOther⟩ := endsOther
  have stays := after_add_of_ended reached ended last
  rw [Nat.add_comm, after_add_of_ended reachedOther endedOther count] at stays
  exact (Option.some.inj stays).symm

private theorem kept_of_turn {next : σ} {input : ι} {kept lower : σ → Prop}
    (turned : turn state input = some next)
    (some : ∃ other, turn state input = some other ∧ kept other ∧ lower other) : kept next := by
  obtain ⟨other, turnedOther, holds, -⟩ := some
  rw [Option.some.inj (turned.symm.trans turnedOther)]
  exact holds

theorem endsIn_iff_allowed (kept : σ → Prop) (measure : σ → Nat) (allowed : σ → ι → Prop)
    (lowers : ∀ state count, kept state → goesOn state → allowed state (inputs count) →
      ∃ next, turn state (inputs count) = some next ∧ kept next ∧ measure next < measure state)
    (fails : ∀ state count, kept state → goesOn state → ¬ allowed state (inputs count) →
      turn state (inputs count) = none) (starts : kept start) :
    (∃ final, EndsIn goesOn turn inputs start final) ↔
      ∀ count state, after goesOn turn inputs start count = some state → goesOn state →
        allowed state (inputs count) := by
  have keeps : ∀ state next count, kept state → goesOn state →
      turn state (inputs count) = some next → kept next := by
    intro state next count holds continues turned
    by_cases isAllowed : allowed state (inputs count)
    · exact kept_of_turn turned (lowers state count holds continues isAllowed)
    · rw [fails state count holds continues isAllowed] at turned
      cases turned
  constructor
  · intro ⟨final, last, ends, ended⟩ count state reached continues
    by_cases isAllowed : allowed state (inputs count)
    · exact isAllowed
    · have holds := kept_of_after kept keeps starts reached
      have failed : after goesOn turn inputs start (count + 1) = none :=
        (after_succ reached continues).trans (fails _ _ holds continues isAllowed)
      have failedLast := after_add_of_failed failed (last - (count + 1))
      rw [Nat.add_sub_cancel' (lt_of_goesOn reached continues ends ended), ends] at failedLast
      cases failedLast
  · intro isAllowed
    have ends := endsIn_of_measure kept measure (fun count state reached holds continues =>
      lowers state count holds continues (isAllowed count state reached continues)) starts
    exact ends.imp fun final ends => ends.1

variable {π : Type w} (position : σ → π) (helps : π → ι → Prop) (kept : σ → Prop)
  (goesOnAt : ∀ first second, kept first → kept second → position first = position second →
    goesOn first → goesOn second)
  (stays : ∀ state count, kept state → goesOn state → ¬ helps (position state) (inputs count) →
    ∃ next, turn state (inputs count) = some next ∧ kept next ∧ position next = position state)

include goesOnAt stays

private theorem position_of_helpless (reached : after goesOn turn inputs start count = some state)
    (holds : kept state) (continues : goesOn state) {more : Nat}
    (helpless : ∀ extra < more, ¬ helps (position state) (inputs (count + extra))) :
    ∃ next, after goesOn turn inputs start (count + more) = some next ∧ kept next ∧
      position next = position state := by
  induction more with
  | zero => exact ⟨state, reached, holds, rfl⟩
  | succ more ih =>
    obtain ⟨middle, reachedMiddle, holdsMiddle, same⟩ :=
      ih fun extra less => helpless extra (Nat.lt_succ_of_lt less)
    have continuesMiddle : goesOn middle :=
      goesOnAt state middle holds holdsMiddle same.symm continues
    have helplessMiddle := helpless more (Nat.lt_succ_self more)
    rw [← same] at helplessMiddle
    obtain ⟨next, turned, holdsNext, sameNext⟩ :=
      stays middle (count + more) holdsMiddle continuesMiddle helplessMiddle
    refine ⟨next, ?_, holdsNext, sameNext.trans same⟩
    exact (after_succ reachedMiddle continuesMiddle).trans turned

theorem endsIn_iff_helps (measure : π → Nat)
    (lowers : ∀ state count, kept state → goesOn state → helps (position state) (inputs count) →
      ∃ next, turn state (inputs count) = some next ∧ kept next ∧
        measure (position next) < measure (position state)) (starts : kept start) :
    (∃ final, EndsIn goesOn turn inputs start final) ↔
      ∀ count state, after goesOn turn inputs start count = some state → goesOn state →
        ∃ more, helps (position state) (inputs (count + more)) := by
  have keeps : ∀ state next count, kept state → goesOn state →
      turn state (inputs count) = some next → kept next := by
    intro state next count holds continues turned
    by_cases help : helps (position state) (inputs count)
    · exact kept_of_turn turned (lowers state count holds continues help)
    · exact kept_of_turn turned (stays state count holds continues help)
  constructor
  · intro ⟨final, last, ends, ended⟩ count state reached continues
    apply Classical.byContradiction
    intro noHelp
    have holds := kept_of_after kept keeps starts reached
    obtain ⟨next, reachedNext, holdsNext, same⟩ :=
      position_of_helpless position helps kept goesOnAt stays reached holds continues
        (fun extra (_ : extra < last - count) help => noHelp ⟨extra, help⟩)
    rw [Nat.add_sub_cancel' (Nat.le_of_lt (lt_of_goesOn reached continues ends ended)),
      ends] at reachedNext
    rw [Option.some.inj reachedNext] at ended
    exact ended (goesOnAt state next holds holdsNext same.symm continues)
  · intro eventually
    have ends : ∃ final, EndsIn goesOn turn inputs start final ∧ kept final := by
      refine endsIn_of_lower_later kept (fun state => measure (position state)) ?_ starts
      intro count state reached holds continues
      classical
      have found := eventually count state reached continues
      obtain ⟨least, help, helpless⟩ :
          ∃ least, helps (position state) (inputs (count + least)) ∧
            ∀ extra < least, ¬ helps (position state) (inputs (count + extra)) :=
        ⟨Nat.find found, Nat.find_spec found, fun extra less => Nat.find_min found less⟩
      obtain ⟨middle, reachedMiddle, holdsMiddle, same⟩ :=
        position_of_helpless position helps kept goesOnAt stays reached holds continues helpless
      have continuesMiddle : goesOn middle :=
        goesOnAt state middle holds holdsMiddle same.symm continues
      rw [← same] at help
      obtain ⟨next, turned, holdsNext, lower⟩ :=
        lowers middle (count + least) holdsMiddle continuesMiddle help
      rw [same] at lower
      have reachedNext := (after_succ reachedMiddle continuesMiddle).trans turned
      exact ⟨count + least + 1, next, reachedNext, holdsNext, lower⟩
    exact ends.imp fun final ends => ends.1

end Loop
