import Mathlib.Data.List.Infix

/-! # Runs of a system whose steps may fail -/

namespace Run

universe u v

variable {σ : Type u} {ε : Type v} (step : σ → ε → Option σ)

def run : σ → List ε → Option σ
  | state, [] => some state
  | state, event :: events => (step state event).bind fun next => run next events

/-- The invariant holds after every part of the run. -/
def Always (invariant : σ → Prop) (start : σ) (events : List ε) : Prop :=
  ∀ before, before <+: events → ∃ state, run step start before = some state ∧ invariant state

def Permits (guard : σ → ε → Prop) : σ → List ε → Prop
  | _, [] => True
  | state, event :: events =>
    guard state event ∧ ∀ next, step state event = some next → Permits guard next events

instance decidablePermits (guard : σ → ε → Prop) [∀ state event, Decidable (guard state event)] :
    ∀ (start : σ) (events : List ε), Decidable (Permits step guard start events)
  | _, [] => .isTrue trivial
  | start, event :: events =>
    match stepped : step start event with
    | none => decidable_of_iff (guard start event) (by simp [Permits, stepped])
    | some next =>
      have := decidablePermits guard next events
      decidable_of_iff (guard start event ∧ Permits step guard next events)
        (by simp [Permits, stepped])

variable {step} {invariant : σ → Prop} {start : σ} {events : List ε} {event : ε}

theorem run_cons_of_step {next : σ} (stepped : step start event = some next) :
    run step start (event :: events) = run step next events := by
  simp [run, stepped]

theorem Always.holds_start (always : Always step invariant start events) : invariant start := by
  obtain ⟨state, reached, holds⟩ := always [] List.nil_prefix
  cases reached
  exact holds

theorem always_nil_iff : Always step invariant start [] ↔ invariant start := by
  constructor
  · exact Always.holds_start
  · intro holds before isPrefix
    rw [List.prefix_nil.mp isPrefix]
    exact ⟨start, rfl, holds⟩

theorem always_cons_iff :
    Always step invariant start (event :: events) ↔
      invariant start ∧
        ∃ next, step start event = some next ∧ Always step invariant next events := by
  constructor
  · intro always
    have holds := always.holds_start
    obtain ⟨state, reachedOne, -⟩ := always [event] (by simp)
    cases stepped : step start event with
    | none => simp [run, stepped] at reachedOne
    | some next =>
      refine ⟨holds, next, rfl, ?_⟩
      intro before isPrefix
      obtain ⟨later, reachedLater, holdsLater⟩ :=
        always (event :: before) (List.cons_prefix_cons.mpr ⟨rfl, isPrefix⟩)
      rw [run_cons_of_step stepped] at reachedLater
      exact ⟨later, reachedLater, holdsLater⟩
  · rintro ⟨holds, next, stepped, always⟩ before isPrefix
    cases before with
    | nil => exact ⟨start, rfl, holds⟩
    | cons first rest =>
      obtain ⟨sameEvent, restPrefix⟩ := List.cons_prefix_cons.mp isPrefix
      rw [sameEvent, run_cons_of_step stepped]
      exact always rest restPrefix

theorem always_of_permits {guard : σ → ε → Prop}
    (keeps : ∀ state event, invariant state → guard state event →
      ∃ next, step state event = some next ∧ invariant next)
    (starts : invariant start) (permitted : Permits step guard start events) :
    Always step invariant start events := by
  induction events generalizing start with
  | nil => exact always_nil_iff.mpr starts
  | cons event events ih =>
    obtain ⟨next, stepped, holdsNext⟩ := keeps start event starts permitted.1
    exact always_cons_iff.mpr ⟨starts, next, stepped, ih holdsNext (permitted.2 next stepped)⟩

theorem always_iff_permits {guard : σ → ε → Prop}
    (exact : ∀ state event, invariant state →
      (guard state event ↔ ∃ next, step state event = some next ∧ invariant next))
    (starts : invariant start) (events : List ε) :
    Always step invariant start events ↔ Permits step guard start events := by
  refine ⟨fun always => ?_,
    always_of_permits (fun state event holds => (exact state event holds).mp) starts⟩
  induction events generalizing start with
  | nil => trivial
  | cons event events ih =>
    obtain ⟨-, next, stepped, later⟩ := always_cons_iff.mp always
    have holdsNext := later.holds_start
    refine ⟨(exact start event starts).mpr ⟨next, stepped, holdsNext⟩, ?_⟩
    intro other steppedOther
    obtain rfl := Option.some.inj (stepped.symm.trans steppedOther)
    exact ih holdsNext later

theorem always_and_iff {kept : σ → Prop}
    (keeps : ∀ state event next, kept state → invariant state → step state event = some next →
      invariant next → kept next) (starts : kept start) (events : List ε) :
    Always step invariant start events ↔
      Always step (fun state => kept state ∧ invariant state) start events := by
  induction events generalizing start with
  | nil =>
    rw [always_nil_iff, always_nil_iff]
    exact ⟨fun holds => ⟨starts, holds⟩, fun holds => holds.2⟩
  | cons event events ih =>
    rw [always_cons_iff, always_cons_iff]
    constructor
    · rintro ⟨holds, next, stepped, always⟩
      have keptNext := keeps start event next starts holds stepped always.holds_start
      exact ⟨⟨starts, holds⟩, next, stepped, (ih keptNext).mp always⟩
    · rintro ⟨⟨-, holds⟩, next, stepped, always⟩
      have keptNext : kept next := always.holds_start.1
      exact ⟨holds, next, stepped, (ih keptNext).mpr always⟩

end Run
