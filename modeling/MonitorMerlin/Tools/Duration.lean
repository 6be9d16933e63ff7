import MonitorMerlin.Library.MachineInt

/-! # Durations -/

namespace MonitorMerlin

open List MachineInt

def dividers : List Int := [60, 3600, 3600 * 24, 3600 * 24 * 7]

def divideDelta : (i : Nat) → (delta : Int) → (vals : List (Option Int)) →
    Int × List (Option Int)
  | 0, delta, vals => (delta, vals)
  | i + 1, delta, vals =>
    if delta = 0 then
      (delta, vals)
    else
      divideDelta i (delta.tmod (dividers.getD i 1))
        (vals.set i (some (truncateInt (delta.tdiv (dividers.getD i 1)))))

structure Duration where
  weeks : Int
  days : Int
  hours : Int
  minutes : Int
  seconds : Int
  deriving DecidableEq, Repr

def unitText (value : Int) (unit : Char) : List Char := (toString value).toList ++ [unit]

def Duration.text (duration : Duration) : List Char :=
  let seconds := unitText duration.seconds 's'
  let minutes := unitText duration.minutes 'm' ++ ' ' :: seconds
  let hours := unitText duration.hours 'h' ++ ' ' :: minutes
  let days := unitText duration.days 'd' ++ ' ' :: hours
  if duration.weeks ≠ 0 then
    unitText duration.weeks 'w' ++ ' ' :: days
  else if duration.days ≠ 0 then
    days
  else if duration.hours ≠ 0 then
    hours
  else if duration.minutes ≠ 0 then
    minutes
  else
    seconds

/-- `human_duration`. -/
def humanDuration (now before : Int) : Option (List Char) :=
  if now - before = 0 then
    some ['0', 's']
  else
    match divideDelta 4 (now - before) [none, none, none, none] with
    | (delta, [some minutes, some hours, some days, some weeks]) =>
      some (Duration.text ⟨weeks, days, hours, minutes, truncateInt delta⟩)
    | _ => none

structure Duration.Exact (duration : Duration) (delta : Int) : Prop where
  sum : 604800 * duration.weeks + 86400 * duration.days + 3600 * duration.hours +
    60 * duration.minutes + duration.seconds = delta
  weeks : 0 ≤ duration.weeks
  days : 0 ≤ duration.days ∧ duration.days < 7
  hours : 0 ≤ duration.hours ∧ duration.hours < 24
  minutes : 0 ≤ duration.minutes ∧ duration.minutes < 60
  seconds : 0 ≤ duration.seconds ∧ duration.seconds < 60

def PrintsExactly (now before : Int) : Prop :=
  ∃ duration : Duration, humanDuration now before = some duration.text ∧
    duration.Exact (now - before)

variable {i : Nat} {delta now before : Int} {vals : List (Option Int)}

theorem divideDelta_zero (i : Nat) (vals : List (Option Int)) :
    divideDelta i 0 vals = (0, vals) := by
  cases i with
  | zero => rfl
  | succ i => exact if_pos rfl

theorem divideDelta_succ (nonneg : 0 ≤ delta) (left : delta ≠ 0) :
    divideDelta (i + 1) delta vals =
      divideDelta i (delta % dividers.getD i 1)
        (vals.set i (some (truncateInt (delta / dividers.getD i 1)))) := by
  rw [divideDelta, if_neg left, Int.tmod_eq_emod_of_nonneg nonneg,
    Int.tdiv_eq_ediv_of_nonneg nonneg]

theorem mod_dividers_hours (hours : 3600 ∣ delta) (i : Nat) :
    0 ≤ delta % dividers.getD (i + 1) 1 ∧ 3600 ∣ delta % dividers.getD (i + 1) 1 := by
  match i with
  | 0 =>
    change 0 ≤ delta % 3600 ∧ 3600 ∣ delta % 3600
    omega
  | 1 =>
    change 0 ≤ delta % 86400 ∧ 3600 ∣ delta % 86400
    omega
  | 2 =>
    change 0 ≤ delta % 604800 ∧ 3600 ∣ delta % 604800
    omega
  | i + 3 =>
    change 0 ≤ delta % 1 ∧ 3600 ∣ delta % 1
    omega

theorem divideDelta_hours (nonneg : 0 ≤ delta) (hours : 3600 ∣ delta)
    (vals : List (Option Int)) (i : Nat) :
    (divideDelta (i + 2) delta (none :: vals)).2.head? = some none := by
  induction i generalizing delta vals with
  | zero =>
    by_cases left : delta = 0
    · rw [left, divideDelta_zero, head?_cons]
    · rw [divideDelta_succ nonneg left]
      change (divideDelta 1 (delta % 3600) _).2.head? = _
      rw [Int.emod_eq_zero_of_dvd hours, divideDelta_zero, set_cons_succ, head?_cons]
  | succ i ih =>
    by_cases left : delta = 0
    · rw [left, divideDelta_zero, head?_cons]
    · rw [divideDelta_succ nonneg left, set_cons_succ]
      obtain ⟨stillNonneg, stillHours⟩ := mod_dividers_hours hours (i + 1)
      exact ih stillNonneg stillHours _

def Duration.ofSeconds (delta : Int) : Duration :=
  ⟨delta / 604800, delta % 604800 / 86400, delta % 604800 % 86400 / 3600,
    delta % 604800 % 86400 % 3600 / 60, delta % 604800 % 86400 % 3600 % 60⟩

theorem Duration.ofSeconds_exact (nonneg : 0 ≤ delta) : (ofSeconds delta).Exact delta := by
  constructor <;> dsimp only [ofSeconds] <;> omega

theorem divideDelta_all (nonneg : 0 ≤ delta) (left : ¬3600 ∣ delta) :
    divideDelta 4 delta [none, none, none, none] =
      ((Duration.ofSeconds delta).seconds,
        [some (truncateInt (Duration.ofSeconds delta).minutes),
          some (truncateInt (Duration.ofSeconds delta).hours),
          some (truncateInt (Duration.ofSeconds delta).days),
          some (truncateInt (Duration.ofSeconds delta).weeks)]) := by
  rw [divideDelta_succ nonneg (by omega)]
  change divideDelta 3 (delta % 604800) _ = _
  rw [divideDelta_succ (by omega) (by omega)]
  change divideDelta 2 (delta % 604800 % 86400) _ = _
  rw [divideDelta_succ (by omega) (by omega)]
  change divideDelta 1 (delta % 604800 % 86400 % 3600) _ = _
  rw [divideDelta_succ (by omega) (by omega)]
  rfl

theorem humanDuration_of_not_hours (order : before ≤ now)
    (short : now - before < 2 ^ 31 * 604800) (left : ¬3600 ∣ now - before) :
    humanDuration now before = some (Duration.ofSeconds (now - before)).text := by
  have small {value : Int} (lower : 0 ≤ value) (upper : value < 2 ^ 31) :
      truncateInt value = value :=
    truncateInt_of_bounded (by omega) upper
  have exact := Duration.ofSeconds_exact (by omega : 0 ≤ now - before)
  have weeks : (Duration.ofSeconds (now - before)).weeks < 2 ^ 31 := by
    dsimp only [Duration.ofSeconds]
    omega
  obtain ⟨-, lowest, days, hours, minutes, seconds⟩ := exact
  rw [humanDuration, if_neg (by omega), divideDelta_all (by omega) left]
  simp only
  rw [small lowest weeks, small days.1 (by omega), small hours.1 (by omega),
    small minutes.1 (by omega), small seconds.1 (by omega)]

/-- Numbers that were not assigned are read if and only if the duration is a number
of full hours. -/
theorem printsExactly_iff (order : before ≤ now) (short : now - before < 2 ^ 31 * 604800) :
    PrintsExactly now before ↔ now = before ∨ ¬3600 ∣ now - before := by
  constructor
  · rintro ⟨duration, prints, -⟩
    by_contra wrong
    obtain ⟨different, hours⟩ := not_or.mp wrong
    have unset := divideDelta_hours (by omega) (not_not.mp hours) [none, none, none] 2
    rw [humanDuration, if_neg (by omega)] at prints
    split at prints
    · rename_i result
      rw [result] at unset
      cases unset
    · cases prints
  · rintro (same | left)
    · refine ⟨.ofSeconds (now - before), ?_, Duration.ofSeconds_exact (by omega)⟩
      rw [humanDuration, same, sub_self]
      decide
    · exact ⟨_, humanDuration_of_not_hours order short left, Duration.ofSeconds_exact (by omega)⟩

theorem printsExactly_hourMinuteSecond :
    humanDuration 3661 0 = some "1h 1m 1s".toList ∧ PrintsExactly 3661 0 :=
  ⟨by decide, (printsExactly_iff (by decide) (by decide)).mpr (.inr (by decide))⟩

theorem not_printsExactly_oneWeek :
    divideDelta 4 604800 [none, none, none, none] = (0, [none, none, none, some 1]) ∧
      humanDuration 604800 0 = none ∧ ¬PrintsExactly 604800 0 := by
  have unset : humanDuration 604800 0 = none := by decide
  refine ⟨by decide, unset, ?_⟩
  rintro ⟨duration, prints, -⟩
  rw [unset] at prints
  cases prints

end MonitorMerlin
