import Mathlib.Tactic.Ring

/-! # Conversions between machine integers -/

namespace MachineInt

/-- A pattern of 32 bits as an `int`. -/
def toInt (value : Nat) : Int :=
  if value % 2 ^ 32 < 2 ^ 31 then
    (value % 2 ^ 32 : Nat)
  else
    (value % 2 ^ 32 : Nat) - 2 ^ 32

variable {value : Nat}

theorem toInt_of_lt (small : value < 2 ^ 31) : toInt value = value := by
  unfold toInt
  rw [if_pos (by omega), Nat.mod_eq_of_lt (by omega)]

theorem toInt_lt (value : Nat) : toInt value < 2 ^ 31 := by
  unfold toInt
  split
  · omega
  · omega

theorem toInt_eq_iff : toInt value = value ↔ value < 2 ^ 31 := by
  refine ⟨fun same => ?_, toInt_of_lt⟩
  have small := toInt_lt value
  omega

def toInt64 (value : Nat) : Int := if value < 2 ^ 63 then value else value - 2 ^ 64

/-- Conversion to `int`. -/
def truncateInt (value : Int) : Int := value.bmod (2 ^ 32)

theorem truncateInt_of_bounded {value : Int} (lower : -2 ^ 31 ≤ value) (upper : value < 2 ^ 31) :
    truncateInt value = value := Int.bmod_eq_of_le_mul_two (by omega) (by omega)

end MachineInt
