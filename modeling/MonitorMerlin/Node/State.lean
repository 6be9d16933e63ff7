import Mathlib.Data.List.Basic

/-! # States of a connection -/

namespace MonitorMerlin

/-- `STATE_NONE` and the others. -/
inductive NodeState where
  | none
  | pending
  | negotiating
  | connected
  deriving DecidableEq, Repr

def NodeState.allows (current next : NodeState) : Bool :=
  match current, next with
  | _, .none => true
  | .none, .pending => true
  | .none, .negotiating => true
  | .pending, _ => true
  | .negotiating, .connected => true
  | _, _ => false

@[simp]
theorem NodeState.allows_none (current : NodeState) : current.allows .none = true := by
  cases current <;> rfl

theorem NodeState.allows_pending_iff (current : NodeState) :
    current.allows .pending = true ↔ current = .none ∨ current = .pending := by
  cases current <;> decide

theorem NodeState.allows_negotiating_iff (current : NodeState) :
    current.allows .negotiating = true ↔ current = .none ∨ current = .pending := by
  cases current <;> decide

theorem NodeState.allows_connected_iff (current : NodeState) :
    current.allows .connected = true ↔ current = .pending ∨ current = .negotiating := by
  cases current <;> decide

end MonitorMerlin
