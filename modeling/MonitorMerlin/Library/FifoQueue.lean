import Mathlib.Data.List.Basic

/-! # Objects that behave as first-in first-out queues -/

namespace FifoQueue

universe u v w

variable {σ : Type u} {α : Type v} {ε : Type w}

structure Object (σ : Type u) (α : Type v) (ε : Type w) where
  add : σ → α → Bool × σ
  read : σ → Except ε α × σ

inductive Op (α : Type v) where
  | add (item : α)
  | read
  deriving DecidableEq, Repr

structure History (α : Type v) where
  accepted : List α
  delivered : List α
  deriving DecidableEq, Repr

namespace Object

def recordAdd (history : History α) (item : α) (accepted : Bool) : History α :=
  if accepted then
    { history with accepted := history.accepted ++ [item] }
  else
    history

def recordRead (history : History α) : Except ε α → History α
  | .ok item => { history with delivered := history.delivered ++ [item] }
  | .error _ => history

def step (object : Object σ α ε) (op : Op α) (current : History α × σ) : History α × σ :=
  match op with
  | .add item =>
    (recordAdd current.1 item (object.add current.2 item).1, (object.add current.2 item).2)
  | .read => (recordRead current.1 (object.read current.2).1, (object.read current.2).2)

def runFrom (object : Object σ α ε) (current : History α × σ) :
    List (Op α) → History α × σ
  | [] => current
  | op :: rest => object.runFrom (object.step op current) rest

def run (object : Object σ α ε) (state : σ) (ops : List (Op α)) : History α × σ :=
  object.runFrom (⟨[], []⟩, state) ops

def AllowedRun (object : Object σ α ε) (allowed : σ → Op α → Prop) :
    σ → List (Op α) → Prop
  | _, [] => True
  | state, op :: rest =>
    allowed state op ∧ AllowedRun object allowed (object.step op (⟨[], []⟩, state)).2 rest

def Drains (object : Object σ α ε) (empty : ε) : σ → List α → Prop
  | state, [] => (object.read state).1 = .error empty
  | state, item :: rest =>
    (object.read state).1 = .ok item ∧ Drains object empty (object.read state).2 rest

instance Drains.decidable [DecidableEq α] [DecidableEq ε] (object : Object σ α ε) (empty : ε) :
    (state : σ) → (items : List α) → Decidable (object.Drains empty state items)
  | _, [] => inferInstanceAs (Decidable (_ = _))
  | state, _ :: rest =>
    have : Decidable (object.Drains empty (object.read state).2 rest) :=
      Drains.decidable object empty (object.read state).2 rest
    inferInstanceAs (Decidable (_ ∧ _))

def answer (empty : ε) : List α → Except ε α
  | [] => .error empty
  | item :: _ => .ok item

def Holds (object : Object σ α ε) (allowed : σ → Op α → Prop) (empty : ε)
    (state : σ) (items : List α) : Prop :=
  ∀ ops, object.AllowedRun allowed state ops →
    ∃ pending,
      items ++ (object.run state ops).1.accepted =
          (object.run state ops).1.delivered ++ pending ∧
        (object.read (object.run state ops).2).1 = answer empty pending

theorem step_state (object : Object σ α ε) (op : Op α) (first second : History α) (state : σ) :
    (object.step op (first, state)).2 = (object.step op (second, state)).2 := by
  cases op <;> rfl

theorem drains_unique {object : Object σ α ε} {empty : ε} {state : σ} {first second : List α}
    (drainsFirst : object.Drains empty state first)
    (drainsSecond : object.Drains empty state second) : first = second := by
  induction first generalizing state second with
  | nil =>
    cases second with
    | nil => rfl
    | cons item rest =>
      have delivered := drainsSecond.1
      rw [show (object.read state).1 = .error empty from drainsFirst] at delivered
      cases delivered
  | cons item rest ih =>
    cases second with
    | nil =>
      have failed : (object.read state).1 = .error empty := drainsSecond
      rw [drainsFirst.1] at failed
      cases failed
    | cons other others =>
      have sameRead := drainsFirst.1.symm.trans drainsSecond.1
      cases sameRead
      rw [ih drainsFirst.2 drainsSecond.2]

end Object

structure Simulation
    (object : Object σ α ε) (allowed : σ → Op α → Prop) (empty : ε)
    (represents : σ → List α → Prop) : Prop where
  add_accepted : ∀ {state items item},
    represents state items → allowed state (.add item) →
      (object.add state item).1 = true → represents (object.add state item).2 (items ++ [item])
  add_refused : ∀ {state items item},
    represents state items → allowed state (.add item) →
      (object.add state item).1 = false → represents (object.add state item).2 items
  read_next : ∀ {state items item},
    represents state (item :: items) →
      (object.read state).1 = .ok item ∧ represents (object.read state).2 items
  read_empty : ∀ {state},
    represents state [] → (object.read state).1 = .error empty ∧ represents (object.read state).2 []

namespace Simulation

variable {object : Object σ α ε} {allowed : σ → Op α → Prop} {empty : ε}
  {represents : σ → List α → Prop} {state : σ}

section

variable (simulation : Simulation object allowed empty represents)

include simulation

variable {initial pending : List α} {history : History α}

theorem step {op : Op α} (represented : represents state pending)
    (account : initial ++ history.accepted = history.delivered ++ pending)
    (opAllowed : allowed state op) :
    ∃ later,
      initial ++ (object.step op (history, state)).1.accepted =
          (object.step op (history, state)).1.delivered ++ later ∧
        represents (object.step op (history, state)).2 later := by
  cases op with
  | add item =>
    have accepted := simulation.add_accepted represented opAllowed
    have refused := simulation.add_refused represented opAllowed
    simp only [Object.step]
    cases result : (object.add state item).1 with
    | false => exact ⟨pending, by simpa [Object.recordAdd] using account, refused result⟩
    | true =>
      refine ⟨pending ++ [item], ?_, accepted result⟩
      simp [Object.recordAdd, ← List.append_assoc, account]
  | read =>
    simp only [Object.step]
    cases pending with
    | nil =>
      obtain ⟨failed, stillEmpty⟩ := simulation.read_empty represented
      exact ⟨[], by simpa [failed, Object.recordRead] using account, stillEmpty⟩
    | cons item rest =>
      obtain ⟨delivered, restRepresented⟩ := simulation.read_next represented
      exact ⟨rest, by simpa [delivered, Object.recordRead] using account, restRepresented⟩

variable {ops : List (Op α)}

private theorem runFrom (represented : represents state pending)
    (account : initial ++ history.accepted = history.delivered ++ pending)
    (opsAllowed : object.AllowedRun allowed state ops) :
    ∃ later,
      initial ++ (object.runFrom (history, state) ops).1.accepted =
          (object.runFrom (history, state) ops).1.delivered ++ later ∧
        represents (object.runFrom (history, state) ops).2 later := by
  induction ops generalizing history state pending with
  | nil => exact ⟨pending, account, represented⟩
  | cons op rest ih =>
    obtain ⟨later, laterAccount, laterRepresented⟩ :=
      simulation.step represented account opsAllowed.1
    have restAllowed := opsAllowed.2
    rw [object.step_state op ⟨[], []⟩ history state] at restAllowed
    exact ih laterRepresented laterAccount restAllowed

theorem run {initial : List α} (represented : represents state initial)
    (opsAllowed : object.AllowedRun allowed state ops) :
    ∃ pending,
      initial ++ (object.run state ops).1.accepted =
          (object.run state ops).1.delivered ++ pending ∧
        represents (object.run state ops).2 pending :=
  simulation.runFrom represented (by simp) opsAllowed

theorem read {pending : List α} (represented : represents state pending) :
    (object.read state).1 = Object.answer empty pending ∧
      represents (object.read state).2 pending.tail := by
  cases pending with
  | nil => exact simulation.read_empty represented
  | cons item rest => exact simulation.read_next represented

variable {items : List α}

theorem drains (represented : represents state items) : object.Drains empty state items := by
  induction items generalizing state with
  | nil => exact (simulation.read_empty represented).1
  | cons item rest ih =>
    have delivered := simulation.read_next represented
    exact ⟨delivered.1, ih delivered.2⟩

theorem holds (represented : represents state items) : object.Holds allowed empty state items := by
  intro ops opsAllowed
  obtain ⟨pending, account, finalRepresented⟩ := simulation.run represented opsAllowed
  exact ⟨pending, account, (simulation.read finalRepresented).1⟩

end

end Simulation

end FifoQueue
