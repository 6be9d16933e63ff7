import Mathlib.Data.List.Induction
import Mathlib.Logic.Function.Basic

/-! # States that have changed -/

namespace MonitorMerlin

open List

/-- `CAT_STATE`. -/
def catState (state type : BitVec 32) : BitVec 32 := state ||| type <<< 8

/-- `has_state_change`, with `*old`. -/
def hasStateChange (old state type : BitVec 32) : Bool × BitVec 32 :=
  if old = catState state type then (false, old) else (true, catState state type)

section Table

variable {κ : Type} [DecidableEq κ]

def hasNewState (table : κ → Option (BitVec 32)) (key : κ) (state type : BitVec 32) :
    Bool × (κ → Option (BitVec 32)) :=
  match table key with
  | none => (true, Function.update table key (some (catState state type)))
  | some old =>
    let (changed, cur) := hasStateChange old state type
    (changed, Function.update table key (some cur))

private theorem hasNewState_eq (table : κ → Option (BitVec 32)) (key : κ) (state type : BitVec 32) :
    hasNewState table key state type =
      (decide (table key ≠ some (catState state type)),
        Function.update table key (some (catState state type))) := by
  unfold hasNewState
  cases isOld : table key with
  | none => rfl
  | some old =>
    dsimp only
    rw [hasStateChange]
    split_ifs with same
    · simp [same]
    · simp [same]

end Table

structure StateTables where
  hostStates : List Char → Option (BitVec 32)
  svcStates : List Char × List Char → Option (BitVec 32)

/-- `state_init`. -/
def stateInit : StateTables := ⟨fun _ => none, fun _ => none⟩

/-- `host_has_new_state`. -/
def hostHasNewState (tables : StateTables) (host : Option (List Char)) (state type : BitVec 32) :
    Bool × StateTables :=
  match host with
  | none => (false, tables)
  | some host =>
    let (changed, hostStates) := hasNewState tables.hostStates host state type
    (changed, { tables with hostStates })

/-- `service_has_new_state`. -/
def serviceHasNewState (tables : StateTables) (host desc : Option (List Char))
    (state type : BitVec 32) : Bool × StateTables :=
  match host, desc with
  | some host, some desc =>
    let (changed, svcStates) := hasNewState tables.svcStates (host, desc) state type
    (changed, { tables with svcStates })
  | _, _ => (false, tables)

inductive StateObject where
  | host (name : List Char)
  | service (host desc : List Char)
  deriving DecidableEq, Repr

structure StateCall where
  object : StateObject
  state : BitVec 32
  type : BitVec 32
  deriving DecidableEq, Repr

namespace StateCall

def code (call : StateCall) : BitVec 32 := catState call.state call.type

def InRange (call : StateCall) : Prop := call.state.toNat ≤ 255 ∧ (call.type = 0 ∨ call.type = 1)

instance (call : StateCall) : Decidable call.InRange := inferInstanceAs (Decidable (_ ∧ _))

end StateCall

namespace StateTables

variable (tables : StateTables)

def answer (call : StateCall) : Bool × StateTables :=
  match call.object with
  | .host name => hostHasNewState tables (some name) call.state call.type
  | .service host desc => serviceHasNewState tables (some host) (some desc) call.state call.type

def find : StateObject → Option (BitVec 32)
  | .host name => tables.hostStates name
  | .service host desc => tables.svcStates (host, desc)

def after (calls : List StateCall) : StateTables :=
  calls.foldl (fun tables call => (tables.answer call).2) tables

theorem answer_eq_true_iff (call : StateCall) :
    (tables.answer call).1 = true ↔ tables.find call.object ≠ some call.code := by
  obtain ⟨object, state, type⟩ := call
  cases object with
  | host name =>
    simp only [answer, hostHasNewState, hasNewState_eq, decide_eq_true_eq]
    exact Iff.rfl
  | service host desc =>
    simp only [answer, serviceHasNewState, hasNewState_eq, decide_eq_true_eq]
    exact Iff.rfl

theorem find_answer (call : StateCall) (object : StateObject) :
    (tables.answer call).2.find object =
      if call.object = object then some call.code else tables.find object := by
  obtain ⟨called, state, type⟩ := call
  cases called with
  | host name =>
    simp only [answer, hostHasNewState, hasNewState_eq]
    cases object with
    | host other =>
      simp only [find, Function.update_apply, StateObject.host.injEq, eq_comm]
      rfl
    | service host desc =>
      rw [if_neg fun same => by cases same]
      rfl
  | service host desc =>
    simp only [answer, serviceHasNewState, hasNewState_eq]
    cases object with
    | host other =>
      rw [if_neg fun same => by cases same]
      rfl
    | service otherHost otherDesc =>
      simp only [find, Function.update_apply, Prod.mk.injEq, StateObject.service.injEq, eq_comm]
      rfl

end StateTables

def lastCall (calls : List StateCall) (object : StateObject) : Option StateCall :=
  calls.reverse.find? fun call => call.object = object

theorem find_after_stateInit (calls : List StateCall) (object : StateObject) :
    (stateInit.after calls).find object = (lastCall calls object).map StateCall.code := by
  induction calls using reverseRecOn with
  | nil =>
    cases object with
    | host name | service host desc => rfl
  | append_singleton calls call held =>
    have isLast : lastCall (calls ++ [call]) object =
        if call.object = object then some call else lastCall calls object := by
      rw [lastCall, reverse_append, reverse_singleton, singleton_append, find?_cons]
      by_cases same : call.object = object
      · simp [same]
      · simp [same, lastCall]
    rw [StateTables.after, foldl_append]
    change (StateTables.answer (stateInit.after calls) call).2.find object = _
    rw [StateTables.find_answer, held, isLast]
    split
    · rfl
    · rfl

private theorem toNat_catState {state type : BitVec 32} (small : state.toNat ≤ 255)
    (soft : type = 0 ∨ type = 1) :
    (catState state type).toNat = type.toNat * 256 + state.toNat := by
  have shifted : (type <<< 8).toNat = type.toNat <<< 8 := by
    rcases soft with rfl | rfl
    · rfl
    · rfl
  have below : state.toNat < 2 ^ 8 := by omega
  rw [catState, BitVec.toNat_or, shifted, Nat.or_comm, ← Nat.shiftLeft_add_eq_or_of_lt below,
    Nat.shiftLeft_eq]

theorem StateCall.code_eq_iff {first second : StateCall} (firstInRange : first.InRange)
    (secondInRange : second.InRange) :
    first.code = second.code ↔ first.state = second.state ∧ first.type = second.type := by
  constructor
  · intro same
    have sameNat := congrArg BitVec.toNat same
    rw [code, code, toNat_catState firstInRange.1 firstInRange.2,
      toNat_catState secondInRange.1 secondInRange.2] at sameNat
    have firstSmall := firstInRange.1
    have secondSmall := secondInRange.1
    exact ⟨BitVec.eq_of_toNat_eq (by omega), BitVec.eq_of_toNat_eq (by omega)⟩
  · intro ⟨sameState, sameType⟩
    rw [code, code, sameState, sameType]

/-- After any calls, a call returns 1 if and only if it is the first one for its object
or the state or the type is not that of the last one. -/
theorem answer_after_iff {calls : List StateCall} {call : StateCall}
    (inRange : ∀ other ∈ call :: calls, other.InRange) :
    ((stateInit.after calls).answer call).1 = true ↔
      ∀ previous, lastCall calls call.object = some previous →
        (previous.state, previous.type) ≠ (call.state, call.type) := by
  rw [StateTables.answer_eq_true_iff, find_after_stateInit]
  cases isLast : lastCall calls call.object with
  | none => simp
  | some last =>
    have member : last ∈ calls := mem_reverse.mp (mem_of_find?_eq_some isLast)
    have same := StateCall.code_eq_iff (inRange last (mem_cons_of_mem _ member))
      (inRange call mem_cons_self)
    simp [same]

theorem answer_after_soft :
    ((stateInit.after [⟨.host ['a'], 1, 0⟩]).answer ⟨.host ['a'], 1, 1⟩).1 = true := by
  refine (answer_after_iff (by decide)).mpr ?_
  intro previous isLast
  cases isLast
  decide

end MonitorMerlin
