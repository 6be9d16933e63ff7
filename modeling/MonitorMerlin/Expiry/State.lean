import Mathlib.Data.Fintype.Sum
import MonitorMerlin.Library.LinkedList

/-! # Checks that are overdue -/

namespace MonitorMerlin

open LinkedList

universe u

inductive CheckType where
  | hostCheck
  | serviceCheck
  deriving DecidableEq, Repr

abbrev CheckedObject (numHosts numServices : Nat) := Fin numHosts ⊕ Fin numServices

def CheckedObject.type {numHosts numServices : Nat} :
    CheckedObject numHosts numServices → CheckType
  | .inl _ => .hostCheck
  | .inr _ => .serviceCheck

/-- `struct merlin_expired_check`. -/
structure ExpiredCheck (ν : Type u) where
  node : ν
  added : Int
  deriving DecidableEq, Repr

variable {ν : Type u} {numHosts numServices : Nat}

structure ExpiryState (ν : Type u) (numHosts numServices : Nat) where
  expiryMap : CheckedObject numHosts numServices → Option (ExpiredCheck ν)
  expired : CheckedObject numHosts numServices → Option Nat
  heap : Heap (ExpiredCheck ν)
  expiredEvents : Option Nat
  counter : ν → CheckType → Int
  lastCheck : CheckedObject numHosts numServices → Int
  checkWindow : CheckedObject numHosts numServices → Int

namespace ExpiryState

variable (state : ExpiryState ν numHosts numServices) (object : CheckedObject numHosts numServices)

def expiredCheck : Option (ExpiredCheck ν) := (state.expired object).bind state.heap.dataAt

variable [DecidableEq ν]

def addToCounter (node : ν) (type : CheckType) (amount : Int) :
    ExpiryState ν numHosts numServices :=
  { state with
    counter := fun other otherType =>
      if other = node ∧ otherType = type then
        state.counter other otherType + amount
      else
        state.counter other otherType }

def clearExpired : ExpiryState ν numHosts numServices :=
  match state.expired object with
  | none => state
  | some entry =>
    let counted :=
      match state.heap.dataAt entry with
      | none => state
      | some last => state.addToCounter last.node object.type (-1)
    let removed := remove counted.heap counted.expiredEvents entry
    { counted with
      heap := removed.1
      expiredEvents := removed.2
      expired := Function.update counted.expired object none }

/-- `unexpire_host` and `unexpire_service`. -/
def unexpire : ExpiryState ν numHosts numServices :=
  let cleared := state.clearExpired object
  { cleared with expiryMap := Function.update cleared.expiryMap object none }

/-- `schedule_expiration_event`. -/
def scheduleExpirationEvent (node : ν) (now : Int) (allocated : Bool) :
    ExpiryState ν numHosts numServices :=
  if (state.expiryMap object).isSome ∨ allocated = false then
    state
  else
    { state with expiryMap := Function.update state.expiryMap object (some ⟨node, now⟩) }

def notExpired (eventStart : Int) (evt : ExpiredCheck ν) : Bool :=
  let previousCheckTime := evt.added - state.checkWindow object
  previousCheckTime < eventStart || previousCheckTime ≤ state.lastCheck object

def recover : ExpiryState ν numHosts numServices :=
  match state.expiredCheck object with
  | none => state.unexpire object
  | some last => (state.addToCounter last.node object.type (-1)).unexpire object

/-- `expire_event` of an object with an entry. -/
def moveExpired (evt last : ExpiredCheck ν) : ExpiryState ν numHosts numServices :=
  if last.node = evt.node then
    state
  else
    let counted :=
      (state.addToCounter last.node object.type (-1)).addToCounter evt.node object.type 1
    { counted with
      heap := counted.heap.modify (counted.expired object) fun entry =>
        { entry with data := evt } }

/-- `expire_event` of an object without an entry. -/
def insertExpired (evt : ExpiredCheck ν) : ExpiryState ν numHosts numServices :=
  let inserted := insertBefore state.heap state.expiredEvents evt
  { state.addToCounter evt.node object.type 1 with
    heap := inserted.1
    expiredEvents := some inserted.2
    expired := Function.update state.expired object (some inserted.2) }

/-- `expire_event`. -/
def expireEvent (eventStart : Int) (evt : ExpiredCheck ν) (allocated : Bool) :
    ExpiryState ν numHosts numServices :=
  let fired := { state with expiryMap := Function.update state.expiryMap object none }
  if fired.notExpired object eventStart evt then
    fired.recover object
  else
    match fired.expiredCheck object with
    | some last => fired.moveExpired object evt last
    | none => if allocated then fired.insertExpired object evt else fired

end ExpiryState

inductive ExpiryEvent (ν : Type u) (numHosts numServices : Nat) where
  | schedule (object : CheckedObject numHosts numServices) (node : ν) (now : Int) (allocated : Bool)
  | fire (object : CheckedObject numHosts numServices) (allocated : Bool)
  | unexpire (object : CheckedObject numHosts numServices)
  | change (object : CheckedObject numHosts numServices) (lastCheck checkWindow : Int)
  deriving DecidableEq, Repr

variable [DecidableEq ν]

def expiryStep (eventStart : Int) (state : ExpiryState ν numHosts numServices) :
    ExpiryEvent ν numHosts numServices → ExpiryState ν numHosts numServices
  | .schedule object node now allocated => state.scheduleExpirationEvent object node now allocated
  | .fire object allocated =>
    match state.expiryMap object with
    | none => state
    | some evt => state.expireEvent object eventStart evt allocated
  | .unexpire object => state.unexpire object
  | .change object lastCheck checkWindow =>
    { state with
      lastCheck := Function.update state.lastCheck object lastCheck
      checkWindow := Function.update state.checkWindow object checkWindow }

def expiryStart (lastCheck checkWindow : CheckedObject numHosts numServices → Int) :
    ExpiryState ν numHosts numServices :=
  ⟨fun _ => none, fun _ => none, Heap.empty, none, fun _ _ => 0, lastCheck, checkWindow⟩

end MonitorMerlin
