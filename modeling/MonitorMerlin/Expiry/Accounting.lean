import MonitorMerlin.Expiry.State
import MonitorMerlin.Library.Run
import MonitorMerlin.Library.Tally

/-! # Counting checks that are overdue -/

namespace MonitorMerlin

open LinkedList

universe u

variable {ν : Type u} {numHosts numServices : Nat}

def ExpiryState.Listed (state : ExpiryState ν numHosts numServices) : Prop :=
  ∃ entries, IsList state.heap state.expiredEvents entries ∧
    (∀ entry, entry ∈ entries ↔ ∃ object, state.expired object = some entry) ∧
    ∀ object other entry, state.expired object = some entry →
      state.expired other = some entry → object = other

def ExpiredOn (node : ν) (type : CheckType) (object : CheckedObject numHosts numServices)
    (check : Option (ExpiredCheck ν)) : Prop :=
  object.type = type ∧ check.map ExpiredCheck.node = some node

section Entries

variable {state : ExpiryState ν numHosts numServices} {object : CheckedObject numHosts numServices}
  {entry : Nat}

theorem ExpiryState.Listed.dataAt (listed : state.Listed)
    (points : state.expired object = some entry) :
    ∃ check, state.heap.dataAt entry = some check ∧ state.expiredCheck object = some check := by
  obtain ⟨entries, isList, exact, -⟩ := listed
  have allocated := isList.allocated ((exact entry).mpr ⟨object, points⟩)
  obtain ⟨cell, found⟩ := Option.isSome_iff_exists.mp allocated
  refine ⟨cell.data, ?_, ?_⟩
  · simp [Heap.dataAt, found]
  · simp [ExpiryState.expiredCheck, points, Heap.dataAt, found]

theorem ExpiryState.Listed.distinct (listed : state.Listed)
    {other : CheckedObject numHosts numServices} (points : state.expired object = some entry)
    (otherPoints : state.expired other = some entry) : object = other := by
  obtain ⟨entries, -, -, distinct⟩ := listed
  exact distinct object other entry points otherPoints

theorem ExpiryState.expiredCheck_of_none (unset : state.expired object = none) :
    state.expiredCheck object = none := by
  simp [ExpiryState.expiredCheck, unset]

variable {after : ExpiryState ν numHosts numServices}

theorem ExpiryState.expiredCheck_update {entry : Option Nat} {check : Option (ExpiredCheck ν)}
    (table : after.expired = Function.update state.expired object entry)
    (value : entry.bind after.heap.dataAt = check)
    (others : ∀ other address, other ≠ object → state.expired other = some address →
      after.heap.dataAt address = state.heap.dataAt address) :
    after.expiredCheck = Function.update state.expiredCheck object check := by
  funext other
  by_cases same : other = object
  · rw [same, Function.update_self, ExpiryState.expiredCheck, table, Function.update_self, value]
  · rw [Function.update_of_ne same, ExpiryState.expiredCheck, table, Function.update_of_ne same,
      ExpiryState.expiredCheck]
    cases points : state.expired other with
    | none => rfl
    | some address => exact others other address same points

private theorem expiredOn_some_iff (node : ν) (type : CheckType) (check : ExpiredCheck ν) :
    ExpiredOn node type object (some check) ↔ node = check.node ∧ type = object.type := by
  unfold ExpiredOn
  simp only [Option.map_some, Option.some.injEq]
  constructor
  · rintro ⟨sameType, sameNode⟩
    exact ⟨sameNode.symm, sameType.symm⟩
  · rintro ⟨sameNode, sameType⟩
    exact ⟨sameType.symm, sameNode.symm⟩

theorem not_expiredOn_none (node : ν) (type : CheckType) : ¬ ExpiredOn node type object none := by
  rintro ⟨-, impossible⟩
  cases impossible

private theorem update_eq_some_iff {table : CheckedObject numHosts numServices → Option Nat}
    {owner : CheckedObject numHosts numServices} {value : Option Nat} :
    Function.update table object value owner = some entry ↔
      (owner = object ∧ value = some entry) ∨ (owner ≠ object ∧ table owner = some entry) := by
  rw [Function.update_apply]
  split_ifs with same
  · simp [same]
  · simp [same]

theorem ExpiryState.Listed.remove (listed : state.Listed)
    (points : state.expired object = some entry)
    (table : after.expired = Function.update state.expired object none)
    (memory : (after.heap, after.expiredEvents) =
      LinkedList.remove state.heap state.expiredEvents entry) : after.Listed := by
  obtain ⟨entries, isList, exact, distinct⟩ := listed
  obtain ⟨earlier, later, split⟩ := List.append_of_mem ((exact entry).mpr ⟨object, points⟩)
  rw [split] at isList exact
  have removed := isList.remove
  rw [← memory] at removed
  have notTwice : entry ∉ earlier ++ later := (List.nodup_middle.mp isList.nodup).notMem
  have still : ∀ owner other, after.expired owner = some other →
      owner ≠ object ∧ state.expired owner = some other := by
    intro owner other ownerPoints
    rw [table, update_eq_some_iff] at ownerPoints
    rcases ownerPoints with ⟨_, impossible⟩ | unchanged
    · cases impossible
    · exact unchanged
  refine ⟨earlier ++ later, removed, ?_, ?_⟩
  · intro other
    have inAll := exact other
    rw [List.perm_middle.mem_iff, List.mem_cons] at inAll
    constructor
    · intro member
      obtain ⟨owner, ownerPoints⟩ := inAll.mp (.inr member)
      refine ⟨owner, ?_⟩
      rw [table]
      refine update_eq_some_iff.mpr (.inr ⟨?_, ownerPoints⟩)
      rintro rfl
      rw [Option.some.inj (points.symm.trans ownerPoints)] at notTwice
      exact notTwice member
    · rintro ⟨owner, ownerPoints⟩
      obtain ⟨notObject, unchanged⟩ := still owner other ownerPoints
      rcases inAll.mpr ⟨owner, unchanged⟩ with rfl | member
      · exact absurd (distinct owner object other unchanged points) notObject
      · exact member
  · intro first second shared firstPoints secondPoints
    exact distinct first second shared (still first shared firstPoints).2
      (still second shared secondPoints).2

theorem ExpiryState.Listed.insert (listed : state.Listed) {check : ExpiredCheck ν}
    (unset : state.expired object = none)
    (table : after.expired = Function.update state.expired object
      (some (insertBefore state.heap state.expiredEvents check).2))
    (memory : after.heap = (insertBefore state.heap state.expiredEvents check).1)
    (first : after.expiredEvents = some (insertBefore state.heap state.expiredEvents check).2) :
    after.Listed := by
  obtain ⟨entries, isList, exact, distinct⟩ := listed
  have inserted := isList.insertBefore check
  rw [← memory, ← first] at inserted
  rw [address_insertBefore] at table
  have unused : ∀ owner, state.expired owner ≠ some state.heap.top := by
    intro owner points
    exact isList.notMem_top ((exact state.heap.top).mpr ⟨owner, points⟩)
  refine ⟨state.heap.top :: entries, inserted, ?_, ?_⟩
  · intro entry
    rw [List.mem_cons, exact, table]
    constructor
    · rintro (rfl | ⟨owner, points⟩)
      · exact ⟨object, Function.update_self ..⟩
      · refine ⟨owner, update_eq_some_iff.mpr (.inr ⟨?_, points⟩)⟩
        rintro rfl
        rw [unset] at points
        cases points
    · rintro ⟨owner, points⟩
      rcases update_eq_some_iff.mp points with ⟨_, isTop⟩ | ⟨_, unchanged⟩
      · exact .inl (Option.some.inj isTop).symm
      · exact .inr ⟨owner, unchanged⟩
  · intro owner other entry ownerPoints otherPoints
    rw [table, update_eq_some_iff] at ownerPoints otherPoints
    rcases ownerPoints with ⟨ownerNew, isTop⟩ | ⟨_, ownerOld⟩
    · rcases otherPoints with ⟨otherNew, _⟩ | ⟨_, otherOld⟩
      · rw [ownerNew, otherNew]
      · exact absurd (otherOld.trans isTop.symm) (unused other)
    · rcases otherPoints with ⟨_, isTop⟩ | ⟨_, otherOld⟩
      · exact absurd (ownerOld.trans isTop.symm) (unused owner)
      · exact distinct owner other entry ownerOld otherOld

end Entries

variable [DecidableEq ν]

instance (node : ν) (type : CheckType) (object : CheckedObject numHosts numServices)
    (check : Option (ExpiredCheck ν)) : Decidable (ExpiredOn node type object check) :=
  inferInstanceAs (Decidable (_ ∧ _))

def ExpiryState.countExpired
    (state : ExpiryState ν numHosts numServices) (node : ν) (type : CheckType) : Nat :=
  (Finset.univ.filter fun object =>
    ExpiredOn node type object (state.expiredCheck object)).card

/-- The counters and the list agree with the tables. -/
structure ExpiryState.Accounted (state : ExpiryState ν numHosts numServices) : Prop where
  counted : ∀ node type, state.counter node type = state.countExpired node type
  nonneg : ∀ node type, 0 ≤ state.counter node type
  listed : state.Listed

def FireAllowed (eventStart : Int) (state : ExpiryState ν numHosts numServices) :
    ExpiryEvent ν numHosts numServices → Prop
  | .fire object _ =>
    ∀ evt, state.expiryMap object = some evt →
      state.notExpired object eventStart evt = true → state.expired object = none
  | _ => True

structure Recounts
    (before after : ExpiryState ν numHosts numServices)
    (object : CheckedObject numHosts numServices) (check : Option (ExpiredCheck ν)) : Prop where
  listed : after.Listed
  checks : after.expiredCheck = Function.update before.expiredCheck object check
  counter : ∀ node type, after.counter node type =
    before.counter node type -
      (if ExpiredOn node type object (before.expiredCheck object) then 1 else 0) +
      (if ExpiredOn node type object check then 1 else 0)

section Recounting

variable {before after state : ExpiryState ν numHosts numServices}
  {object : CheckedObject numHosts numServices} {check : Option (ExpiredCheck ν)}

theorem ExpiryState.Accounted.of_counted
    (counted : ∀ node type, state.counter node type = state.countExpired node type)
    (listed : state.Listed) : state.Accounted := by
  refine ⟨counted, ?_, listed⟩
  intro node type
  rw [counted]
  exact Int.natCast_nonneg _

theorem Recounts.countExpired (recounts : Recounts before after object check)
    (node : ν) (type : CheckType) :
    (after.countExpired node type : Int) =
      before.countExpired node type -
        (if ExpiredOn node type object (before.expiredCheck object) then 1 else 0) +
        (if ExpiredOn node type object check then 1 else 0) := by
  unfold ExpiryState.countExpired
  rw [recounts.checks]
  exact Tally.card_filter_update (ExpiredOn node type) before.expiredCheck object check

theorem Recounts.accounted (recounts : Recounts before after object check)
    (accounted : before.Accounted) : after.Accounted := by
  apply ExpiryState.Accounted.of_counted
  · intro node type
    rw [recounts.counter, recounts.countExpired, accounted.counted]
  · exact recounts.listed

theorem ExpiryState.counter_addToCounter
    (state : ExpiryState ν numHosts numServices) (node other : ν) (type otherType : CheckType)
    (amount : Int) :
    (state.addToCounter node type amount).counter other otherType =
      state.counter other otherType + if other = node ∧ otherType = type then amount else 0 := by
  unfold ExpiryState.addToCounter
  simp only
  split
  · rfl
  · rw [Int.add_zero]

private theorem recounts_clearExpired (listed : state.Listed)
    (object : CheckedObject numHosts numServices) :
    Recounts state (state.clearExpired object) object none := by
  cases points : state.expired object with
  | none =>
    have unset := ExpiryState.expiredCheck_of_none points
    have same : state.clearExpired object = state := by
      unfold ExpiryState.clearExpired
      rw [points]
    rw [same]
    refine ⟨listed, ?_, ?_⟩
    · rw [← unset, Function.update_eq_self]
    · intro node type
      rw [unset, if_neg (not_expiredOn_none node type)]
      omega
  | some entry =>
    obtain ⟨check, data, found⟩ := listed.dataAt points
    have cleared :
        state.clearExpired object =
          { state.addToCounter check.node object.type (-1) with
            heap := (remove state.heap state.expiredEvents entry).1
            expiredEvents := (remove state.heap state.expiredEvents entry).2
            expired := Function.update state.expired object none } := by
      unfold ExpiryState.clearExpired
      rw [points]
      simp only [data]
      rfl
    rw [cleared]
    refine ⟨listed.remove points rfl rfl, ?_, ?_⟩
    · apply ExpiryState.expiredCheck_update
      · rfl
      · rfl
      · intro other address differs otherPoints
        apply (dataAt_remove state.heap state.expiredEvents entry address).trans
        rw [if_neg]
        rintro rfl
        exact differs (listed.distinct otherPoints points)
    · intro node type
      have counter := ExpiryState.counter_addToCounter state check.node node object.type type (-1)
      simp only [found, expiredOn_some_iff, if_neg (not_expiredOn_none node type)]
      refine counter.trans ?_
      split
      · omega
      · omega

private theorem recounts_moveExpired (listed : state.Listed) {evt last : ExpiredCheck ν}
    (found : state.expiredCheck object = some last) (differs : last.node ≠ evt.node) :
    Recounts state (state.moveExpired object evt last) object (some evt) := by
  obtain ⟨entry, points, data⟩ := Option.bind_eq_some_iff.mp found
  have moved :
      state.moveExpired object evt last =
        { (state.addToCounter last.node object.type (-1)).addToCounter
            evt.node object.type 1 with
          heap := state.heap.modify (some entry) fun cell => { cell with data := evt } } := by
    unfold ExpiryState.moveExpired
    rw [if_neg differs, ← points]
    rfl
  rw [moved]
  refine ⟨?_, ?_, ?_⟩
  · obtain ⟨entries, isList, exact, distinct⟩ := listed
    exact ⟨entries, isList.modify_data (some entry) evt, exact, distinct⟩
  · apply ExpiryState.expiredCheck_update
    · exact (Function.update_eq_self object state.expired).symm
    · rw [points]
      apply (dataAt_modify_data state.heap entry evt entry).trans
      rw [if_pos rfl, data]
      rfl
    · intro other address otherDiffers otherPoints
      apply (dataAt_modify_data state.heap entry evt address).trans
      rw [if_neg]
      rintro rfl
      exact otherDiffers (listed.distinct otherPoints points)
  · intro node type
    have first := ExpiryState.counter_addToCounter state last.node node object.type type (-1)
    have second :=
      ExpiryState.counter_addToCounter (state.addToCounter last.node object.type (-1))
        evt.node node object.type type 1
    simp only [found, expiredOn_some_iff]
    refine second.trans ?_
    rw [first]
    split
    · split
      · omega
      · omega
    · split
      · omega
      · omega

private theorem recounts_insertExpired (listed : state.Listed) (evt : ExpiredCheck ν)
    (unset : state.expired object = none) :
    Recounts state (state.insertExpired object evt) object (some evt) := by
  refine ⟨listed.insert unset rfl rfl rfl, ?_, ?_⟩
  · apply ExpiryState.expiredCheck_update
    · rfl
    · apply (dataAt_insertBefore state.heap state.expiredEvents evt _).trans
      rw [address_insertBefore, if_pos rfl]
    · intro other address differs otherPoints
      apply (dataAt_insertBefore state.heap state.expiredEvents evt address).trans
      rw [if_neg]
      rintro rfl
      obtain ⟨entries, isList, exact, -⟩ := listed
      exact isList.notMem_top ((exact _).mpr ⟨other, otherPoints⟩)
  · intro node type
    have counter := ExpiryState.counter_addToCounter state evt.node node object.type type 1
    simp only [ExpiryState.expiredCheck_of_none unset, expiredOn_some_iff,
      if_neg (not_expiredOn_none node type)]
    refine counter.trans ?_
    omega

end Recounting

section Steps

variable {state : ExpiryState ν numHosts numServices} {eventStart : Int}

section

variable (accounted : state.Accounted)

include accounted

section

variable (object : CheckedObject numHosts numServices)

theorem ExpiryState.Accounted.unexpire :
    (state.unexpire object).Accounted := by
  have cleared := (recounts_clearExpired accounted.listed object).accounted accounted
  exact ⟨cleared.counted, cleared.nonneg, cleared.listed⟩

theorem ExpiryState.Accounted.schedule (node : ν)
    (now : Int) (allocated : Bool) :
    (state.scheduleExpirationEvent object node now allocated).Accounted := by
  unfold ExpiryState.scheduleExpirationEvent
  split
  · exact accounted
  · exact ⟨accounted.counted, accounted.nonneg, accounted.listed⟩

theorem ExpiryState.Accounted.recover_iff :
    (state.recover object).Accounted ↔ state.expired object = none := by
  unfold ExpiryState.recover
  cases points : state.expired object with
  | none =>
    rw [ExpiryState.expiredCheck_of_none points]
    exact ⟨fun _ => rfl, fun _ => accounted.unexpire object⟩
  | some entry =>
    obtain ⟨last, -, found⟩ := accounted.listed.dataAt points
    rw [found]
    simp only [reduceCtorEq, iff_false]
    intro twice
    have recounts :=
      recounts_clearExpired
        (show (state.addToCounter last.node object.type (-1)).Listed from accounted.listed)
        object
    have isExpired : ExpiredOn last.node object.type object
        ((state.addToCounter last.node object.type (-1)).expiredCheck object) := by
      rw [show (state.addToCounter last.node object.type (-1)).expiredCheck object =
        some last from found, expiredOn_some_iff]
      exact ⟨rfl, rfl⟩
    have counter := recounts.counter last.node object.type
    have count := recounts.countExpired last.node object.type
    have first :=
      ExpiryState.counter_addToCounter state last.node last.node object.type object.type (-1)
    have agree := twice.counted last.node object.type
    have before := accounted.counted last.node object.type
    have sameCount :
        (state.addToCounter last.node object.type (-1)).countExpired last.node object.type =
          state.countExpired last.node object.type :=
      rfl
    have sameAfter :
        ((state.addToCounter last.node object.type (-1)).unexpire object).countExpired
            last.node object.type =
          ((state.addToCounter last.node object.type (-1)).clearExpired object).countExpired
            last.node object.type :=
      rfl
    have sameCounter :
        ((state.addToCounter last.node object.type (-1)).unexpire object).counter
            last.node object.type =
          ((state.addToCounter last.node object.type (-1)).clearExpired object).counter
            last.node object.type :=
      rfl
    rw [if_pos isExpired, if_neg (not_expiredOn_none _ _)] at counter count
    rw [if_pos ⟨rfl, rfl⟩] at first
    omega

theorem ExpiryState.Accounted.expireEvent_iff
    (evt : ExpiredCheck ν) (allocated : Bool) :
    (state.expireEvent object eventStart evt allocated).Accounted ↔
      (state.notExpired object eventStart evt = true → state.expired object = none) := by
  have fired :
      ({ state with expiryMap := Function.update state.expiryMap object none } :
        ExpiryState ν numHosts numServices).Accounted :=
    ⟨accounted.counted, accounted.nonneg, accounted.listed⟩
  unfold ExpiryState.expireEvent
  simp only
  generalize afterFiring :
    ({ state with expiryMap := Function.update state.expiryMap object none } :
      ExpiryState ν numHosts numServices) = next at fired
  have sameVerdict :
      next.notExpired object eventStart evt = state.notExpired object eventStart evt := by
    rw [← afterFiring]
    rfl
  have sameTable : next.expired object = state.expired object := by
    rw [← afterFiring]
  rw [← sameVerdict, ← sameTable]
  by_cases recovers : next.notExpired object eventStart evt = true
  · rw [if_pos recovers, fired.recover_iff]
    exact ⟨fun unset _ => unset, fun allowed => allowed recovers⟩
  · rw [if_neg recovers]
    refine ⟨fun _ isRecovery => absurd isRecovery recovers, fun _ => ?_⟩
    cases found : next.expiredCheck object with
    | some last =>
      simp only
      by_cases sameNode : last.node = evt.node
      · unfold ExpiryState.moveExpired
        rw [if_pos sameNode]
        exact fired
      · exact (recounts_moveExpired fired.listed found sameNode).accounted fired
    | none =>
      simp only
      cases allocated with
      | false => exact fired
      | true =>
        have unset : next.expired object = none := by
          cases points : next.expired object with
          | none => rfl
          | some entry =>
            obtain ⟨last, -, isSome⟩ := fired.listed.dataAt points
            rw [found] at isSome
            cases isSome
        exact (recounts_insertExpired fired.listed evt unset).accounted fired

end

private theorem fireAllowed_iff (event : ExpiryEvent ν numHosts numServices) :
    FireAllowed eventStart state event ↔ (expiryStep eventStart state event).Accounted := by
  cases event with
  | schedule object node now allocated =>
    exact ⟨fun _ => accounted.schedule object node now allocated, fun _ => trivial⟩
  | fire object allocated =>
    cases scheduled : state.expiryMap object with
    | none =>
      simp only [FireAllowed, expiryStep, scheduled, reduceCtorEq, false_implies,
        implies_true, true_iff]
      exact accounted
    | some evt =>
      simp only [FireAllowed, expiryStep, scheduled, Option.some.injEq, forall_eq']
      exact (accounted.expireEvent_iff object evt allocated).symm
  | unexpire object => exact ⟨fun _ => accounted.unexpire object, fun _ => trivial⟩
  | change object lastCheck checkWindow =>
    exact ⟨fun _ => ⟨accounted.counted, accounted.nonneg, accounted.listed⟩, fun _ => trivial⟩

end

theorem expiryStart_accounted (lastCheck checkWindow : CheckedObject numHosts numServices → Int) :
    (expiryStart lastCheck checkWindow : ExpiryState ν numHosts numServices).Accounted := by
  apply ExpiryState.Accounted.of_counted
  · intro node type
    have none : (expiryStart lastCheck checkWindow :
        ExpiryState ν numHosts numServices).countExpired node type = 0 := by
      unfold ExpiryState.countExpired
      rw [Finset.card_eq_zero, Finset.filter_eq_empty_iff]
      intro object _
      exact not_expiredOn_none node type
    rw [none]
    rfl
  · refine ⟨[], isList_nil _, ?_, ?_⟩
    · intro entry
      simp [expiryStart]
    · intro object other entry points
      cases points

end Steps

/-- Over every run, the counters and the list agree with the tables after every
step, exactly if no event fires for a check that is expired and has come in
since. -/
theorem expiry_accounted_iff
    (eventStart : Int) (lastCheck checkWindow : CheckedObject numHosts numServices → Int)
    (events : List (ExpiryEvent ν numHosts numServices)) :
    Run.Always (fun state event => some (expiryStep eventStart state event))
        ExpiryState.Accounted (expiryStart lastCheck checkWindow) events ↔
      Run.Permits (fun state event => some (expiryStep eventStart state event))
        (FireAllowed eventStart) (expiryStart lastCheck checkWindow) events := by
  apply Run.always_iff_permits
  · intro state event accounted
    rw [fireAllowed_iff accounted]
    simp
  · exact expiryStart_accounted lastCheck checkWindow

def recoveringHost : List (ExpiryEvent Nat 1 0) :=
  [.schedule (.inl 0) 7 1000 true, .fire (.inl 0) true, .schedule (.inl 0) 7 2000 true,
    .change (.inl 0) 1990 300, .fire (.inl 0) true]

theorem expiry_not_accounted :
    ((recoveringHost.foldl (expiryStep 0)
        (expiryStart (fun _ => 0) fun _ => 300)).counter 7 .hostCheck) = -1 ∧
      ¬ Run.Always (fun state event => some (expiryStep 0 state event))
        ExpiryState.Accounted (expiryStart (fun _ => 0) fun _ => 300) recoveringHost := by
  constructor
  · rfl
  · intro always
    obtain ⟨state, reached, accounted⟩ := always _ List.prefix_rfl
    have counter :
        (Run.run (fun state event => some (expiryStep 0 state event))
          (expiryStart (fun _ => 0) fun _ => 300) recoveringHost).map
            (fun state => state.counter 7 .hostCheck) = some (-1) :=
      rfl
    rw [reached] at counter
    have negative : state.counter 7 .hostCheck = -1 := Option.some.inj counter
    have nonneg := accounted.nonneg 7 .hostCheck
    rw [negative] at nonneg
    exact absurd nonneg (by decide)

end MonitorMerlin
