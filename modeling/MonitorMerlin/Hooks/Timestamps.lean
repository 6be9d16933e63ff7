import Mathlib.Algebra.Order.Ring.Rat
import Mathlib.Data.Rat.Floor
import MonitorMerlin.Hooks.Events

/-! # The time of a relayed check result -/

namespace MonitorMerlin

open HookState

structure ResultPacket where
  source : String
  object : ObjectKey
  type : ResultType
  st : MonitoredObjectState
  deriving DecidableEq, Repr

def handleResultPacket (state : HookState) (packet : ResultPacket) : Int × HookState :=
  match packet.object with
  | .host name => handleHostResult packet.source state name packet.type packet.st
  | .service hostName description =>
    handleServiceResult packet.source state hostName description packet.type packet.st

def DiscardsTooOld (state : HookState) (packet : ResultPacket) : Prop :=
  ∃ lastCheck, state.lastCheck packet.object = some lastCheck ∧ packet.st.lastCheck < lastCheck

def KeepsTimestamps : HookState → List ResultPacket → Prop
  | _, [] => True
  | state, packet :: packets =>
    ¬ DiscardsTooOld state packet ∧
      (handleResultPacket state packet).2.lastCheck packet.object = some packet.st.lastCheck ∧
      KeepsTimestamps (handleResultPacket state packet).2 packets

variable {seconds : ℚ}

private theorem timeT_eq_floor (nonneg : 0 ≤ seconds) : timeT seconds = ⌊seconds⌋ := by
  unfold timeT
  rw [Int.tdiv_eq_ediv_of_nonneg (Rat.num_nonneg.mpr nonneg), Rat.floor_def']

private theorem timeT_eq_zero_iff (nonneg : 0 ≤ seconds) : timeT seconds = 0 ↔ seconds < 1 := by
  rw [timeT_eq_floor nonneg, Int.floor_eq_zero_iff]
  constructor
  · intro inUnit
    exact inUnit.2
  · intro small
    exact ⟨nonneg, small⟩

section OnePacket

variable {state : HookState} {packet : ResultPacket} {lastCheck : Int}

private theorem not_discardsTooOld_iff (known : state.lastCheck packet.object = some lastCheck) :
    ¬ DiscardsTooOld state packet ↔ lastCheck ≤ packet.st.lastCheck := by
  unfold DiscardsTooOld
  rw [known]
  simp

theorem lastCheck_handleResultPacket (known : state.lastCheck packet.object = some lastCheck)
    (isCheck : packet.type = .checkData) (recent : lastCheck ≤ packet.st.lastCheck) :
    (handleResultPacket state packet).2.lastCheck packet.object =
      some (packet.st.lastCheck + timeT packet.st.executionTime) := by
  have handled (returnCode : Int → Int) :
      (handleResult returnCode packet.source state packet.object packet.type packet.st).2.lastCheck
          packet.object =
        some (packet.st.lastCheck + timeT packet.st.executionTime) := by
    unfold handleResult
    rw [known, isCheck]
    simp only [if_neg (Int.not_lt.mpr recent)]
    simp [processCheckResult, handleCheckresult, hookResult, setLastCheck]
  unfold handleResultPacket
  cases object : packet.object with
  | host name =>
    rw [object] at handled
    exact handled hostReturnCode
  | service hostName description =>
    rw [object] at handled
    exact handled id

end OnePacket

/-- Check results of one object with increasing times are all accepted, each
with the time in its packet, exactly if no check took a second or longer. -/
theorem keepsTimestamps_iff
    (object : ObjectKey) (packets : List ResultPacket) (state : HookState) (lastCheck : Int)
    (known : state.lastCheck object = some lastCheck)
    (sameObject : ∀ packet ∈ packets, packet.object = object ∧ packet.type = .checkData)
    (nonneg : ∀ packet ∈ packets, 0 ≤ packet.st.executionTime)
    (recent : ∀ packet ∈ packets.head?, lastCheck ≤ packet.st.lastCheck)
    (increasing : (packets.map fun packet => packet.st.lastCheck).Pairwise (· < ·)) :
    KeepsTimestamps state packets ↔ ∀ packet ∈ packets, packet.st.executionTime < 1 := by
  induction packets generalizing state lastCheck with
  | nil => simp [KeepsTimestamps]
  | cons packet packets ih =>
    obtain ⟨isObject, isCheck⟩ := sameObject packet List.mem_cons_self
    have firstNonneg : 0 ≤ packet.st.executionTime := nonneg packet List.mem_cons_self
    have firstRecent : lastCheck ≤ packet.st.lastCheck := recent packet (by simp)
    have firstKnown : state.lastCheck packet.object = some lastCheck := by
      rw [isObject]
      exact known
    have after := lastCheck_handleResultPacket firstKnown isCheck firstRecent
    have later := List.pairwise_cons.mp increasing
    have keepsFirst :
        (handleResultPacket state packet).2.lastCheck packet.object =
            some packet.st.lastCheck ↔
          packet.st.executionTime < 1 := by
      rw [after, ← timeT_eq_zero_iff firstNonneg]
      simp
    have rest (exact : packet.st.executionTime < 1) :
        KeepsTimestamps (handleResultPacket state packet).2 packets ↔
          ∀ other ∈ packets, other.st.executionTime < 1 := by
      have reached := keepsFirst.mpr exact
      rw [isObject] at reached
      apply ih _ _ reached
      · intro other member
        exact sameObject other (List.mem_cons_of_mem packet member)
      · intro other member
        exact nonneg other (List.mem_cons_of_mem packet member)
      · intro other isHead
        have member : other ∈ packets := List.mem_of_mem_head? isHead
        exact Int.le_of_lt (later.1 _ (List.mem_map_of_mem member))
      · exact later.2
    rw [KeepsTimestamps, not_discardsTooOld_iff firstKnown, keepsFirst, List.forall_mem_cons]
    constructor
    · rintro ⟨-, exact, others⟩
      exact ⟨exact, (rest exact).mp others⟩
    · rintro ⟨exact, others⟩
      exact ⟨firstRecent, exact, (rest exact).mpr others⟩

def sampleResult (lastCheck : Int) (executionTime : ℚ) : ResultPacket :=
  ⟨"peer", .host "h", .checkData, ⟨0, 0, lastCheck, 0, executionTime, none, none, none⟩⟩

def sampleHookState : HookState := ⟨fun _ => some 0, none, []⟩

theorem keepsTimestamps_sample :
    KeepsTimestamps sampleHookState [sampleResult 100 (1 / 2), sampleResult 160 (3 / 4)] :=
  (keepsTimestamps_iff (.host "h") [sampleResult 100 (1 / 2), sampleResult 160 (3 / 4)]
    sampleHookState 0 rfl (by decide) (by decide +kernel) (by decide) (by decide)).mpr
    (by decide +kernel)

theorem sample_result_discarded :
    (handleResultPacket sampleHookState (sampleResult 100 30)).2.lastCheck (.host "h") =
        some 130 ∧
      DiscardsTooOld (handleResultPacket sampleHookState (sampleResult 100 30)).2
        (sampleResult 110 0) ∧
      ¬ KeepsTimestamps sampleHookState [sampleResult 100 30, sampleResult 110 0] := by
  have reached :
      (handleResultPacket sampleHookState (sampleResult 100 30)).2.lastCheck (.host "h") =
        some 130 := by
    decide +kernel
  refine ⟨reached, ⟨130, reached, by decide⟩, ?_⟩
  rintro ⟨-, keeps, -⟩
  have sameTime := reached.symm.trans keeps
  exact absurd sameTime (by decide)

end MonitorMerlin
