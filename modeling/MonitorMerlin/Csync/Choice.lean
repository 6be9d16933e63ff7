import MonitorMerlin.Net.Receive

/-! # Synchronising the configuration -/

namespace MonitorMerlin

open ByteImage MachineInt

/-- `struct merlin_child`. -/
inductive Child where
  | push
  | fetch
  deriving DecidableEq, Repr

/-- `struct merlin_confsync`. -/
structure CsyncConfig where
  pushCmd : Option Bytes
  connect : Bool
  configured : Bool
  deriving DecidableEq, Repr

structure CsyncState where
  isRunning : Child → Bool
  lastAttempt : Int

def wordNo : Bytes := [110, 111]
def wordColon : Bytes := [58]

def childCmd (expected : Expected) (csync : CsyncConfig) : Child → Option Bytes
  | .push => csync.pushCmd
  | .fetch => expected.fetchCmd

def usable (cmd : Option Bytes) : Bool := cmd.isSome && decide (cmd ≠ some wordNo)

section Choice

variable (expected : Expected) (csync : CsyncConfig)

def childIfUsable (child : Child) : Option Child :=
  if usable (childCmd expected csync child) then some child else none

def chosenChild (tdelta : Int) : Option Child :=
  match expected.nodeType with
  | .master => childIfUsable expected csync .fetch
  | .poller => childIfUsable expected csync .push
  | .peer =>
    if tdelta < 0 then
      childIfUsable expected csync .push
    else if 0 < tdelta then
      childIfUsable expected csync .fetch
    else
      none

def runChild (now : Int) (state : CsyncState) (child : Child) : CsyncState × Option Child :=
  let attempted := { state with lastAttempt := now }
  if childCmd expected csync child = some wordColon then
    (attempted, none)
  else
    ({ attempted with isRunning := Function.update state.isRunning child true }, some child)

/-- `csync_node_active`. -/
def csyncNodeActive
    (self : Bytes) (activePeers : Nat) (now : Int) (state : CsyncState) (info : Bytes)
    (tdelta : Int) : CsyncState × Option Child :=
  let realTdelta := truncateInt (infoLastCfgChange info - expected.lastCfgChange)
  if csync.pushCmd = none ∧ expected.fetchCmd = none then
    (state, none)
  else if expected.nodeType = .poller ∧ 0 ≤ realTdelta ∧ infoConfiguredPeers self ≠ activePeers then
    (state, none)
  else if csync.connect = false ∧ csync.configured = false then
    (state, none)
  else
    match chosenChild expected csync tdelta with
    | none => (state, none)
    | some child =>
      if state.isRunning child then
        (state, none)
      else if now - 30 ≤ state.lastAttempt then
        (state, none)
      else
        runChild expected csync now state child

/-- `csync_fetch`. -/
def csyncFetch (now : Int) (state : CsyncState) : Option (CsyncState × Option Child) :=
  match expected.nodeType with
  | .poller => none
  | .master | .peer =>
    if usable expected.fetchCmd then
      some (runChild expected csync now state .fetch)
    else
      some (state, none)

end Choice

/-- `post_process_nodes`, for a node. -/
def postProcessNode (ipc : Bytes) (expected : Expected) : Expected :=
  { expected with
    lastCfgChange := infoLastCfgChange ipc
    configHash := if expected.nodeType = .peer then infoConfigHash ipc else expected.configHash }

theorem runChild_result (expected : Expected) (csync : CsyncConfig) (now : Int)
    (state : CsyncState) (child : Child) :
    (childCmd expected csync child = some wordColon ∧
        runChild expected csync now state child = ({ state with lastAttempt := now }, none)) ∨
      (childCmd expected csync child ≠ some wordColon ∧
        runChild expected csync now state child =
          (⟨Function.update state.isRunning child true, now⟩, some child)) := by
  unfold runChild
  by_cases colon : childCmd expected csync child = some wordColon
  · exact .inl ⟨colon, by rw [if_pos colon]⟩
  · exact .inr ⟨colon, by rw [if_neg colon]⟩

theorem csyncNodeActive_result
    (expected : Expected) (csync : CsyncConfig) (self : Bytes) (activePeers : Nat) (now : Int)
    (state : CsyncState) (info : Bytes) (tdelta : Int) :
    csyncNodeActive expected csync self activePeers now state info tdelta = (state, none) ∨
      ∃ child, chosenChild expected csync tdelta = some child ∧ state.isRunning child = false ∧
        csyncNodeActive expected csync self activePeers now state info tdelta =
          runChild expected csync now state child := by
  unfold csyncNodeActive
  simp only
  split
  · exact .inl rfl
  · split
    · exact .inl rfl
    · split
      · exact .inl rfl
      · cases chosenChild expected csync tdelta with
        | none => exact .inl rfl
        | some child =>
          simp only
          split
          · exact .inl rfl
          · rename_i idle
            split
            · exact .inl rfl
            · exact .inr ⟨child, rfl, Bool.eq_false_iff.mpr idle, rfl⟩

section Peers

variable {expected : Expected} {csync : CsyncConfig}

private theorem childIfUsable_eq_some {child chosen : Child}
    (chosenUsable : childIfUsable expected csync child = some chosen) : chosen = child := by
  unfold childIfUsable at chosenUsable
  split at chosenUsable
  · exact (Option.some.inj chosenUsable).symm
  · cases chosenUsable

variable {child : Child} {tdelta : Int}

private theorem chosenChild_of_peer (isPeer : expected.nodeType = .peer)
    (chosen : chosenChild expected csync tdelta = some child) :
    (child = .push ∧ tdelta < 0) ∨ (child = .fetch ∧ 0 < tdelta) := by
  unfold chosenChild at chosen
  rw [isPeer] at chosen
  simp only at chosen
  split at chosen
  · exact .inl ⟨childIfUsable_eq_some chosen, by assumption⟩
  · split at chosen
    · exact .inr ⟨childIfUsable_eq_some chosen, by assumption⟩
    · cases chosen

theorem chosenChild_of_started {self : Bytes} {activePeers : Nat} {now : Int} {state : CsyncState}
    {info : Bytes} (started :
      (csyncNodeActive expected csync self activePeers now state info tdelta).2 = some child) :
    chosenChild expected csync tdelta = some child := by
  rcases csyncNodeActive_result expected csync self activePeers now state info tdelta with
    unchanged | ⟨chosen, isChosen, -, runs⟩
  · rw [unchanged] at started
    cases started
  · rw [runs] at started
    rcases runChild_result expected csync now state chosen with ⟨-, result⟩ | ⟨-, result⟩
    · rw [result] at started
      cases started
    · rw [result] at started
      exact isChosen.trans started

end Peers

theorem nodeOconfCmp_of_peer {own other : Bytes} {view : Expected} (isPeer : view.nodeType = .peer)
    (differ : infoConfigHash other ≠ infoConfigHash own)
    (lower : -2 ^ 31 < infoLastCfgChange other - infoLastCfgChange own)
    (upper : infoLastCfgChange other - infoLastCfgChange own < 2 ^ 31) :
    nodeOconfCmp (postProcessNode own view) own other =
      if infoLastCfgChange other - infoLastCfgChange own ≠ 0 then
        infoLastCfgChange other - infoLastCfgChange own
      else if infoStartSec own < infoStartSec other then
        -1
      else if infoStartSec other < infoStartSec own then
        1
      else if infoStartUsec own ≤ infoStartUsec other then
        -1
      else
        1 := by
  have exact := truncateInt_of_bounded (by omega) upper
  simp [nodeOconfCmp, postProcessNode, isPeer, differ, exact]

def OppositeSigns (first second : Int) : Prop := (first < 0 ∧ 0 < second) ∨ (0 < first ∧ second < 0)

private theorem nodeOconfCmp_opposite {first second : Bytes} {firstView secondView : Expected}
    (firstPeer : firstView.nodeType = .peer) (secondPeer : secondView.nodeType = .peer)
    (differ : infoConfigHash first ≠ infoConfigHash second)
    (lower : -2 ^ 31 < infoLastCfgChange second - infoLastCfgChange first)
    (upper : infoLastCfgChange second - infoLastCfgChange first < 2 ^ 31)
    (startsDiffer :
      (infoStartSec first, infoStartUsec first) ≠ (infoStartSec second, infoStartUsec second)) :
    OppositeSigns (nodeOconfCmp (postProcessNode first firstView) first second)
      (nodeOconfCmp (postProcessNode second secondView) second first) := by
  rw [nodeOconfCmp_of_peer firstPeer differ.symm lower upper,
    nodeOconfCmp_of_peer secondPeer differ (by omega) (by omega)]
  unfold OppositeSigns
  by_cases sameTime : infoLastCfgChange second - infoLastCfgChange first = 0
  · have sameTimeBack : infoLastCfgChange first - infoLastCfgChange second = 0 := by omega
    simp only [sameTime, sameTimeBack, ne_eq, not_true_eq_false, if_false]
    rcases Int.lt_trichotomy (infoStartSec first) (infoStartSec second) with
      earlier | sameSec | later
    · rw [if_pos earlier, if_neg (by omega), if_pos earlier]
      decide
    · have usecDiffer : infoStartUsec first ≠ infoStartUsec second := by
        intro sameUsec
        exact startsDiffer (by rw [sameSec, sameUsec])
      simp only [sameSec, lt_irrefl, if_false]
      by_cases usecLe : infoStartUsec first ≤ infoStartUsec second
      · rw [if_pos usecLe, if_neg (by omega)]
        decide
      · rw [if_neg usecLe, if_pos (by omega)]
        decide
    · rw [if_neg (by omega), if_pos later, if_pos later]
      decide
  · rw [if_pos sameTime, if_pos (by omega)]
    omega

def ChoosesBySign (expected : Expected) (tdelta : Int) : Prop :=
  ∀ csync self activePeers now state info child,
    (csyncNodeActive expected csync self activePeers now state info tdelta).2 = some child →
      (child = .push ∧ tdelta < 0) ∨ (child = .fetch ∧ 0 < tdelta)

private theorem choosesBySign_of_peer
    (ipc : Bytes) {expected : Expected} (isPeer : expected.nodeType = .peer) (tdelta : Int) :
    ChoosesBySign (postProcessNode ipc expected) tdelta := by
  intro csync self activePeers now state info child started
  have stillPeer : (postProcessNode ipc expected).nodeType = .peer := isPeer
  exact chosenChild_of_peer stillPeer (chosenChild_of_started started)

/-- Two peers with different objects never both send theirs to the other, and
never both fetch: each compares in the opposite direction. -/
theorem peers_never_both_push
    (first second : Bytes) (firstView secondView : Expected)
    (firstPeer : firstView.nodeType = .peer) (secondPeer : secondView.nodeType = .peer) :
    (infoConfigHash first ≠ infoConfigHash second →
      -2 ^ 31 < infoLastCfgChange second - infoLastCfgChange first →
      infoLastCfgChange second - infoLastCfgChange first < 2 ^ 31 →
      (infoStartSec first, infoStartUsec first) ≠ (infoStartSec second, infoStartUsec second) →
      OppositeSigns
        (nodeOconfCmp (postProcessNode first firstView) first second)
        (nodeOconfCmp (postProcessNode second secondView) second first) ∧
      ChoosesBySign (postProcessNode first firstView)
        (nodeOconfCmp (postProcessNode first firstView) first second) ∧
      ChoosesBySign (postProcessNode second secondView)
        (nodeOconfCmp (postProcessNode second secondView) second first)) ∧
    (infoConfigHash first = infoConfigHash second →
      nodeOconfCmp (postProcessNode first firstView) first second = 0 ∧
      nodeOconfCmp (postProcessNode second secondView) second first = 0) := by
  constructor
  · intro differ lower upper startsDiffer
    exact ⟨nodeOconfCmp_opposite firstPeer secondPeer differ lower upper startsDiffer,
      choosesBySign_of_peer first firstPeer _, choosesBySign_of_peer second secondPeer _⟩
  · intro same
    constructor
    · simp [nodeOconfCmp, postProcessNode, firstPeer, same]
    · simp [nodeOconfCmp, postProcessNode, secondPeer, same]

def sampleInfo (start lastCfgChange : Nat) (hash : UInt8) : Bytes :=
  List.replicate 16 0 ++ leBytes 8 start ++ leBytes 8 0 ++ leBytes 8 lastCfgChange ++
    List.replicate 60 hash

def samplePeerView : Expected := ⟨.peer, 0, [], none, 2⟩

theorem sample_peers_opposite :
    OppositeSigns
      (nodeOconfCmp (postProcessNode (sampleInfo 7 100 1) samplePeerView)
        (sampleInfo 7 100 1) (sampleInfo 8 100 2))
      (nodeOconfCmp (postProcessNode (sampleInfo 8 100 2) samplePeerView)
        (sampleInfo 8 100 2) (sampleInfo 7 100 1)) :=
  ((peers_never_both_push (sampleInfo 7 100 1) (sampleInfo 8 100 2)
    samplePeerView samplePeerView rfl rfl).1
    (by decide) (by decide) (by decide) (by decide)).1

end MonitorMerlin
