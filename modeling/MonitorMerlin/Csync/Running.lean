import MonitorMerlin.Csync.Choice
import MonitorMerlin.Library.Run
import MonitorMerlin.Net.Authentic

/-! # The commands that synchronise the configuration -/

namespace MonitorMerlin

open ByteImage List

universe u

section System

variable {ι : Type u}

structure CsyncEnv (ι : Type u) where
  receive : ι → ReceiveEnv
  csync : ι → CsyncConfig

def CsyncEnv.expected (env : CsyncEnv ι) (node : ι) : Expected := (env.receive node).config.expected

structure CsyncNet (ι : Type u) where
  node : ι → RecvNode
  csync : ι → CsyncState
  running : List (ι × Child)

inductive CsyncEvent (ι : Type u) where
  | control (node : ι) (pkt : Bytes) (now : Int) (activePeers : Nat)
  | finished (node : ι) (child : Child)
  deriving DecidableEq

def csyncStart (node : ι → RecvNode) : CsyncNet ι := ⟨node, fun _ => ⟨fun _ => false, 0⟩, []⟩

variable [DecidableEq ι]

def CsyncNet.started (net : CsyncNet ι) (node : ι) (result : CsyncState × Option Child) :
    CsyncNet ι :=
  { net with
    csync := Function.update net.csync node result.1
    running := net.running ++ result.2.toList.map fun child => (node, child) }

variable (env : CsyncEnv ι)

def applyCsync (node : ι) (pkt : Bytes) (now : Int) (activePeers : Nat) (net : CsyncNet ι) :
    Effect → Option (CsyncNet ι)
  | .csyncNodeActive delta =>
    some (net.started node (csyncNodeActive (env.expected node) (env.csync node)
      (env.receive node).ipcInfo activePeers now (net.csync node) (pktBody pkt) delta))
  | .csyncFetch =>
    (csyncFetch (env.expected node) (env.csync node) now (net.csync node)).map (net.started node)
  | _ => some net

/-- `handle_csync_finished`. -/
def handleCsyncFinished (net : CsyncNet ι) (node : ι) (child : Child) : CsyncNet ι :=
  if (node, child) ∈ net.running then
    { net with
      csync := Function.update net.csync node
        { net.csync node with
          isRunning := Function.update (net.csync node).isRunning child false }
      running := net.running.erase (node, child) }
  else
    net

def csyncStep (net : CsyncNet ι) : CsyncEvent ι → Option (CsyncNet ι)
  | .control node pkt now activePeers =>
    let handled := handleControl (env.receive node) (net.node node) pkt
    handled.2.foldlM (applyCsync env node pkt now activePeers)
      { net with node := Function.update net.node node handled.1 }
  | .finished node child => some (handleCsyncFinished net node child)

structure CsyncNet.InOrder (net : CsyncNet ι) : Prop where
  single : ∀ node child, net.running.count (node, child) ≤ 1
  flag : ∀ node child, (net.csync node).isRunning child = true ↔ (node, child) ∈ net.running

/-- `csync_fetch` would start the command. -/
def startsFetch (expected : Expected) : Prop :=
  usable expected.fetchCmd = true ∧ expected.fetchCmd ≠ some wordColon

def FetchAllowed (net : CsyncNet ι) : CsyncEvent ι → Prop
  | .control node pkt _ _ =>
    hdrCode pkt = ctrlFetch →
      (env.expected node).nodeType ≠ .poller ∧
        (startsFetch (env.expected node) → (net.csync node).isRunning .fetch = false)
  | .finished _ _ => True

end System

private theorem handleControl_effects (env : ReceiveEnv) (node : RecvNode) (pkt : Bytes) :
    (hdrCode pkt ≠ ctrlFetch ∧
      ((handleControl env node pkt).2 = [] ∨
        (handleControl env node pkt).2 = [.infoAccepted] ∨
        (handleControl env node pkt).2 = [.updateClusterConfig] ∨
        ∃ delta, (handleControl env node pkt).2 = [.csyncNodeActive delta])) ∨
      (hdrCode pkt = ctrlFetch ∧ (handleControl env node pkt).2 = [.csyncFetch]) := by
  unfold handleControl
  split_ifs with inactive active invalid _ fetch
  · exact .inl ⟨by rw [inactive]; decide, .inl rfl⟩
  · refine .inl ⟨by rw [active]; decide, ?_⟩
    unfold handleActive
    simp only
    split
    · exact .inl rfl
    · split
      · exact .inl rfl
      · split
        · exact .inr (.inr (.inr ⟨_, rfl⟩))
        · split
          · exact .inr (.inl rfl)
          · exact .inr (.inl rfl)
  · exact .inl ⟨by rw [invalid]; decide, .inr (.inr (.inl rfl))⟩
  · exact .inl ⟨by rw [invalid]; decide, .inl rfl⟩
  · exact .inr ⟨fetch, rfl⟩
  · exact .inl ⟨fetch, .inl rfl⟩

section Steps

variable {ι : Type u} [DecidableEq ι] {env : CsyncEnv ι} {net : CsyncNet ι}

private theorem csyncStep_of_other {node : ι} {pkt : Bytes} {now : Int} {activePeers : Nat}
    (other : hdrCode pkt ≠ ctrlFetch) :
    ∃ handled : RecvNode,
      csyncStep env net (.control node pkt now activePeers) =
          some { net with node := Function.update net.node node handled } ∨
        ∃ delta,
          csyncStep env net (.control node pkt now activePeers) =
            some (({ net with node := Function.update net.node node handled } :
                CsyncNet ι).started node
              (csyncNodeActive (env.expected node) (env.csync node) (env.receive node).ipcInfo
                activePeers now (net.csync node) (pktBody pkt) delta)) := by
  refine ⟨(handleControl (env.receive node) (net.node node) pkt).1, ?_⟩
  unfold csyncStep
  rcases handleControl_effects (env.receive node) (net.node node) pkt with
    ⟨-, none | accepted | cluster | ⟨delta, active⟩⟩ | ⟨fetch, -⟩
  · simp only [none, foldlM_nil]
    exact .inl rfl
  · simp only [accepted, foldlM_cons, foldlM_nil]
    exact .inl rfl
  · simp only [cluster, foldlM_cons, foldlM_nil]
    exact .inl rfl
  · simp only [active, foldlM_cons, foldlM_nil]
    exact .inr ⟨delta, rfl⟩
  · exact absurd fetch other

private theorem csyncStep_of_fetch {node : ι} {pkt : Bytes} {now : Int} {activePeers : Nat}
    (fetch : hdrCode pkt = ctrlFetch) :
    ∃ handled : RecvNode,
      csyncStep env net (.control node pkt now activePeers) =
        (csyncFetch (env.expected node) (env.csync node) now (net.csync node)).map
          (({ net with node := Function.update net.node node handled } :
            CsyncNet ι).started node) := by
  refine ⟨(handleControl (env.receive node) (net.node node) pkt).1, ?_⟩
  unfold csyncStep
  rcases handleControl_effects (env.receive node) (net.node node) pkt with
    ⟨other, -⟩ | ⟨-, effects⟩
  · exact absurd fetch other
  · simp only [effects, foldlM_cons, foldlM_nil]
    exact bind_pure _

section

variable (inOrder : net.InOrder)

include inOrder

theorem CsyncNet.InOrder.started_none (node : ι) (now : Int) :
    (net.started node ({ net.csync node with lastAttempt := now }, none)).InOrder := by
  constructor
  · intro other child
    simpa [CsyncNet.started] using inOrder.single other child
  · intro other child
    rw [CsyncNet.started]
    by_cases same : other = node
    · rw [same]
      simpa using inOrder.flag node child
    · simpa [same] using inOrder.flag other child

theorem CsyncNet.InOrder.started_some {node : ι} (now : Int) {child : Child}
    (idle : (net.csync node).isRunning child = false) :
    (net.started node
      (⟨Function.update (net.csync node).isRunning child true, now⟩, some child)).InOrder := by
  have absent : (node, child) ∉ net.running := by
    rw [← inOrder.flag, idle]
    exact Bool.false_ne_true
  constructor
  · intro other otherChild
    simp only [CsyncNet.started, Option.toList_some, map_cons, map_nil, count_append]
    by_cases same : (node, child) = (other, otherChild)
    · rw [← same, count_eq_zero.mpr absent]
      simp
    · rw [count_singleton, if_neg (by simpa using same)]
      exact inOrder.single other otherChild
  · intro other otherChild
    simp only [CsyncNet.started, Option.toList_some, map_cons, map_nil,
      mem_append, mem_singleton, Prod.mk.injEq]
    by_cases sameNode : other = node
    · rw [sameNode, Function.update_self]
      by_cases sameChild : otherChild = child
      · simp [sameChild]
      · simp [sameChild, inOrder.flag]
    · simp [sameNode, inOrder.flag]

theorem CsyncNet.InOrder.not_started_twice {node : ι} (now : Int) {child : Child}
    (busy : (net.csync node).isRunning child = true) :
    ¬ (net.started node
      (⟨Function.update (net.csync node).isRunning child true, now⟩, some child)).InOrder := by
  intro twice
  have running : 0 < net.running.count (node, child) :=
    count_pos_iff.mpr ((inOrder.flag node child).mp busy)
  have single := twice.single node child
  simp only [CsyncNet.started, Option.toList_some, map_cons, map_nil,
    count_append, count_singleton_self] at single
  omega

theorem CsyncNet.InOrder.active (node : ι) (self : Bytes) (activePeers : Nat) (now : Int)
    (info : Bytes) (delta : Int) :
    (net.started node
      (csyncNodeActive (env.expected node) (env.csync node) self activePeers now
        (net.csync node) info delta)).InOrder := by
  rcases csyncNodeActive_result (env.expected node) (env.csync node) self activePeers now
      (net.csync node) info delta with unchanged | ⟨child, -, idle, runs⟩
  · rw [unchanged]
    exact inOrder.started_none node (net.csync node).lastAttempt
  · rw [runs]
    rcases runChild_result (env.expected node) (env.csync node) now (net.csync node) child with
      ⟨-, result⟩ | ⟨-, result⟩
    · rw [result]
      exact inOrder.started_none node now
    · rw [result]
      exact inOrder.started_some now idle

theorem CsyncNet.InOrder.finished (node : ι) (child : Child) :
    (handleCsyncFinished net node child).InOrder := by
  unfold handleCsyncFinished
  by_cases running : (node, child) ∈ net.running
  · rw [if_pos running]
    have once : net.running.count (node, child) = 1 :=
      Nat.le_antisymm (inOrder.single node child) (count_pos_iff.mpr running)
    constructor
    · intro other otherChild
      exact (List.erase_sublist.count_le _).trans (inOrder.single other otherChild)
    · intro other otherChild
      by_cases same : (other, otherChild) = (node, child)
      · obtain ⟨rfl, rfl⟩ := Prod.mk.inj same
        have gone : (other, otherChild) ∉ net.running.erase (other, otherChild) := by
          rw [← count_eq_zero, count_erase_self, once]
        simp [gone]
      · rw [mem_erase_of_ne same, ← inOrder.flag]
        by_cases sameNode : other = node
        · have otherDiffers : otherChild ≠ child := by
            rintro rfl
            exact same (by rw [sameNode])
          simp [sameNode, otherDiffers]
        · simp [sameNode]
  · rw [if_neg running]
    exact inOrder

theorem CsyncNet.InOrder.fetch_iff (node : ι) (now : Int) :
    (∃ next,
        (csyncFetch (env.expected node) (env.csync node) now (net.csync node)).map
          (net.started node) = some next ∧ next.InOrder) ↔
      (env.expected node).nodeType ≠ .poller ∧
        (startsFetch (env.expected node) → (net.csync node).isRunning .fetch = false) := by
  by_cases isPoller : (env.expected node).nodeType = .poller
  · simp [csyncFetch, isPoller]
  · have choice :
        csyncFetch (env.expected node) (env.csync node) now (net.csync node) =
          if usable (env.expected node).fetchCmd then
            some (runChild (env.expected node) (env.csync node) now (net.csync node) .fetch)
          else
            some (net.csync node, none) := by
      unfold csyncFetch
      cases nodeType : (env.expected node).nodeType with
      | poller => exact absurd nodeType isPoller
      | master | peer => rfl
    rw [choice]
    simp only [ne_eq, isPoller, not_false_eq_true, true_and, startsFetch]
    by_cases isUsable : usable (env.expected node).fetchCmd = true
    · rw [if_pos isUsable]
      rcases runChild_result (env.expected node) (env.csync node) now (net.csync node) .fetch with
        ⟨colon, result⟩ | ⟨other, result⟩
      · rw [result]
        have notStarted : ¬ (env.expected node).fetchCmd ≠ some wordColon := fun differs =>
          differs colon
        simp only [isUsable, notStarted, and_false, false_implies, iff_true]
        exact ⟨_, rfl, inOrder.started_none node now⟩
      · have started : (env.expected node).fetchCmd ≠ some wordColon := other
        rw [result]
        simp only [isUsable, true_and, started, not_false_eq_true, forall_const,
          Option.map_some, Option.some.injEq, exists_eq_left']
        cases busy : (net.csync node).isRunning .fetch with
        | true =>
          simp only [Bool.true_eq_false, iff_false]
          exact inOrder.not_started_twice now busy
        | false =>
          simp only [iff_true]
          exact inOrder.started_some now busy
    · rw [if_neg isUsable]
      simp only [isUsable, Bool.false_eq_true, false_and, false_implies, iff_true]
      exact ⟨_, rfl, inOrder.started_none node (net.csync node).lastAttempt⟩

private theorem fetchAllowed_iff (event : CsyncEvent ι) :
    FetchAllowed env net event ↔ ∃ next, csyncStep env net event = some next ∧ next.InOrder := by
  cases event with
  | control node pkt now activePeers =>
    by_cases fetch : hdrCode pkt = ctrlFetch
    · obtain ⟨handled, stepped⟩ := @csyncStep_of_fetch _ _ env net node pkt now activePeers fetch
      have moved :
          ({ net with node := Function.update net.node node handled } : CsyncNet ι).InOrder :=
        ⟨inOrder.single, inOrder.flag⟩
      rw [stepped]
      exact Iff.trans ⟨fun allowed => allowed fetch, fun allowed _ => allowed⟩
        (moved.fetch_iff node now).symm
    · obtain ⟨handled, stepped⟩ := @csyncStep_of_other _ _ env net node pkt now activePeers fetch
      have moved :
          ({ net with node := Function.update net.node node handled } : CsyncNet ι).InOrder :=
        ⟨inOrder.single, inOrder.flag⟩
      constructor
      · intro _
        rcases stepped with unchanged | ⟨delta, active⟩
        · exact ⟨_, unchanged, moved⟩
        · exact ⟨_, active, moved.active node _ activePeers now _ delta⟩
      · intro _ isFetch
        exact absurd isFetch fetch
  | finished node child => exact ⟨fun _ => ⟨_, rfl, inOrder.finished node child⟩, fun _ => trivial⟩

end

end Steps

private theorem csyncStart_inOrder {ι : Type u} [DecidableEq ι] (nodes : ι → RecvNode) :
    (csyncStart nodes).InOrder := by
  constructor
  · intro node child
    simp [csyncStart]
  · intro node child
    simp [csyncStart]

/-- Over every run, no null pointer is used, no command runs twice at a time and
the flags are right, exactly if every `CTRL_FETCH` comes from a master or peer
that is not being fetched from. -/
theorem csync_inOrder_iff
    {ι : Type u} [DecidableEq ι] (env : CsyncEnv ι) (nodes : ι → RecvNode)
    (events : List (CsyncEvent ι)) :
    Run.Always (csyncStep env) CsyncNet.InOrder (csyncStart nodes) events ↔
      Run.Permits (csyncStep env) (FetchAllowed env) (csyncStart nodes) events := by
  apply Run.always_iff_permits
  · intro net event inOrder
    exact fetchAllowed_iff inOrder event
  · exact csyncStart_inOrder nodes

def fetchPacket : Bytes := patch (List.replicate hdrSize 0) 12 (leBytes 2 ctrlFetch)

def sampleCsyncEnv (nodeType : NodeType) : CsyncEnv Nat where
  receive := fun _ =>
    { sampleEnv with
      config := { sampleEnv.config with expected := ⟨nodeType, 0, [], some monOconfFetch, 2⟩ } }
  csync := fun _ => ⟨none, true, true⟩

private theorem fetch_from_poller_fails :
    Run.run (csyncStep (sampleCsyncEnv .poller)) (csyncStart fun _ => connectedPeer)
      [.control 0 fetchPacket 100 0] = none := rfl

private theorem fetch_from_master_overlaps :
    (Run.run (csyncStep (sampleCsyncEnv .master)) (csyncStart fun _ => connectedPeer)
      [.control 0 fetchPacket 100 0, .control 0 fetchPacket 101 0]).map CsyncNet.running =
        some [(0, .fetch), (0, .fetch)] := rfl

theorem csync_not_inOrder :
    ¬ Run.Always (csyncStep (sampleCsyncEnv .poller)) CsyncNet.InOrder
        (csyncStart fun _ => connectedPeer) [.control 0 fetchPacket 100 0] ∧
      ¬ Run.Always (csyncStep (sampleCsyncEnv .master)) CsyncNet.InOrder
        (csyncStart fun _ => connectedPeer)
        [.control 0 fetchPacket 100 0, .control 0 fetchPacket 101 0] := by
  constructor
  · intro always
    obtain ⟨state, reached, -⟩ := always _ prefix_rfl
    rw [fetch_from_poller_fails] at reached
    cases reached
  · intro always
    obtain ⟨state, reached, inOrder⟩ := always _ prefix_rfl
    have running := fetch_from_master_overlaps
    rw [reached] at running
    have single := inOrder.single 0 .fetch
    rw [Option.some.inj running] at single
    exact absurd single (by decide)

end MonitorMerlin
