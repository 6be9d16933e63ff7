import MonitorMerlin.Codec.Decode
import MonitorMerlin.Net.Receive

/-! # Authentication of what an encrypted node sends -/

namespace MonitorMerlin

open ByteImage List MachineInt

def VerifiesTag (env : ReceiveEnv) (raw : Bytes) : Prop :=
  hdrSize ≤ raw.length ∧ env.sodium.initOk = true ∧
    (env.sodium.boxOpen env.config.sharedkey (hdrNonce raw) (hdrAuthtag raw)
      (pktBody raw)).isSome = true

/-- `decrypt_pkt` succeeded on all that was handled. -/
def Authentic (env : ReceiveEnv) (state : RecvState) : Prop :=
  ∀ handed ∈ state.handed, hdrSize ≤ handed.raw.length ∧
    decryptPkt env.sodium env.config.sharedkey handed.raw = some handed.pkt

instance VerifiesTag.decidable (env : ReceiveEnv) (raw : Bytes) : Decidable (VerifiesTag env raw) :=
  inferInstanceAs (Decidable (_ ∧ _))

instance Authentic.decidable (env : ReceiveEnv) (state : RecvState) :
    Decidable (Authentic env state) :=
  inferInstanceAs (Decidable (∀ handed ∈ state.handed, _))

def returnedPacket (env : ReceiveEnv) (raw : Bytes) : Bytes :=
  if env.config.encrypted = true ∧ hdrSize ≤ raw.length then
    (decryptPkt env.sodium env.config.sharedkey raw).getD raw
  else
    raw

def GetEvent.handed : GetEvent → List Handed
  | .nothing => []
  | .outOfBounds raw => [⟨raw, raw⟩]
  | .event raw pkt => [⟨raw, pkt⟩]

def HandsAll (env : ReceiveEnv) (arrived : List Bytes) (handed : List Handed) : Prop :=
  handed = arrived.map fun raw => ⟨raw, returnedPacket env raw⟩

@[simp]
theorem completePacket_nil : completePacket [] = none := by
  decide

@[simp]
theorem disconnect_bq (node : RecvNode) : node.disconnect.bq = [] := rfl

theorem completePacket_eq_some_iff {queue raw : Bytes} :
    completePacket queue = some raw ↔
      (hdrSize ≤ queue.length ∧ frameSize queue ≤ queue.length ∧
        slice queue 0 8 = merlinSignature) ∧ queue.take (frameSize queue) = raw := by
  unfold completePacket
  split_ifs with conditions
  · simp [conditions]
  · simp [conditions]

variable {raw : Bytes}

theorem openPacket_fst (env : ReceiveEnv) (node : RecvNode) (sized : hdrSize ≤ raw.length) :
    (openPacket env.sodium env.config node raw).1 = .event raw (returnedPacket env raw) := by
  unfold openPacket returnedPacket
  cases env.config.encrypted with
  | false => rfl
  | true =>
    simp only [sized, and_self, if_true]
    cases decryptPkt env.sodium env.config.sharedkey raw <;> rfl

section GetEvent

variable (env : ReceiveEnv) {node : RecvNode}

section

variable (complete : completePacket node.bq = some raw)

include complete

theorem length_of_complete : raw.length = frameSize node.bq := by
  obtain ⟨⟨_, whole, _⟩, rfl⟩ := completePacket_eq_some_iff.mp complete
  rw [length_take, Nat.min_eq_left whole]

theorem nodeGetEvent_of_sized (sized : hdrSize ≤ raw.length) :
    nodeGetEvent env.sodium env.config node =
      openPacket env.sodium env.config
        { node with bq := node.bq.drop (frameSize node.bq) } raw := by
  rw [length_of_complete complete] at sized
  obtain ⟨⟨header, whole, signature⟩, taken⟩ := completePacket_eq_some_iff.mp complete
  unfold nodeGetEvent
  rw [if_neg (not_lt.mpr header), if_neg (not_lt.mpr whole), if_neg (not_not.mpr signature),
    if_neg (not_lt.mpr sized), taken]

theorem nodeGetEvent_of_wrapped (wrapped : raw.length < hdrSize) :
    (nodeGetEvent env.sodium env.config node).1 = .outOfBounds raw := by
  rw [length_of_complete complete] at wrapped
  obtain ⟨⟨header, whole, signature⟩, taken⟩ := completePacket_eq_some_iff.mp complete
  unfold nodeGetEvent
  rw [if_neg (not_lt.mpr header), if_neg (not_lt.mpr whole), if_neg (not_not.mpr signature),
    if_pos wrapped, taken]

end

section

variable (incomplete : completePacket node.bq = none)

include incomplete

theorem nodeGetEvent_incomplete_cases :
    nodeGetEvent env.sodium env.config node = (.nothing, node) ∨
      (nodeGetEvent env.sodium env.config node = (.nothing, node.disconnect) ∧
        hdrSize ≤ node.bq.length ∧ slice node.bq 0 8 ≠ merlinSignature) := by
  unfold nodeGetEvent
  by_cases short : node.bq.length < hdrSize
  · exact .inl (if_pos short)
  rw [if_neg short]
  by_cases missing : node.bq.length < frameSize node.bq
  · exact .inl (if_pos missing)
  have signature : slice node.bq 0 8 ≠ merlinSignature := by
    intro signed
    have complete := completePacket_eq_some_iff.mpr
      ⟨⟨not_lt.mp short, not_lt.mp missing, signed⟩, rfl⟩
    rw [incomplete] at complete
    cases complete
  rw [if_neg missing, if_pos signature]
  exact .inr ⟨rfl, not_lt.mp short, signature⟩

theorem nodeGetEvent_of_incomplete :
    (nodeGetEvent env.sodium env.config node).1 = .nothing ∧
      completePacket (nodeGetEvent env.sodium env.config node).2.bq = none := by
  rcases nodeGetEvent_incomplete_cases env incomplete with same | ⟨closed, -⟩
  · rw [same]
    exact ⟨rfl, incomplete⟩
  · rw [closed]
    exact ⟨rfl, completePacket_nil⟩

end

theorem nodeGetEvent_handed (node : RecvNode) :
    (nodeGetEvent env.sodium env.config node).1.handed =
      (completePacket node.bq).toList.map fun raw => ⟨raw, returnedPacket env raw⟩ := by
  cases complete : completePacket node.bq with
  | none =>
    rw [(nodeGetEvent_of_incomplete env complete).1]
    rfl
  | some raw =>
    by_cases sized : hdrSize ≤ raw.length
    · rw [nodeGetEvent_of_sized env complete sized, openPacket_fst env _ sized]
      rfl
    · have unopened : returnedPacket env raw = raw := if_neg fun both => sized both.2
      rw [nodeGetEvent_of_wrapped env complete (not_le.mp sized)]
      simp [GetEvent.handed, unopened]

end GetEvent

section Steps

variable {env : ReceiveEnv} {state : RecvState}

def takeRecorded (env : ReceiveEnv) (change : RecvNode → RecvNode) (state : RecvState) :
    RecvState :=
  match getRecorded env state with
  | (.nothing, after) => { after with node := change after.node }
  | (.outOfBounds raw, after) => overrunRecorded { after with node := change after.node } raw
  | (.event raw pkt, after) => handleRecorded env { after with node := change after.node } raw pkt

section Keeps

variable {kept : RecvState → Prop}
  (quiet : ∀ state node, kept state → kept { state with node := node })
  (takes : ∀ state change, kept state → kept (takeRecorded env change state))

include takes

theorem netLoop_keeps (fuel : Nat) (holds : kept state) : kept (netLoop env fuel state) := by
  induction fuel generalizing state with
  | zero => exact holds
  | succ fuel ih =>
    have taken := takes state id holds
    unfold takeRecorded at taken
    unfold netLoop
    generalize getRecorded env state = result at taken ⊢
    obtain ⟨_ | _ | _, after⟩ := result
    · exact taken
    · exact taken
    · exact ih taken

include quiet

theorem recvStep_keeps (event : RecvEvent) (holds : kept state) :
    kept (recvStep env state event) := by
  cases event with
  | link | disconnect => exact quiet _ _ holds
  | input recv =>
    change kept (netInput env state recv)
    unfold netInput
    split
    · exact holds
    · cases recv with
      | data => exact netLoop_keeps takes _ (quiet _ _ holds)
      | wouldBlock => exact netLoop_keeps takes _ holds
      | closed => exact quiet _ _ holds
  | accept sock chunk negotiation sent =>
    change kept (findNodeUuid env state sock chunk negotiation sent)
    unfold findNodeUuid
    split
    · exact holds
    · by_cases whole : frameSize chunk ≤ chunk.length
      · have taken := takes { state with node := { state.node with bq := chunk } }
          (nodeAccept · sock negotiation sent) (quiet _ _ holds)
        unfold takeRecorded at taken
        simp only [if_pos whole]
        generalize getRecorded env _ = result at taken ⊢
        obtain ⟨_ | _ | _, after⟩ := result <;> exact taken
      · simp only [if_neg whole]
        exact quiet _ _ holds

variable (kept) in
theorem recvRun_keeps (node : RecvNode) (starts : kept ⟨node, [], [], []⟩)
    (events : List RecvEvent) : kept (recvRun env node events) := by
  induction events using reverseRecOn with
  | nil => exact starts
  | append_singleton events event ih =>
    rw [recvRun, foldl_append]
    exact recvStep_keeps quiet takes event ih

end Keeps

end Steps

theorem recvRun_handsAll (env : ReceiveEnv) (node : RecvNode) (events : List RecvEvent) :
    HandsAll env (recvRun env node events).arrived (recvRun env node events).handed := by
  refine recvRun_keeps (fun state => HandsAll env state.arrived state.handed)
    (fun _ _ holds => holds) (fun state change holds => ?_) node rfl events
  have recorded : HandsAll env (getRecorded env state).2.arrived
      (state.handed ++ (getRecorded env state).1.handed) := by
    have taken := nodeGetEvent_handed env state.node
    change state.handed ++ (nodeGetEvent env.sodium env.config state.node).1.handed =
      (state.arrived ++ (completePacket state.node.bq).toList).map _
    rw [taken, map_append, ← holds]
  have same : (getRecorded env state).2.handed = state.handed := rfl
  rw [← same] at recorded
  unfold takeRecorded
  generalize getRecorded env state = result at recorded ⊢
  obtain ⟨_ | _ | _, after⟩ := result
  · exact (append_nil _).symm.trans recorded
  · exact recorded
  · exact recorded

theorem handleActive_bq_le (env : ReceiveEnv) (node : RecvNode) (pkt : Bytes) :
    (handleActive env node pkt).1.bq.length ≤ node.bq.length := by
  unfold handleActive
  dsimp only
  split_ifs
  · simp
  · simp
  · simp
  · unfold nodeSetState
    split_ifs <;> simp
  · exact le_refl _

theorem handleEvent_bq_le (env : ReceiveEnv) (node : RecvNode) (pkt : Bytes) :
    (handleEvent env node pkt).1.bq.length ≤ node.bq.length := by
  unfold handleEvent handleControl markInfo
  split_ifs
  · simp
  · exact handleActive_bq_le env node pkt
  all_goals exact le_refl _

variable {env : ReceiveEnv}

theorem returnedPacket_authentic_iff (encrypted : env.config.encrypted = true) (raw : Bytes) :
    (hdrSize ≤ raw.length ∧
        decryptPkt env.sodium env.config.sharedkey raw = some (returnedPacket env raw)) ↔
      VerifiesTag env raw := by
  refine and_congr_right fun sized => ?_
  rw [returnedPacket, if_pos ⟨encrypted, sized⟩, decryptPkt]
  cases env.sodium.initOk
  · simp
  · cases env.sodium.boxOpen _ _ _ _ <;> simp

/-- Over any input, split in any way, and any connections: what an encrypted
node gets handled is authentic exactly when the tag of every complete packet
that arrives verifies. -/
theorem recvRun_authentic_iff
    (env : ReceiveEnv) (node : RecvNode) (events : List RecvEvent)
    (encrypted : env.config.encrypted = true) :
    Authentic env (recvRun env node events) ↔
      ∀ raw ∈ (recvRun env node events).arrived, VerifiesTag env raw := by
  have handsAll := recvRun_handsAll env node events
  generalize recvRun env node events = state at handsAll
  unfold Authentic
  rw [handsAll]
  simp only [forall_mem_map]
  exact forall₂_congr fun raw _ => returnedPacket_authentic_iff encrypted raw

def sampleSodium : Sodium where
  initOk := true
  boxOpen _ _ authtag body := if authtag = List.replicate 16 1 then some body else none
  length_boxOpen opened := by
    split at opened
    · rw [Option.some.inj opened]
    · cases opened

def sampleFrom : Bytes := List.replicate 36 97

def sampleEnv : ReceiveEnv where
  sodium := sampleSodium
  layout := sampleLayout
  base := 4096
  config := ⟨true, List.replicate 32 7, sampleFrom, true, ⟨.peer, 0, [], none, 2⟩⟩
  build := ⟨64, 1234, 1⟩
  ipcInfo := List.replicate 100 0
  clusterUpdate := false
  numMasters := 0
  numPollers := 0

def taggedRuncmd (fill : UInt8) : Bytes :=
  merlinSignature ++ leBytes 2 merlinProtocolVersion ++ leBytes 2 0xfffc ++
    leBytes 2 runcmdCmd ++ [0, 0] ++ leBytes 4 16 ++ List.replicate 16 0 ++
    List.replicate 16 fill ++ List.replicate 24 0 ++ sampleFrom ++ [0] ++
    List.replicate 15 0 ++ runcmdBody 12

def unconnectedPeer : RecvNode := ⟨-1, .none, List.replicate 100 0, false, []⟩

def connectedPeer : RecvNode := ⟨5, .connected, List.replicate 100 0, false, []⟩

theorem recvRun_authentic_genuine :
    Authentic sampleEnv
      (recvRun sampleEnv connectedPeer
        [.input (.data ((taggedRuncmd 1).take 100)), .input (.data ((taggedRuncmd 1).drop 100))]) :=
  (recvRun_authentic_iff sampleEnv connectedPeer _ rfl).mpr (by decide +kernel)

theorem recvRun_runs_forged_command :
    let used := recvRun sampleEnv connectedPeer [.input (.data (taggedRuncmd 0))]
    let new := recvRun sampleEnv unconnectedPeer [.accept 6 (taggedRuncmd 0) .keepsOne true]
    ¬ VerifiesTag sampleEnv (taggedRuncmd 0) ∧
      used.effects = [.runCommand (runcmdBody 4108)] ∧ ¬ Authentic sampleEnv used ∧
      new.effects = [.runCommand (runcmdBody 4108)] ∧ ¬ Authentic sampleEnv new := by
  decide +kernel

end MonitorMerlin
