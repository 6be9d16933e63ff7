import MonitorMerlin.Net.Authentic

/-! # Framing of the stream of a node -/

namespace MonitorMerlin

open ByteImage List MachineInt

/-- A packet as long as its header says. -/
def WholePacket (pkt : Bytes) : Prop :=
  pkt.length = hdrSize + hdrLen pkt ∧ slice pkt 0 8 = merlinSignature

def SizeWraps (queue : Bytes) : Prop :=
  hdrSize ≤ queue.length ∧ slice queue 0 8 = merlinSignature ∧ 2 ^ 32 ≤ hdrSize + hdrLen queue

instance WholePacket.decidable (pkt : Bytes) : Decidable (WholePacket pkt) :=
  inferInstanceAs (Decidable (_ ∧ _))

def afterPackets (env : ReceiveEnv) (node : RecvNode) (packets : List Bytes) : RecvNode :=
  packets.foldl (fun current pkt => (handleEvent env current pkt).1) node

def deliverable (env : ReceiveEnv) : RecvNode → List Bytes → List Bytes
  | _, [] => []
  | node, pkt :: packets =>
    pkt :: if (handleEvent env node pkt).1.sock < 0 then
        []
      else
        deliverable env (handleEvent env node pkt).1 packets

def SizesFit (env : ReceiveEnv) (node : RecvNode) (stream : Bytes) : Prop :=
  ∀ (packets : List Bytes) (rest : Bytes), stream = packets.flatten ++ rest →
    (∀ pkt ∈ packets, WholePacket pkt) → 0 ≤ (afterPackets env node packets).sock →
    ¬ SizeWraps rest

/-- Packets are handled whole and in order. -/
structure Framed (env : ReceiveEnv) (node : RecvNode) (stream : Bytes) (state : RecvState) :
    Prop where
  sized : ∀ handed ∈ state.handed,
    handed.pkt = handed.raw ∧ handed.raw.length = hdrSize + hdrLen handed.raw
  adjacent : (state.handed.map Handed.raw).flatten <+: stream
  complete : ∀ packets : List Bytes, (∀ pkt ∈ packets, WholePacket pkt) →
    packets.flatten = stream → state.handed.map Handed.raw = deliverable env node packets

def inputRun (env : ReceiveEnv) (node : RecvNode) (chunks : List Bytes) : RecvState :=
  recvRun env node (chunks.map fun chunk => .input (.data chunk))

section Headers

variable {pkt queue rest : Bytes}

theorem hdrLen_append (header : hdrSize ≤ pkt.length) : hdrLen (pkt ++ rest) = hdrLen pkt := by
  unfold hdrLen
  rw [slice_append_left]
  exact le_trans (by decide) header

theorem signature_append (header : hdrSize ≤ pkt.length) :
    slice (pkt ++ rest) 0 8 = slice pkt 0 8 := by
  rw [slice_append_left]
  exact le_trans (by decide) header

theorem WholePacket.header (whole : WholePacket pkt) : hdrSize ≤ pkt.length := by
  rw [whole.1]
  exact Nat.le_add_right _ _

theorem hdrLen_lt (pkt : Bytes) : hdrLen pkt < 2 ^ 32 := by
  have bound := leValue_lt (slice pkt 16 4)
  have short : (slice pkt 16 4).length ≤ 4 := length_take_le _ _
  calc hdrLen pkt < 256 ^ (slice pkt 16 4).length := bound
    _ ≤ 256 ^ 4 := Nat.pow_le_pow_right (by decide) short
    _ = 2 ^ 32 := by decide

theorem frameSize_of_header (sized : hdrSize ≤ frameSize queue) :
    frameSize queue = hdrSize + hdrLen queue := by
  have bound := hdrLen_lt queue
  unfold frameSize at sized ⊢
  unfold hdrSize at sized ⊢
  omega

theorem frameSize_append (whole : WholePacket pkt) (fits : pkt.length < 2 ^ 32) :
    frameSize (pkt ++ rest) = pkt.length := by
  unfold frameSize
  rw [hdrLen_append whole.header, ← whole.1, Nat.mod_eq_of_lt fits]

theorem completePacket_append (whole : WholePacket pkt) (fits : pkt.length < 2 ^ 32) :
    completePacket (pkt ++ rest) = some pkt := by
  rw [completePacket_eq_some_iff, frameSize_append whole fits, signature_append whole.header]
  refine ⟨⟨?_, ?_, whole.2⟩, take_left⟩
  · exact le_trans whole.header (by simp)
  · simp

theorem WholePacket.of_complete (complete : completePacket queue = some pkt)
    (sized : hdrSize ≤ pkt.length) :
    WholePacket pkt ∧ pkt.length < 2 ^ 32 ∧ queue = pkt ++ queue.drop (frameSize queue) := by
  obtain ⟨⟨_, within, signature⟩, rfl⟩ := completePacket_eq_some_iff.mp complete
  have length : (queue.take (frameSize queue)).length = frameSize queue := by
    rw [length_take, Nat.min_eq_left within]
  have split : queue = queue.take (frameSize queue) ++ queue.drop (frameSize queue) :=
    (take_append_drop _ _).symm
  refine ⟨⟨?_, ?_⟩, ?_, split⟩
  · have sameLength : hdrLen queue = hdrLen (queue.take (frameSize queue)) := by
      conv_lhs => rw [split]
      rw [hdrLen_append sized]
    rw [← sameLength, length, ← frameSize_of_header (length ▸ sized)]
  · rw [← signature]
    conv_rhs => rw [split]
    rw [signature_append sized]
  · rw [length]
    exact Nat.mod_lt _ (by decide)

theorem SizeWraps.frameSize_lt (wraps : SizeWraps queue) : frameSize queue < hdrSize := by
  have bound := hdrLen_lt queue
  have wrapped := wraps.2.2
  unfold frameSize
  unfold hdrSize at wrapped ⊢
  omega

theorem SizeWraps.complete (wraps : SizeWraps queue) :
    completePacket queue = some (queue.take (frameSize queue)) := by
  rw [completePacket_eq_some_iff]
  exact ⟨⟨wraps.1, le_trans (le_of_lt wraps.frameSize_lt) wraps.1, wraps.2.1⟩, rfl⟩

theorem SizeWraps.of_complete (complete : completePacket queue = some pkt)
    (short : pkt.length < hdrSize) : SizeWraps queue := by
  obtain ⟨⟨header, within, signature⟩, rfl⟩ := completePacket_eq_some_iff.mp complete
  rw [length_take, Nat.min_eq_left within] at short
  refine ⟨header, signature, ?_⟩
  by_contra fits
  have exact : frameSize queue = hdrSize + hdrLen queue := Nat.mod_eq_of_lt (not_le.mp fits)
  omega

theorem SizeWraps.append (wraps : SizeWraps queue) : SizeWraps (queue ++ rest) := by
  refine ⟨le_trans wraps.1 (by simp), ?_, ?_⟩
  · rw [signature_append wraps.1, wraps.2.1]
  · rw [hdrLen_append wraps.1]
    exact wraps.2.2

theorem SizeWraps.of_long (whole : WholePacket pkt) (long : ¬ pkt.length < 2 ^ 32) :
    SizeWraps (pkt ++ rest) := by
  refine ⟨le_trans whole.header (by simp), ?_, ?_⟩
  · rw [signature_append whole.header, whole.2]
  · rw [hdrLen_append whole.header, ← whole.1]
    exact not_lt.mp long

end Headers

def RecvNode.requeue (node : RecvNode) (queue : Bytes) : RecvNode :=
  { node with bq := if node.sock < 0 then [] else queue }

section Requeue

variable (env : ReceiveEnv) (node : RecvNode) (queue pkt : Bytes)

section

variable (connected : 0 ≤ node.sock)

include connected

theorem requeue_of_open : node.requeue queue = { node with bq := queue } := by
  unfold RecvNode.requeue
  rw [if_neg (not_lt.mpr connected)]

theorem nodeSetState_requeue (next : NodeState) (sent : Bool) :
    nodeSetState { node with bq := queue } next sent =
      (nodeSetState node next sent).requeue queue := by
  have notClosed : ¬ node.sock < 0 := not_lt.mpr connected
  unfold nodeSetState
  split_ifs
  · exact (requeue_of_open node queue connected).symm
  · rfl
  · rfl
  · simp only [RecvNode.requeue, if_neg notClosed]

theorem handleActive_requeue :
    (handleActive env { node with bq := queue } pkt).1 =
      (handleActive env node pkt).1.requeue queue := by
  have notClosed : ¬ node.sock < 0 := not_lt.mpr connected
  unfold handleActive
  dsimp only
  split_ifs
  · rfl
  · rfl
  · rfl
  · exact nodeSetState_requeue
      { node with info := (pktBody pkt).take nodeinfoSize, incompatibleClusterConfig := false }
      queue connected _ _
  · simp only [RecvNode.requeue, if_neg notClosed]

theorem handleEvent_requeue :
    (handleEvent env { node with bq := queue } pkt).1 =
      (handleEvent env node pkt).1.requeue queue := by
  have notClosed : ¬ node.sock < 0 := not_lt.mpr connected
  unfold handleEvent handleControl markInfo
  dsimp only
  split_ifs
  · rfl
  · exact handleActive_requeue env node queue pkt connected
  all_goals simp only [RecvNode.requeue, if_neg notClosed]

end

end Requeue

def plainHanded (packets : List Bytes) : List Handed := packets.map fun pkt => ⟨pkt, pkt⟩

structure Received
    (start : RecvState) (stream : Bytes) (packets : List Bytes) (rest : Bytes)
    (state : RecvState) : Prop where
  parts : stream = packets.flatten ++ rest
  whole : ∀ pkt ∈ packets, WholePacket pkt ∧ pkt.length < 2 ^ 32
  handed : state.handed = start.handed ++ plainHanded packets

inductive Progress
    (env : ReceiveEnv) (start : RecvState) (stream : Bytes) (state : RecvState) : Prop
  | waiting (packets : List Bytes) (rest : Bytes)
      (received : Received start stream packets rest state)
      (connected : 0 ≤ (afterPackets env start.node packets).sock)
      (node : state.node = { afterPackets env start.node packets with bq := rest })
      (incomplete : completePacket rest = none)
  | disconnected (packets : List Bytes) (last rest : Bytes)
      (received : Received start stream (packets ++ [last]) rest state)
      (connected : 0 ≤ (afterPackets env start.node packets).sock)
      (ended : (afterPackets env start.node (packets ++ [last])).sock < 0)
      (closed : state.node.sock < 0)
  | badSignature (packets : List Bytes) (rest : Bytes)
      (received : Received start stream packets rest state)
      (connected : 0 ≤ (afterPackets env start.node packets).sock)
      (header : hdrSize ≤ rest.length)
      (signature : slice rest 0 8 ≠ merlinSignature)
      (closed : state.node.sock < 0)
  | overrun (packets : List Bytes) (rest : Bytes)
      (parts : stream = packets.flatten ++ rest)
      (whole : ∀ pkt ∈ packets, WholePacket pkt)
      (connected : 0 ≤ (afterPackets env start.node packets).sock)
      (wraps : SizeWraps rest)
      (block : Handed) (member : block ∈ state.handed) (short : block.raw.length < hdrSize)

section Receiving

variable {env : ReceiveEnv} {start state : RecvState} {stream rest : Bytes} {packets : List Bytes}

@[simp]
theorem plainHanded_raw (packets : List Bytes) :
    (plainHanded packets).map Handed.raw = packets := by
  unfold plainHanded
  rw [map_map]
  exact map_id packets

@[simp]
theorem afterPackets_nil (env : ReceiveEnv) (node : RecvNode) : afterPackets env node [] = node :=
  rfl

@[simp]
theorem afterPackets_append (env : ReceiveEnv) (node : RecvNode) (pkt : Bytes)
    (packets : List Bytes) :
    afterPackets env node (packets ++ [pkt]) =
      (handleEvent env (afterPackets env node packets) pkt).1 := by
  unfold afterPackets
  rw [foldl_append]
  rfl

variable {after : RecvState} {pkt : Bytes}

theorem Received.next (received : Received start stream packets (pkt ++ rest) state)
    (whole : WholePacket pkt) (fits : pkt.length < 2 ^ 32)
    (handed : after.handed = state.handed ++ [⟨pkt, pkt⟩]) :
    Received start stream (packets ++ [pkt]) rest after where
  parts := by
    rw [received.parts]
    simp
  whole := by
    intro other member
    rcases mem_append.mp member with before | last
    · exact received.whole other before
    · rw [mem_singleton.mp last]
      exact ⟨whole, fits⟩
  handed := by
    rw [handed, received.handed]
    simp [plainHanded]

theorem Received.more (received : Received start stream packets rest state) (chunk : Bytes)
    (handed : after.handed = state.handed) :
    Received start (stream ++ chunk) packets (rest ++ chunk) after where
  parts := by
    rw [received.parts, append_assoc]
  whole := received.whole
  handed := handed.trans received.handed

variable {node : RecvNode}

theorem openPacket_of_unencrypted
    (unencrypted : env.config.encrypted = false) (node : RecvNode) (raw : Bytes) :
    openPacket env.sodium env.config node raw = (.event raw raw, node) := by
  unfold openPacket
  rw [unencrypted]
  rfl

@[simp]
theorem disconnect_sock (node : RecvNode) : node.disconnect.sock = -1 := rfl

theorem getRecorded_eq {got : GetEvent}
    (result : nodeGetEvent env.sodium env.config state.node = (got, node)) :
    getRecorded env state = (got, { state with
      node := node
      arrived := state.arrived ++ (completePacket state.node.bq).toList }) := by
  unfold getRecorded
  rw [result]

theorem netLoop_succ_of_nothing (fuel : Nat) (got : getRecorded env state = (.nothing, after)) :
    netLoop env (fuel + 1) state = after := by
  unfold netLoop
  rw [got]

theorem netLoop_succ_of_event (fuel : Nat) {raw pkt : Bytes}
    (got : getRecorded env state = (.event raw pkt, after)) :
    netLoop env (fuel + 1) state = netLoop env fuel (handleRecorded env after raw pkt) := by
  conv_lhs => unfold netLoop
  rw [got]

theorem netLoop_succ_of_outOfBounds (fuel : Nat) {raw : Bytes}
    (got : (getRecorded env state).1 = .outOfBounds raw) :
    netLoop env (fuel + 1) state = overrunRecorded (getRecorded env state).2 raw := by
  unfold netLoop
  generalize getRecorded env state = result at got
  obtain ⟨event, after⟩ := result
  subst got
  rfl

theorem netLoop_of_empty (env : ReceiveEnv) (fuel : Nat) (empty : state.node.bq = []) :
    (netLoop env fuel state).node = state.node ∧
      (netLoop env fuel state).handed = state.handed := by
  cases fuel with
  | zero => exact ⟨rfl, rfl⟩
  | succ fuel =>
    have nothing : nodeGetEvent env.sodium env.config state.node = (.nothing, state.node) := by
      unfold nodeGetEvent
      rw [empty, if_pos (by decide)]
    rw [netLoop_succ_of_nothing fuel (getRecorded_eq nothing)]
    exact ⟨rfl, rfl⟩

theorem netLoop_handed_grows (env : ReceiveEnv) (fuel : Nat) (state : RecvState) :
    state.handed <+: (netLoop env fuel state).handed := by
  induction fuel generalizing state with
  | zero => exact prefix_rfl
  | succ fuel ih =>
    unfold netLoop
    generalize recorded : getRecorded env state = result
    have same : result.2.handed = state.handed := by
      rw [← recorded]
      rfl
    obtain ⟨got, after⟩ := result
    rw [← same]
    cases got with
    | nothing => exact prefix_rfl
    | outOfBounds raw => exact prefix_append _ _
    | event raw pkt =>
      apply List.IsPrefix.trans (prefix_append _ _)
      exact ih (handleRecorded env after raw pkt)

theorem netInput_handed_grows (env : ReceiveEnv) (state : RecvState) (chunk : Bytes) :
    state.handed <+: (netInput env state (.data chunk)).handed := by
  unfold netInput
  split
  · exact prefix_rfl
  · exact netLoop_handed_grows env _
      { state with node := { state.node with bq := state.node.bq ++ chunk } }

theorem progress_of_incomplete (fuel : Nat) (received : Received start stream packets rest state)
    (connected : 0 ≤ (afterPackets env start.node packets).sock)
    (node : state.node = { afterPackets env start.node packets with bq := rest })
    (incomplete : completePacket rest = none) :
    Progress env start stream (netLoop env (fuel + 1) state) := by
  have queue : state.node.bq = rest := by
    rw [node]
  rcases nodeGetEvent_incomplete_cases env (queue ▸ incomplete) with
    unchanged | ⟨closed, header, signature⟩
  · rw [netLoop_succ_of_nothing fuel (getRecorded_eq unchanged)]
    exact .waiting packets rest ⟨received.parts, received.whole, received.handed⟩
      connected node incomplete
  · rw [netLoop_succ_of_nothing fuel (getRecorded_eq closed)]
    rw [queue] at header signature
    exact .badSignature packets rest ⟨received.parts, received.whole, received.handed⟩
      connected header signature (Int.negSucc_lt_zero 0)

theorem nodeGetEvent_of_whole (unencrypted : env.config.encrypted = false)
    (queue : node.bq = pkt ++ rest) (whole : WholePacket pkt) (fits : pkt.length < 2 ^ 32) :
    nodeGetEvent env.sodium env.config node = (.event pkt pkt, { node with bq := rest }) := by
  have complete : completePacket node.bq = some pkt := by
    rw [queue, completePacket_append whole fits]
  have left : node.bq.drop (frameSize node.bq) = rest := by
    rw [queue, frameSize_append whole fits, drop_left]
  rw [nodeGetEvent_of_sized env complete whole.header, left, openPacket_of_unencrypted unencrypted]

theorem netLoop_of_whole (unencrypted : env.config.encrypted = false) (fuel : Nat)
    (connected : 0 ≤ state.node.sock) (queue : state.node.bq = pkt ++ rest)
    (whole : WholePacket pkt) (fits : pkt.length < 2 ^ 32) :
    ∃ after : RecvState, netLoop env (fuel + 1) state = netLoop env fuel after ∧
      after.node = (handleEvent env state.node pkt).1.requeue rest ∧
      after.handed = state.handed ++ [⟨pkt, pkt⟩] := by
  have got := getRecorded_eq (nodeGetEvent_of_whole unencrypted queue whole fits)
  exact ⟨_, netLoop_succ_of_event fuel got, handleEvent_requeue env state.node rest pkt connected,
    rfl⟩

theorem progress_of_disconnected (fuel : Nat) {last : Bytes}
    (received : Received start stream (packets ++ [last]) rest after)
    (connected : 0 ≤ (afterPackets env start.node packets).sock)
    (node : after.node = (afterPackets env start.node (packets ++ [last])).requeue rest)
    (ended : (afterPackets env start.node (packets ++ [last])).sock < 0) :
    Progress env start stream (netLoop env fuel after) := by
  have emptied : after.node.bq = [] := by
    rw [node]
    exact if_pos ended
  obtain ⟨sameNode, sameHanded⟩ := netLoop_of_empty env fuel emptied
  refine .disconnected packets last rest ⟨received.parts, received.whole, ?_⟩ connected ended ?_
  · rw [sameHanded, received.handed]
  · rw [sameNode, node]
    exact ended

theorem netLoop_progress (unencrypted : env.config.encrypted = false) {fuel : Nat}
    (received : Received start stream packets rest state)
    (connected : 0 ≤ (afterPackets env start.node packets).sock)
    (node : state.node = { afterPackets env start.node packets with bq := rest })
    (enough : rest.length < fuel) : Progress env start stream (netLoop env fuel state) := by
  induction fuel generalizing state packets rest with
  | zero => omega
  | succ fuel ih =>
    have queue : state.node.bq = rest := by
      rw [node]
    cases complete : completePacket rest with
    | none => exact progress_of_incomplete fuel received connected node complete
    | some raw =>
      by_cases sized : hdrSize ≤ raw.length
      · obtain ⟨whole, fits, split⟩ := WholePacket.of_complete complete sized
        generalize rest.drop (frameSize rest) = left at split
        subst split
        have opened : 0 ≤ state.node.sock := by
          rw [node]
          exact connected
        obtain ⟨after, next, afterNode, handed⟩ :=
          netLoop_of_whole unencrypted fuel opened queue whole fits
        have received := received.next whole fits handed
        have isNode : after.node =
            (afterPackets env start.node (packets ++ [raw])).requeue left := by
          rw [afterNode, node, handleEvent_requeue env _ _ raw connected, afterPackets_append]
          rfl
        rw [next]
        by_cases stillConnected : 0 ≤ (afterPackets env start.node (packets ++ [raw])).sock
        · apply ih received stillConnected
          · rw [isNode, requeue_of_open _ _ stillConnected]
          · have positive : 0 < raw.length := lt_of_lt_of_le (by decide) sized
            rw [length_append] at enough
            omega
        · exact progress_of_disconnected fuel received connected isNode (not_le.mp stillConnected)
      · have short := not_le.mp sized
        rw [netLoop_succ_of_outOfBounds fuel (nodeGetEvent_of_wrapped env (queue ▸ complete) short)]
        exact .overrun packets rest received.parts
          (fun pkt member => (received.whole pkt member).1)
          connected (.of_complete complete short) ⟨raw, raw⟩ (by simp [overrunRecorded]) short

theorem netInput_closed (recv : Recv) (closed : state.node.sock < 0) :
    netInput env state recv = state := by
  unfold netInput
  rw [if_pos closed]

theorem Progress.netInput (unencrypted : env.config.encrypted = false) (chunk : Bytes)
    (progress : Progress env start stream state) :
    Progress env start (stream ++ chunk) (netInput env state (.data chunk)) := by
  cases progress with
  | waiting packets rest received connected node incomplete =>
    have opened : ¬ state.node.sock < 0 := by
      rw [node]
      exact not_lt.mpr connected
    have queued : Received start (stream ++ chunk) packets (rest ++ chunk)
        { state with node := { state.node with bq := state.node.bq ++ chunk } } :=
      received.more chunk rfl
    unfold MonitorMerlin.netInput
    rw [if_neg opened]
    apply netLoop_progress unencrypted queued connected
    · simp only [node]
    · simp only [node, length_append]
      omega
  | disconnected packets last rest received connected ended closed =>
    rw [netInput_closed _ closed]
    exact .disconnected packets last (rest ++ chunk) (received.more chunk rfl)
      connected ended closed
  | badSignature packets rest received connected header signature closed =>
    rw [netInput_closed _ closed]
    refine .badSignature packets (rest ++ chunk) (received.more chunk rfl) connected ?_ ?_ closed
    · rw [length_append]
      omega
    · rw [signature_append header]
      exact signature
  | overrun packets rest parts whole connected wraps block member short =>
    refine .overrun packets (rest ++ chunk) ?_ whole connected wraps.append block ?_ short
    · rw [parts, append_assoc]
    · exact (netInput_handed_grows env state chunk).subset member

theorem Progress.inputs (unencrypted : env.config.encrypted = false) (chunks : List Bytes)
    (progress : Progress env start stream state) :
    Progress env start (stream ++ chunks.flatten)
      ((chunks.map fun chunk => RecvEvent.input (.data chunk)).foldl (recvStep env) state) := by
  induction chunks generalizing stream state with
  | nil => simpa using progress
  | cons chunk chunks ih =>
    have next := ih (progress.netInput unencrypted chunk)
    rw [append_assoc] at next
    exact next

theorem Progress.initial (connected : 0 ≤ start.node.sock) (empty : start.node.bq = []) :
    Progress env start [] start := by
  refine .waiting [] [] ⟨rfl, by simp, by simp [plainHanded]⟩ connected ?_ completePacket_nil
  rw [afterPackets_nil, ← empty]

end Receiving

section Streams

variable {env : ReceiveEnv} {node : RecvNode} {rest other : Bytes} {packets : List Bytes}

theorem handleEvent_sock (env : ReceiveEnv) (node : RecvNode) (pkt : Bytes) :
    (handleEvent env node pkt).1.sock = node.sock ∨ (handleEvent env node pkt).1.sock = -1 := by
  unfold handleEvent handleControl markInfo
  split_ifs
  · exact .inr rfl
  · unfold handleActive nodeSetState
    dsimp only
    split_ifs <;> simp
  all_goals exact .inl rfl

theorem connected_of_afterPackets (connected : 0 ≤ (afterPackets env node packets).sock) :
    0 ≤ node.sock := by
  induction packets generalizing node with
  | nil => exact connected
  | cons pkt packets ih =>
    have handled : 0 ≤ (handleEvent env node pkt).1.sock := ih connected
    rcases handleEvent_sock env node pkt with same | closed
    · exact same ▸ handled
    · omega

theorem WholePacket.eq_of_append
    {first second : Bytes} (wholeFirst : WholePacket first) (wholeSecond : WholePacket second)
    (same : first ++ rest = second ++ other) : first = second ∧ rest = other := by
  have sameLen : hdrLen first = hdrLen second := by
    have lengthFirst : hdrLen (first ++ rest) = hdrLen first := hdrLen_append wholeFirst.header
    rw [← lengthFirst, same, hdrLen_append wholeSecond.header]
  apply append_inj same
  rw [wholeFirst.1, wholeSecond.1, sameLen]

def Stuck (rest : Bytes) : Prop :=
  ¬ SizeWraps rest ∧ ∀ pkt left, rest = pkt ++ left → ¬ WholePacket pkt

theorem stuck_of_incomplete (incomplete : completePacket rest = none) : Stuck rest := by
  have notWraps : ¬ SizeWraps rest := by
    intro wraps
    rw [wraps.complete] at incomplete
    cases incomplete
  refine ⟨notWraps, ?_⟩
  rintro pkt left rfl whole
  by_cases fits : pkt.length < 2 ^ 32
  · rw [completePacket_append whole fits] at incomplete
    cases incomplete
  · exact notWraps (.of_long whole fits)

theorem stuck_of_badSignature (signature : slice rest 0 8 ≠ merlinSignature) : Stuck rest := by
  refine ⟨fun wraps => signature wraps.2.1, ?_⟩
  rintro pkt left rfl whole
  rw [signature_append whole.header] at signature
  exact signature whole.2

structure Settled (env : ReceiveEnv) (node : RecvNode) (packets : List Bytes) (rest : Bytes) :
    Prop where
  connected : 0 ≤ node.sock
  before : ∀ initial, initial <+: packets → initial ≠ packets →
    0 ≤ (afterPackets env node initial).sock
  ends : (afterPackets env node packets).sock < 0 ∨ Stuck rest

section

variable (connected : 0 ≤ (afterPackets env node packets).sock)

include connected

theorem connected_before {initial : List Bytes} (within : initial <+: packets) :
    0 ≤ (afterPackets env node initial).sock := by
  obtain ⟨more, rfl⟩ := within
  unfold afterPackets at connected
  rw [foldl_append] at connected
  exact connected_of_afterPackets connected

theorem Settled.of_stuck (stuck : Stuck rest) : Settled env node packets rest where
  connected := connected_of_afterPackets connected
  before := fun _ within _ => connected_before connected within
  ends := .inr stuck

theorem Settled.of_disconnected {last : Bytes}
    (ended : (afterPackets env node (packets ++ [last])).sock < 0) :
    Settled env node (packets ++ [last]) rest where
  connected := connected_of_afterPackets connected
  before := by
    intro initial within proper
    rcases prefix_concat_iff.mp within with same | inside
    · exact absurd same proper
    · exact connected_before connected inside
  ends := .inl ended

end

variable {pkt : Bytes}

theorem Settled.tail (settled : Settled env node (pkt :: packets) rest)
    (connected : 0 ≤ (handleEvent env node pkt).1.sock) :
    Settled env (handleEvent env node pkt).1 packets rest where
  connected := connected
  before := by
    intro initial within proper
    apply settled.before (pkt :: initial)
    · exact (prefix_cons_inj pkt).mpr within
    · intro same
      exact proper (tail_eq_of_cons_eq same)
  ends := settled.ends

theorem Settled.stuck (settled : Settled env node [] rest) : Stuck rest :=
  settled.ends.resolve_left (not_lt.mpr settled.connected)

theorem Settled.last (settled : Settled env node (pkt :: packets) rest)
    (closed : (handleEvent env node pkt).1.sock < 0) : packets = [] := by
  by_contra more
  have connected := settled.before [pkt] (by simp) fun same => more (by simpa using same.symm)
  exact absurd closed (not_lt.mpr connected)

section

variable (whole : ∀ pkt ∈ packets, WholePacket pkt ∧ pkt.length < 2 ^ 32)
  (settled : Settled env node packets rest)

include whole settled

theorem Settled.sizesFit : SizesFit env node (packets.flatten ++ rest) := by
  intro others left parts wholeOthers connected wraps
  induction packets generalizing node others with
  | nil =>
    cases others with
    | nil =>
      apply settled.stuck.1
      rw [show rest = left from parts]
      exact wraps
    | cons first others =>
      refine settled.stuck.2 first (others.flatten ++ left) ?_ (wholeOthers first (by simp))
      simpa using parts
  | cons pkt packets ih =>
    obtain ⟨wholePkt, fits⟩ := whole pkt (by simp)
    cases others with
    | nil =>
      have front : left = pkt ++ (packets.flatten ++ rest) := by
        simpa using parts.symm
      have long := wraps.2.2
      rw [front, hdrLen_append wholePkt.header, ← wholePkt.1] at long
      omega
    | cons first others =>
      have wholeFirst := wholeOthers first (by simp)
      have split : pkt ++ (packets.flatten ++ rest) = first ++ (others.flatten ++ left) := by
        simpa using parts
      obtain ⟨rfl, remaining⟩ := wholePkt.eq_of_append wholeFirst split
      apply ih (fun other member => whole other (by simp [member]))
        (settled.tail (connected_of_afterPackets connected)) others remaining
        (fun other member => wholeOthers other (by simp [member])) connected

theorem Settled.deliverable {others : List Bytes} (wholeOthers : ∀ pkt ∈ others, WholePacket pkt)
    (parts : others.flatten = packets.flatten ++ rest) : packets = deliverable env node others := by
  induction packets generalizing node others with
  | nil =>
    cases others with
    | nil => rfl
    | cons first others =>
      exact absurd (wholeOthers first (by simp))
        (settled.stuck.2 first others.flatten (by simpa using parts.symm))
  | cons pkt packets ih =>
    have wholePkt := (whole pkt (by simp)).1
    cases others with
    | nil =>
      have empty : pkt = [] := by
        simp only [flatten_nil, flatten_cons, append_assoc] at parts
        exact (append_eq_nil_iff.mp parts.symm).1
      have header := wholePkt.header
      rw [empty] at header
      exact absurd header (by decide)
    | cons first others =>
      have split : first ++ others.flatten = pkt ++ (packets.flatten ++ rest) := by
        simpa using parts
      obtain ⟨rfl, remaining⟩ := (wholeOthers first (by simp)).eq_of_append wholePkt split
      unfold MonitorMerlin.deliverable
      by_cases closed : (handleEvent env node first).1.sock < 0
      · rw [if_pos closed, settled.last closed]
      · rw [if_neg closed,
          ← ih (fun other member => whole other (by simp [member]))
          (settled.tail (not_lt.mp closed))
          (fun other member => wholeOthers other (by simp [member])) remaining]

end

end Streams

theorem Progress.settled {env : ReceiveEnv} {start state : RecvState} {stream : Bytes}
    (progress : Progress env start stream state) :
    (¬ SizesFit env start.node stream ∧
        ∃ block ∈ state.handed, block.raw.length < hdrSize) ∨
      ∃ packets rest, Received start stream packets rest state ∧
        Settled env start.node packets rest := by
  cases progress with
  | waiting packets rest received connected node incomplete =>
    exact .inr ⟨packets, rest, received, .of_stuck connected (stuck_of_incomplete incomplete)⟩
  | disconnected packets last rest received connected ended closed =>
    exact .inr ⟨packets ++ [last], rest, received, .of_disconnected connected ended⟩
  | badSignature packets rest received connected header signature closed =>
    exact .inr ⟨packets, rest, received, .of_stuck connected (stuck_of_badSignature signature)⟩
  | overrun packets rest parts whole connected wraps block member short =>
    refine .inl ⟨?_, block, member, short⟩
    intro fits
    exact fits packets rest parts whole connected wraps

/-- Over any chunks, the packets that are handled are framed as their headers say exactly when
no header makes the size of a packet wrap around. -/
theorem inputRun_framed_iff
    (env : ReceiveEnv) (node : RecvNode) (chunks : List Bytes)
    (unencrypted : env.config.encrypted = false)
    (connected : 0 ≤ node.sock)
    (empty : node.bq = []) :
    Framed env node chunks.flatten (inputRun env node chunks) ↔
      SizesFit env node chunks.flatten := by
  have initial : Progress env ⟨node, [], [], []⟩ [] ⟨node, [], [], []⟩ := .initial connected empty
  rcases (initial.inputs unencrypted chunks).settled with
    ⟨unfit, block, member, short⟩ | ⟨packets, rest, received, settled⟩
  · refine iff_of_false ?_ unfit
    intro framed
    have sized := (framed.sized block member).2
    omega
  · have raws : (inputRun env node chunks).handed.map Handed.raw = packets := by
      rw [show (inputRun env node chunks).handed = plainHanded packets from received.handed,
        plainHanded_raw]
    have parts : chunks.flatten = packets.flatten ++ rest := received.parts
    refine iff_of_true ⟨?_, ?_, ?_⟩ ?_
    · intro block member
      rw [show (inputRun env node chunks).handed = plainHanded packets from received.handed]
        at member
      obtain ⟨pkt, pktMember, rfl⟩ := mem_map.mp member
      exact ⟨rfl, (received.whole pkt pktMember).1.1⟩
    · rw [raws, parts]
      exact prefix_append _ _
    · intro others wholeOthers flat
      rw [raws]
      exact settled.deliverable received.whole wholeOthers (flat.trans parts)
    · rw [parts]
      exact settled.sizesFit received.whole

def plainEnv : ReceiveEnv :=
  { sampleEnv with config := { sampleEnv.config with encrypted := false } }

def sampleHeader (len : Nat) : Bytes :=
  merlinSignature ++ leBytes 2 merlinProtocolVersion ++ leBytes 2 nebcallbackHostCheckData ++
    List.replicate 4 0 ++ leBytes 4 len ++ List.replicate 56 0 ++ sampleFrom ++
    List.replicate 16 0

theorem inputRun_framed_two_packets :
    let packets := [sampleHeader 2 ++ [1, 2], sampleHeader 0]
    let chunks := [packets.flatten.take 129, packets.flatten.drop 129]
    Framed plainEnv connectedPeer chunks.flatten (inputRun plainEnv connectedPeer chunks) := by
  intro packets chunks
  apply (inputRun_framed_iff plainEnv connectedPeer chunks rfl (by decide) rfl).mpr
  have settled : Settled plainEnv connectedPeer packets [] :=
    .of_stuck (by decide +kernel) (stuck_of_incomplete completePacket_nil)
  have fit := settled.sizesFit (by decide +kernel)
  have parts : packets.flatten ++ [] = chunks.flatten := by decide +kernel
  exact parts ▸ fit

theorem inputRun_cuts_header :
    let chunks := [sampleHeader (2 ^ 32 - 64)]
    let block := (sampleHeader (2 ^ 32 - 64)).take 64
    (inputRun plainEnv connectedPeer chunks).handed = [⟨block, block⟩] ∧
      ¬ Framed plainEnv connectedPeer chunks.flatten (inputRun plainEnv connectedPeer chunks) := by
  have cut : (inputRun plainEnv connectedPeer [sampleHeader (2 ^ 32 - 64)]).handed =
      [⟨(sampleHeader (2 ^ 32 - 64)).take 64, (sampleHeader (2 ^ 32 - 64)).take 64⟩] := by
    decide +kernel
  refine ⟨cut, ?_⟩
  intro framed
  have sized := framed.sized
  rw [cut] at sized
  exact absurd (sized _ (mem_singleton_self _)).2 (by decide +kernel)

end MonitorMerlin
