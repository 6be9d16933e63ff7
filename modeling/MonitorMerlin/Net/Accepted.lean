import MonitorMerlin.Net.Framing

/-! # Accepting a node by its UUID -/

namespace MonitorMerlin

open ByteImage List MachineInt

def acceptRun
    (env : ReceiveEnv) (node : RecvNode) (sock : Int) (negotiation : Negotiation)
    (first : Bytes) (chunks : List Bytes) : RecvState :=
  recvRun env node
    (.accept sock first negotiation true :: chunks.map fun chunk => .input (.data chunk))

/-- A whole packet with the UUID of the node. -/
def SentBy (config : NodeConfig) (pkt : Bytes) : Prop :=
  WholePacket pkt ∧ slice pkt 76 37 = config.uuid ++ [0]

instance SentBy.decidable (config : NodeConfig) (pkt : Bytes) : Decidable (SentBy config pkt) :=
  inferInstanceAs (Decidable (_ ∧ _))

section Accept

variable {env : ReceiveEnv} {node : RecvNode} {sock : Int} {negotiation : Negotiation}
  {first pkt extra : Bytes} {chunks packets : List Bytes}

theorem nodeAccept_of_none (idle : node.state = .none) (queue : Bytes) :
    nodeAccept { node with bq := queue } sock negotiation true =
      { node.disconnect with sock := sock, state := .negotiating } := by
  unfold nodeAccept
  rw [if_pos idle]
  rfl

theorem SentBy.recognised (sent : SentBy env.config pkt) (uuid : env.config.uuid.length = 36) :
    ¬ ((pkt ++ extra).length < hdrSize ∨ env.config.uuid.length ≠ 36 ∨
      slice (pkt ++ extra) 76 37 ≠ env.config.uuid ++ [0]) := by
  have header := sent.1.header
  rintro (short | other | different)
  · rw [length_append] at short
    omega
  · exact other uuid
  · apply different
    rw [slice_append_left (le_trans (by decide) header), sent.2]

variable {state : RecvState}

theorem findNodeUuid_event (unencrypted : env.config.encrypted = false)
    (idle : state.node.state = .none) (uuid : env.config.uuid.length = 36)
    (sent : SentBy env.config pkt) (fits : pkt.length < 2 ^ 32) :
    findNodeUuid env state sock (pkt ++ extra) negotiation true =
      handleRecorded env
        { state with
          node := { state.node.disconnect with sock := sock, state := .negotiating }
          arrived := state.arrived ++ [pkt] }
        pkt pkt := by
  have complete : completePacket (pkt ++ extra) = some pkt := completePacket_append sent.1 fits
  have got : nodeGetEvent env.sodium env.config { state.node with bq := pkt ++ extra } =
      (.event pkt pkt, { state.node with bq := extra }) := by
    rw [nodeGetEvent_of_sized env complete sent.1.header, openPacket_of_unencrypted unencrypted,
      frameSize_append sent.1 fits, drop_left]
  have available : frameSize (pkt ++ extra) ≤ (pkt ++ extra).length := by
    rw [frameSize_append sent.1 fits, length_append]
    exact Nat.le_add_right _ _
  unfold findNodeUuid
  rw [if_neg (sent.recognised uuid)]
  simp only [if_pos available]
  rw [getRecorded_eq (by exact got)]
  simp only [nodeAccept_of_none idle, complete, Option.toList_some]

theorem findNodeUuid_overrun (uuid : env.config.uuid.length = 36) (sent : SentBy env.config pkt)
    (long : ¬ pkt.length < 2 ^ 32) :
    ∃ raw : Bytes, raw.length < hdrSize ∧
      (findNodeUuid env state sock (pkt ++ extra) negotiation true).handed =
        state.handed ++ [⟨raw, raw⟩] := by
  have wraps : SizeWraps (pkt ++ extra) := .of_long sent.1 long
  have available : frameSize (pkt ++ extra) ≤ (pkt ++ extra).length :=
    le_trans (le_of_lt wraps.frameSize_lt) wraps.1
  have short : ((pkt ++ extra).take (frameSize (pkt ++ extra))).length < hdrSize :=
    lt_of_le_of_lt (length_take_le _ _) wraps.frameSize_lt
  refine ⟨_, short, ?_⟩
  let queued : RecvState := { state with node := { state.node with bq := pkt ++ extra } }
  have got : getRecorded env queued = (.outOfBounds _, _) :=
    getRecorded_eq (Prod.ext (nodeGetEvent_of_wrapped env wraps.complete short) rfl)
  unfold findNodeUuid
  rw [if_neg (sent.recognised uuid)]
  simp only [if_pos available]
  rw [got]
  rfl

theorem inputs_handed_grow (env : ReceiveEnv) (chunks : List Bytes) (state : RecvState) :
    state.handed <+:
      ((chunks.map fun chunk => RecvEvent.input (.data chunk)).foldl
        (recvStep env) state).handed := by
  induction chunks generalizing state with
  | nil => exact prefix_rfl
  | cons chunk chunks ih =>
    apply List.IsPrefix.trans (netInput_handed_grows env state chunk)
    exact ih (netInput env state (.data chunk))

theorem deliverable_of_connected (connected : 0 ≤ (afterPackets env node packets).sock) :
    deliverable env node packets = packets := by
  induction packets generalizing node with
  | nil => rfl
  | cons pkt packets ih =>
    have opened : 0 ≤ (handleEvent env node pkt).1.sock := connected_of_afterPackets connected
    unfold deliverable
    rw [if_neg (not_lt.mpr opened), ih connected]

theorem inputs_lossless_iff (unencrypted : env.config.encrypted = false) {start : RecvState}
    (headers : ∀ block ∈ start.handed, hdrSize ≤ block.raw.length) (empty : start.node.bq = [])
    (stays : 0 ≤ (afterPackets env start.node packets).sock)
    (whole : ∀ other ∈ packets, WholePacket other)
    (stream : extra ++ chunks.flatten = packets.flatten) :
    ((chunks.map fun chunk => RecvEvent.input (.data chunk)).foldl
        (recvStep env) start).handed.map Handed.raw = start.handed.map Handed.raw ++ packets ↔
      extra = [] ∧ ∀ other ∈ packets, other.length < 2 ^ 32 := by
  have initial : Progress env start [] start := .initial (connected_of_afterPackets stays) empty
  have progress := initial.inputs unencrypted chunks
  rw [nil_append] at progress
  generalize (chunks.map fun chunk => RecvEvent.input (.data chunk)).foldl
    (recvStep env) start = final at progress
  have allSettled : Settled env start.node packets [] :=
    .of_stuck stays (stuck_of_incomplete completePacket_nil)
  rcases progress.settled with ⟨unfit, block, member, short⟩ | ⟨handled, rest, received, settled⟩
  · apply iff_of_false
    · intro all
      have raws : block.raw ∈ start.handed.map Handed.raw ++ packets := by
        rw [← all]
        exact mem_map_of_mem member
      have header : hdrSize ≤ block.raw.length := by
        rcases mem_append.mp raws with before | later
        · obtain ⟨other, otherMember, same⟩ := mem_map.mp before
          exact same ▸ headers other otherMember
        · exact (whole _ later).header
      omega
    · rintro ⟨rfl, fits⟩
      have fit := allSettled.sizesFit fun other member => ⟨whole other member, fits other member⟩
      rw [append_nil, ← stream] at fit
      exact unfit fit
  · have raws : final.handed.map Handed.raw = start.handed.map Handed.raw ++ handled := by
      rw [received.handed, map_append, plainHanded_raw]
    have parts := received.parts
    rw [raws, append_cancel_left_eq]
    constructor
    · rintro rfl
      refine ⟨?_, fun other member => (received.whole other member).2⟩
      rw [parts] at stream
      have lengths := congrArg List.length stream
      simp only [length_append] at lengths
      exact eq_nil_of_length_eq_zero (by omega)
    · rintro ⟨rfl, _⟩
      rw [settled.deliverable received.whole whole (stream.symm.trans parts),
        deliverable_of_connected stays]

end Accept

/-- All packets of a stream are handled exactly when the first read ends with the first
packet, if no packet disconnects the node and the sizes fit. -/
theorem acceptRun_lossless_iff
    (env : ReceiveEnv) (node : RecvNode) (sock : Int) (negotiation : Negotiation)
    (first pkt : Bytes) (chunks packets : List Bytes)
    (unencrypted : env.config.encrypted = false)
    (idle : node.state = .none)
    (uuid : env.config.uuid.length = 36)
    (sent : ∀ other ∈ pkt :: packets, SentBy env.config other)
    (stream : first ++ chunks.flatten = (pkt :: packets).flatten)
    (firstWhole : pkt.length ≤ first.length)
    (stays : 0 ≤ (afterPackets env (nodeAccept node sock negotiation true) (pkt :: packets)).sock) :
    (acceptRun env node sock negotiation first chunks).handed.map Handed.raw = pkt :: packets ↔
      first = pkt ∧ ∀ other ∈ pkt :: packets, other.length < 2 ^ 32 := by
  have sentFirst := sent pkt (by simp)
  obtain ⟨extra, rfl⟩ : ∃ extra, first = pkt ++ extra := by
    have parts : first ++ chunks.flatten = pkt ++ packets.flatten := by simpa using stream
    obtain ⟨extra, same⟩ := prefix_of_prefix_length_le
      ⟨packets.flatten, rfl⟩ ⟨chunks.flatten, parts⟩ firstWhole
    exact ⟨extra, same.symm⟩
  have behind : extra ++ chunks.flatten = packets.flatten := by
    simpa using stream
  by_cases fits : pkt.length < 2 ^ 32
  · let accepted : RecvNode := { node.disconnect with sock := sock, state := .negotiating }
    let start : RecvState := handleRecorded env ⟨accepted, [pkt], [], []⟩ pkt pkt
    have run : acceptRun env node sock negotiation (pkt ++ extra) chunks =
        (chunks.map fun chunk => RecvEvent.input (.data chunk)).foldl (recvStep env) start :=
      congrArg (List.foldl (recvStep env) · _)
        (findNodeUuid_event unencrypted idle uuid sentFirst fits)
    have staysBehind : 0 ≤ (afterPackets env start.node packets).sock := by
      rw [nodeAccept_of_none idle node.bq] at stays
      exact stays
    have empty : start.node.bq = [] :=
      eq_nil_of_length_eq_zero (Nat.le_zero.mp (handleEvent_bq_le env accepted pkt))
    have headers : ∀ block ∈ start.handed, hdrSize ≤ block.raw.length := by
      intro block member
      rw [mem_singleton.mp member]
      exact sentFirst.1.header
    rw [run, append_right_eq_self, forall_mem_cons, and_iff_right fits]
    exact inputs_lossless_iff unencrypted headers empty staysBehind
      (fun other member => (sent other (by simp [member])).1) behind
  · obtain ⟨raw, short, handed⟩ := findNodeUuid_overrun uuid sentFirst fits
    refine iff_of_false ?_ fun both => fits (both.2 pkt (by simp))
    intro all
    obtain ⟨more, handedAll⟩ := inputs_handed_grow env chunks
      (findNodeUuid env ⟨node, [], [], []⟩ sock (pkt ++ extra) negotiation true)
    have front : raw = pkt := by
      have same : (acceptRun env node sock negotiation (pkt ++ extra) chunks).handed =
          ⟨raw, raw⟩ :: more := by
        rw [handed] at handedAll
        exact handedAll.symm
      rw [same] at all
      exact (cons.inj all).1
    have header := sentFirst.1.header
    rw [front] at short
    omega

theorem acceptRun_lossless_two_packets :
    (acceptRun plainEnv unconnectedPeer 6 .keepsOne (sampleHeader 2 ++ [1, 2])
        [sampleHeader 0]).handed.map Handed.raw = [sampleHeader 2 ++ [1, 2], sampleHeader 0] :=
  (acceptRun_lossless_iff plainEnv unconnectedPeer 6 .keepsOne _ _ _ _ rfl rfl rfl
    (by decide +kernel) (by decide +kernel) (by decide +kernel) (by decide +kernel)).mpr
    (by decide +kernel)

theorem acceptRun_drops_packet :
    let packets := [sampleHeader 2 ++ [1, 2], sampleHeader 0]
    (∀ pkt ∈ packets, SentBy plainEnv.config pkt) ∧
      0 ≤ (afterPackets plainEnv (nodeAccept unconnectedPeer 6 .keepsOne true) packets).sock ∧
      (acceptRun plainEnv unconnectedPeer 6 .keepsOne packets.flatten []).handed.map Handed.raw =
        [sampleHeader 2 ++ [1, 2]] := by
  decide +kernel

end MonitorMerlin
