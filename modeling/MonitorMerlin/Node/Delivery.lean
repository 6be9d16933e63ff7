import MonitorMerlin.Binlog.Fifo
import MonitorMerlin.Node.Send

/-! # What a node is sent -/

namespace MonitorMerlin

open ByteImage List

/-- The backlog of the node holds `entries`. -/
def Stores (node : SendNode) (slots : Nat) (entries : List Bytes) : Prop :=
  match node.binlog with
  | none => entries = []
  | some bl => Queues ⟨bl, node.disk⟩ entries ∧ bl.writeIndex ≤ slots

/-- Sent and stored packets are some of those submitted, in order. -/
def DeliveredInOrder (uuid : Uuid) (node : SendNode) (packets : List Bytes) : Prop :=
  ∃ entries,
    (match node.binlog with
      | none => entries = []
      | some bl => binlogObject.Drains binlogEmpty ⟨bl, node.disk⟩ entries) ∧
    ((node.wire ++ entries).map (stamped uuid)).Sublist (packets.map (stamped uuid))

variable {node : SendNode} {entries : List Bytes} {uuid : Uuid} {bl : Binlog} {packets : List Bytes}
  {state : BinlogState} {mem file : List Bytes} {buf : Bytes} {slots : Nat} {config : BacklogConfig}
  {new : Option Bytes} {rest : List SendOutcome} {after : BinlogState} {backlog : List SendOutcome}
  {pkt original : Bytes} {last : SendOutcome}

theorem Stores.le {slots more : Nat} (stored : Stores node slots entries) (grows : slots ≤ more) :
    Stores node more entries := by
  unfold Stores at stored ⊢
  cases present : node.binlog with
  | none =>
    rw [present] at stored
    exact stored
  | some bl =>
    rw [present] at stored
    exact ⟨stored.1, stored.2.trans grows⟩

theorem not_deliveredInOrder_of_longer (present : node.binlog = some bl)
    (drains : binlogObject.Drains binlogEmpty ⟨bl, node.disk⟩ entries)
    (longer : packets.length < (node.wire ++ entries).length) :
    ¬ DeliveredInOrder uuid node packets := by
  rintro ⟨others, drainsOthers, ordered⟩
  rw [present] at drainsOthers
  have length := ordered.length_le
  rw [FifoQueue.Object.drains_unique drainsOthers drains, length_map, length_map] at length
  omega

theorem Represents.add_refused_cases (represented : Represents state mem file)
    (fits : EntryFits buf) (refused : (binlogAdd state buf).1 ≠ 0) :
    (binlogAdd state buf).1 = binlogEnospc ∨ state.bl.path = none := by
  have toFile : ¬ KeepsInMemory state.bl buf := fun inMemory =>
    refused (congrArg Prod.fst (binlogAddWrites_memory represented.valid inMemory))
  by_cases full : state.bl.maxFileSize < state.bl.fileSize + buf.length
  · left
    unfold binlogAdd
    rw [binlogAddWrites_toFile represented.valid toFile, binlogFileAdd, if_pos full]
  · right
    by_contra named
    obtain ⟨name, content, -, added, -⟩ :=
      represented.add_file fits toFile ⟨named, Int.not_lt.mp full⟩
    exact refused (by rw [added])

theorem Represents.fullWarning (represented : Represents state mem file) :
    Represents (binlogFullWarning state).2 mem file :=
  { valid := represented.valid
    memory := represented.memory.congr rfl rfl rfl rfl
    onFile := represented.onFile.congr ⟨rfl, rfl, rfl, rfl, rfl, rfl, rfl⟩
    memoryFirst := represented.memoryFirst
    fits := represented.fits }

theorem represents_wipe_without_file (noPath : state.bl.path = none) :
    Represents (binlogWipe state true) [] [] := by
  refine ⟨rfl, ⟨rfl, rfl, Nat.le_refl _, Nat.two_pow_pos 32, by simp⟩, ?_, by simp, by simp⟩
  refine .closed rfl rfl rfl rfl rfl fun name named => ?_
  have sameName : state.bl.path = some name := named
  rw [noPath] at sameName
  cases sameName

theorem SizedPacket.entryFits (sized : SizedPacket pkt) : EntryFits pkt := by
  have bound := sized.validPacket.length_le
  unfold EntryFits
  omega

theorem storePacket_stores {pkt : Bytes} (queues : Queues state entries)
    (used : state.bl.writeIndex ≤ slots) (few : slots ≤ slotLimit) (sized : SizedPacket pkt) :
    ∃ kept,
      Stores (storePacket node state pkt).2 (slots + 1) kept ∧
        kept.Sublist (entries ++ [pkt]) ∧ (storePacket node state pkt).2.wire = node.wire := by
  obtain ⟨mem, file, rfl, represented⟩ := queues
  have grows := growFits_of_slots (used.trans few)
  have usedLater := (represented.add_keeps pkt).2
  unfold storePacket
  rw [sized.take_packetSize]
  rcases represented.add sized.entryFits fun _ => grows with
    ⟨accepted, mem', file', joined, after⟩ | ⟨refused, same⟩
  · rw [if_neg (by rw [accepted]; decide), if_neg (by rw [accepted]; decide)]
    exact ⟨mem' ++ file', ⟨⟨_, _, rfl, after⟩, by exact usedLater.trans (by omega)⟩,
      by rw [joined], rfl⟩
  · simp only [same]
    split_ifs with full failed
    · exact ⟨mem ++ file, ⟨⟨_, _, rfl, represented.fullWarning⟩, by exact used.trans (by omega)⟩,
        sublist_append_left _ _, rfl⟩
    · have noPath := (represented.add_refused_cases sized.entryFits refused).resolve_left full
      exact ⟨[], ⟨⟨[], [], rfl, represents_wipe_without_file noPath⟩, Nat.zero_le _⟩,
        nil_sublist _, rfl⟩
    · exact ⟨mem ++ file, ⟨⟨_, _, rfl, represented⟩, by exact used.trans (by omega)⟩,
        sublist_append_left _ _, rfl⟩

theorem queues_fresh (config : BacklogConfig) (disk : Disk) :
    Queues ⟨config.fresh, disk.unlink config.fresh.path⟩ [] :=
  ⟨[], [], rfl, represents_fresh fun _ => disk.get_unlink⟩

theorem Stores.create (stored : Stores node slots entries) (config : BacklogConfig) :
    (nodeCreateBinlog config node.binlog node.disk = (-1, none, node.disk) ∧ entries = []) ∨
      ∃ state : BinlogState,
        nodeCreateBinlog config node.binlog node.disk = (0, some state.bl, state.disk) ∧
          Queues state entries ∧ state.bl.writeIndex ≤ slots := by
  unfold Stores at stored
  cases present : node.binlog with
  | some bl =>
    rw [present] at stored
    exact .inr ⟨⟨bl, node.disk⟩, rfl, stored.1, stored.2⟩
  | none =>
    rw [present] at stored
    rw [nodeCreateBinlog_none]
    split
    · exact .inl ⟨rfl, stored⟩
    · exact .inr ⟨⟨config.fresh, _⟩, rfl, stored ▸ queues_fresh config node.disk, Nat.zero_le _⟩

theorem nodeBinlogAdd_stores {pkt : Bytes} (config : BacklogConfig)
    (stored : Stores node slots entries) (few : slots ≤ slotLimit) (sized : SizedPacket pkt) :
    ∃ kept,
      Stores (nodeBinlogAdd config node pkt).2 (slots + 1) kept ∧
        kept.Sublist (entries ++ [pkt]) ∧ (nodeBinlogAdd config node pkt).2.wire = node.wire := by
  unfold nodeBinlogAdd
  split_ifs
  · exact ⟨entries, stored.le (Nat.le_succ _), sublist_append_left _ _, rfl⟩
  · rcases stored.create config with ⟨failed, none⟩ | ⟨state, created, queues, used⟩
    · rw [failed]
      exact ⟨[], rfl, nil_sublist _, rfl⟩
    · rw [created]
      exact storePacket_stores queues used few sized

theorem Stores.read (stored : Stores node slots entries) (present : node.binlog = some bl) :
    (binlogRead ⟨bl, node.disk⟩).1 = FifoQueue.Object.answer binlogEmpty entries ∧
      Stores (node.withBinlog (binlogRead ⟨bl, node.disk⟩).2) slots entries.tail := by
  rw [Stores, present] at stored
  obtain ⟨queues, used⟩ := stored
  obtain ⟨answer, after⟩ := binlogSimulation.read queues
  obtain ⟨mem, file, -, represented⟩ := queues
  exact ⟨answer, after, represented.read_keeps.2.trans used⟩

theorem nodeSendBinlog_error {outcome : SendOutcome} {code : Int} (opened : ¬ node.sock < 0)
    (present : node.binlog = some bl) (answer : binlogRead ⟨bl, node.disk⟩ = (.error code, after)) :
    nodeSendBinlog uuid config new node (outcome :: rest) = (0, node.withBinlog after) := by
  rw [nodeSendBinlog, if_neg opened, present]
  simp only [answer]

def SendNode.sentEntry
    (node : SendNode) (uuid : Uuid) (after : BinlogState) (entry : Bytes) : SendNode :=
  { node.withBinlog after with wire := node.wire ++ [stampUuid uuid entry] }

theorem nodeSendBinlog_sent {entry : Bytes} (opened : ¬ node.sock < 0)
    (present : node.binlog = some bl) (answer : binlogRead ⟨bl, node.disk⟩ = (.ok entry, after))
    (accepts : AcceptsEntry entry) :
    nodeSendBinlog uuid config new node (.sent :: rest) =
      nodeSendBinlog uuid config new (node.sentEntry uuid after entry) rest := by
  have transmitted :
      nodeSend uuid (node.withBinlog after) entry .sent =
        (packetSize entry, stampUuid uuid entry, node.sentEntry uuid after entry) :=
    if_neg opened
  rw [nodeSendBinlog, if_neg opened, present]
  simp only [answer, if_pos accepts, transmitted, if_true]

theorem nodeSendBinlog_sends (stored : Stores node slots entries)
    (sized : ∀ entry ∈ entries, SizedPacket entry)
    (complete : ∀ outcome ∈ backlog, outcome = .sent) :
    ∃ moved left,
      entries = moved ++ left ∧
        (nodeSendBinlog uuid config new node backlog).2.wire =
          node.wire ++ moved.map (stampUuid uuid) ∧
        Stores (nodeSendBinlog uuid config new node backlog).2 slots left := by
  induction backlog generalizing node entries with
  | nil => exact ⟨[], entries, rfl, by simp [nodeSendBinlog], stored⟩
  | cons outcome rest ih =>
    obtain rfl : outcome = .sent := complete outcome (by simp)
    by_cases closed : node.sock < 0
    · rw [nodeSendBinlog, if_pos closed]
      exact ⟨[], entries, rfl, by simp, stored⟩
    · cases present : node.binlog with
      | none =>
        rw [nodeSendBinlog, if_neg closed, present]
        exact ⟨[], entries, rfl, by simp, stored⟩
      | some bl =>
        obtain ⟨answer, after⟩ := stored.read present
        cases entries with
        | nil =>
          rw [nodeSendBinlog_error closed present (Prod.ext answer rfl)]
          exact ⟨[], [], rfl, by simp [SendNode.withBinlog], after⟩
        | cons entry others =>
          have accepts := (sized entry (by simp)).validPacket.acceptsEntry
          rw [nodeSendBinlog_sent closed present (Prod.ext answer rfl) accepts]
          obtain ⟨moved, left, split, wire, storedLast⟩ :=
            @ih (node.sentEntry uuid (binlogRead ⟨bl, node.disk⟩).2 entry) others after
              (fun entry member => sized entry (by simp [member]))
              (fun outcome member => complete outcome (by simp [member]))
          refine ⟨entry :: moved, left, by rw [split]; rfl, ?_, storedLast⟩
          rw [wire, SendNode.sentEntry]
          simp

def InOrder (uuid : Uuid) (node : SendNode) (packets : List Bytes) : Prop :=
  ∃ entries,
    Stores node packets.length entries ∧
      (∀ entry ∈ entries, SizedPacket entry) ∧
      ((node.wire ++ entries).map (stamped uuid)).Sublist (packets.map (stamped uuid))

theorem InOrder.deliveredInOrder (inOrder : InOrder uuid node packets) :
    DeliveredInOrder uuid node packets := by
  obtain ⟨entries, stored, _, ordered⟩ := inOrder
  refine ⟨entries, ?_, ordered⟩
  unfold Stores at stored
  cases present : node.binlog with
  | none =>
    rw [present] at stored
    exact stored
  | some bl =>
    rw [present] at stored
    exact binlogSimulation.drains stored.1

theorem nodeBinlogAdd_inOrder (stored : Stores node packets.length entries)
    (sizedEntries : ∀ entry ∈ entries, SizedPacket entry)
    (ordered : ((node.wire ++ entries).map (stamped uuid)).Sublist (packets.map (stamped uuid)))
    (few : packets.length ≤ slotLimit) (sized : SizedPacket pkt)
    (sameStamps : stamped uuid pkt = stamped uuid original) :
    InOrder uuid (nodeBinlogAdd config node pkt).2 (packets ++ [original]) := by
  obtain ⟨kept, storedLater, keptOrdered, wire⟩ := nodeBinlogAdd_stores config stored few sized
  refine ⟨kept, by rw [length_append]; exact storedLater, ?_, ?_⟩
  · intro entry member
    rcases mem_append.mp (keptOrdered.subset member) with older | new
    · exact sizedEntries entry older
    · rw [mem_singleton.mp new]
      exact sized
  · rw [wire]
    have grown : (node.wire ++ kept).Sublist (node.wire ++ entries ++ [pkt]) := by
      rw [append_assoc]
      exact (List.Sublist.refl node.wire).append keptOrdered
    refine (grown.map (stamped uuid)).trans ?_
    have together :
        ((node.wire ++ entries).map (stamped uuid) ++ [stamped uuid pkt]).Sublist
          (packets.map (stamped uuid) ++ [stamped uuid original]) := by
      rw [sameStamps]
      exact ordered.append (List.Sublist.refl _)
    simpa using together

theorem Stores.numEntries (stored : Stores node slots entries) (few : entries.length < 2 ^ 32) :
    node.numEntries = entries.length := by
  unfold Stores at stored
  unfold SendNode.numEntries
  cases present : node.binlog with
  | none =>
    rw [present] at stored
    rw [stored]
    rfl
  | some bl =>
    rw [present] at stored
    exact stored.1.numEntries.trans (Nat.mod_eq_of_lt few)

theorem map_stamped_stampUuid (uuid : Uuid) (sized : ∀ entry ∈ entries, SizedPacket entry) :
    (entries.map (stampUuid uuid)).map (stamped uuid) = entries.map (stamped uuid) := by
  rw [map_map]
  refine map_congr_left fun entry member => ?_
  exact stamped_stampUuid (sized entry member).long

theorem nodeSend_cases (uuid : Uuid) (node : SendNode) (pkt : Bytes) (outcome : SendOutcome) :
    nodeSend uuid node pkt outcome =
        (packetSize pkt, stampUuid uuid pkt,
          { node with wire := node.wire ++ [stampUuid uuid pkt] }) ∨
      ∃ result stampedPkt sock state,
        nodeSend uuid node pkt outcome =
            (result, stampedPkt, { node with sock := sock, state := state }) ∧
          result ≤ 0 ∧ (stampedPkt = pkt ∨ stampedPkt = stampUuid uuid pkt) := by
  unfold nodeSend
  split_ifs
  · exact .inr ⟨0, pkt, node.sock, node.state, rfl, le_rfl, .inl rfl⟩
  · cases outcome with
    | sent => exact .inl rfl
    | wouldBlock => exact .inr ⟨0, _, -1, .none, rfl, le_rfl, .inr rfl⟩
    | failed => exact .inr ⟨-1, _, -1, .none, rfl, by decide, .inr rfl⟩

theorem InOrder.submit (inOrder : InOrder uuid node packets) (pkt : Bytes) :
    InOrder uuid node (packets ++ [pkt]) := by
  obtain ⟨entries, stored, sized, ordered⟩ := inOrder
  refine ⟨entries, stored.le (by simp), sized, ordered.trans ?_⟩
  rw [map_append]
  exact sublist_append_left _ _

theorem InOrder.sendBinlog (inOrder : InOrder uuid node packets)
    (complete : ∀ outcome ∈ backlog, outcome = .sent) (config : BacklogConfig)
    (pkt : Option Bytes) :
    InOrder uuid (nodeSendBinlog uuid config pkt node backlog).2 packets := by
  obtain ⟨entries, stored, sized, ordered⟩ := inOrder
  obtain ⟨moved, left, rfl, wire, storedLater⟩ := nodeSendBinlog_sends stored sized complete
  refine ⟨left, storedLater, fun entry member => sized entry (by simp [member]), ?_⟩
  have sameStamps :=
    map_stamped_stampUuid uuid fun entry member => sized entry (mem_append_left left member)
  rw [wire, map_append, map_append, sameStamps]
  simpa using ordered

theorem sendLast_inOrder (stored : Stores node packets.length [])
    (ordered : (node.wire.map (stamped uuid)).Sublist (packets.map (stamped uuid)))
    (few : packets.length ≤ slotLimit) (sized : SizedPacket pkt)
    (sameStamps : stamped uuid pkt = stamped uuid original) :
    InOrder uuid (nodeSendLast uuid config node pkt last).2 (packets ++ [original]) := by
  unfold nodeSendLast
  rcases nodeSend_cases uuid node pkt last with
    transmitted | ⟨result, stampedPkt, sock, state, notSent, failed, stamps⟩
  · simp only [transmitted, if_true]
    refine ⟨[], stored.le (by simp), by simp, ?_⟩
    rw [append_nil, map_append, map_append, map_singleton, map_singleton,
      stamped_stampUuid sized.long, sameStamps]
    exact ordered.append (List.Sublist.refl _)
  · have positive := sized.packetSize_pos
    have stampedSized : SizedPacket stampedPkt := by
      rcases stamps with rfl | rfl
      · exact sized
      · exact sized.stampUuid
    have stampedSame : stamped uuid stampedPkt = stamped uuid original := by
      rcases stamps with rfl | rfl
      · exact sameStamps
      · rw [stamped_stampUuid sized.long, sameStamps]
    simp only [notSent, if_neg (show result ≠ packetSize pkt by omega), if_pos failed]
    have storedLater : Stores { node with sock := sock, state := state } packets.length [] := stored
    exact nodeBinlogAdd_inOrder storedLater (by simp) (by rw [append_nil]; exact ordered) few
      stampedSized stampedSame

theorem nodeSendEvent_inOrder {pkt : Bytes} {msec : Int} {writable : Bool}
    (inOrder : InOrder uuid node packets) (sized : SizedPacket pkt)
    (complete : ∀ outcome ∈ backlog, outcome = .sent) (few : packets.length ≤ slotLimit) :
    InOrder uuid (nodeSendEvent uuid config node pkt msec writable backlog last).2
      (packets ++ [pkt]) := by
  have sameStamps : stamped uuid (stampEvent pkt) = stamped uuid pkt :=
    stamped_stampEvent sized.long
  have store : ∀ {node : SendNode}, InOrder uuid node packets →
      InOrder uuid (nodeBinlogAdd config node (stampEvent pkt)).2 (packets ++ [pkt]) := by
    rintro node ⟨entries, stored, sizedEntries, ordered⟩
    exact nodeBinlogAdd_inOrder stored sizedEntries ordered few sized.stampEvent sameStamps
  rw [nodeSendEvent]
  dsimp only
  split
  · exact inOrder.submit pkt
  split
  · exact store inOrder
  split
  · exact store inOrder
  generalize emptiedEq : (if node.numEntries ≠ 0 then
      (nodeSendBinlog uuid config (some (stampEvent pkt)) node backlog).2
    else
      node) = emptied
  have emptiedInOrder : InOrder uuid emptied packets := by
    rw [← emptiedEq]
    split
    · exact inOrder.sendBinlog complete config _
    · exact inOrder
  split_ifs with waiting
  · exact store emptiedInOrder
  · obtain ⟨entries, stored, _, ordered⟩ := emptiedInOrder
    have length := ordered.length_le
    rw [length_map, length_map, length_append] at length
    unfold slotLimit at few
    rw [not_not, stored.numEntries (by omega)] at waiting
    obtain rfl := length_eq_zero_iff.mp waiting
    rw [append_nil] at ordered
    exact sendLast_inOrder stored ordered few sized.stampEvent sameStamps

def NodeEvent.BacklogCompletes : NodeEvent → Prop
  | .send _ _ _ backlog _ => ∀ outcome ∈ backlog, outcome = .sent
  | .link _ _ => True

instance (event : NodeEvent) : Decidable event.BacklogCompletes :=
  match event with
  | .send _ _ _ _ _ => inferInstanceAs (Decidable (∀ outcome ∈ _, outcome = _))
  | .link _ _ => inferInstanceAs (Decidable True)

theorem nodeRun_inOrder {events : List NodeEvent} (inOrder : InOrder uuid node packets)
    (sized : ∀ pkt ∈ submitted events, SizedPacket pkt)
    (complete : ∀ event ∈ events, event.BacklogCompletes)
    (few : (packets ++ submitted events).length ≤ slotLimit) :
    InOrder uuid (nodeRun uuid config node events) (packets ++ submitted events) := by
  induction events generalizing node packets with
  | nil => simpa [nodeRun, submitted] using inOrder
  | cons event rest ih =>
    have laterComplete : ∀ event ∈ rest, event.BacklogCompletes :=
      fun other member => complete other (mem_cons_of_mem event member)
    cases event with
    | link sock state =>
      have linked : InOrder uuid { node with sock := sock, state := state } packets := inOrder
      exact ih linked sized laterComplete few
    | send pkt msec writable backlog last =>
      have split : packets ++ submitted (.send pkt msec writable backlog last :: rest) =
          packets ++ [pkt] ++ submitted rest := by
        simp [submitted]
      rw [split] at few ⊢
      have fewBefore : packets.length ≤ slotLimit := by
        rw [length_append, length_append] at few
        omega
      have sent : InOrder uuid
          (nodeStep uuid config node (.send pkt msec writable backlog last))
          (packets ++ [pkt]) :=
        nodeSendEvent_inOrder inOrder (sized pkt mem_cons_self) (complete _ mem_cons_self) fewBefore
      exact ih sent (fun other member => sized other (mem_cons_of_mem pkt member)) laterComplete few

/-- As long as the sends from the backlog complete, what is transmitted and then what is
stored is some of what was submitted, once and in order. -/
theorem nodeRun_delivers_in_order
    {uuid : Uuid} {config : BacklogConfig} {disk : Disk} {events : List NodeEvent}
    (sized : ∀ pkt ∈ submitted events, SizedPacket pkt)
    (complete : ∀ event ∈ events, event.BacklogCompletes)
    (few : (submitted events).length ≤ slotLimit) :
    DeliveredInOrder uuid (nodeRun uuid config (newNode disk) events) (submitted events) := by
  have fresh : InOrder uuid (newNode disk) [] := ⟨[], rfl, by simp, List.Sublist.refl _⟩
  have inOrder :
      InOrder uuid (nodeRun uuid config (newNode disk) events) ([] ++ submitted events) :=
    nodeRun_inOrder fresh sized complete (by rw [nil_append]; exact few)
  exact inOrder.deliveredInOrder

def bodylessPacket (type : UInt8) : Bytes := patch (List.replicate 128 0) 10 [type]

def sampleUuid : Uuid := ⟨[], by decide⟩

def reconnectEvents (outcome : SendOutcome) : List NodeEvent :=
  [.send (bodylessPacket 1) 0 true [] .sent, .link 5 .connected,
    .send (bodylessPacket 2) 0 true [outcome] .sent]

def reconnectedNode (outcome : SendOutcome) : SendNode :=
  nodeRun sampleUuid ⟨samplePath, 1, 1, false⟩ (newNode noFiles) (reconnectEvents outcome)

theorem nodeRun_delivers_in_order_reconnected :
    DeliveredInOrder sampleUuid (reconnectedNode .sent) (submitted (reconnectEvents .sent)) :=
  nodeRun_delivers_in_order (by decide +kernel) (by decide) (by decide)

theorem nodeSendEvent_stores_packet_twice :
    (∀ pkt ∈ submitted (reconnectEvents .failed), SizedPacket pkt) ∧
      (reconnectedNode .failed).wire = [] ∧
      (∃ bl,
        (reconnectedNode .failed).binlog = some bl ∧
          binlogObject.Drains binlogEmpty ⟨bl, (reconnectedNode .failed).disk⟩
            [stamped sampleUuid (bodylessPacket 1), stampEvent (bodylessPacket 2),
              stampEvent (bodylessPacket 2)]) ∧
      ¬ DeliveredInOrder sampleUuid (reconnectedNode .failed)
        (submitted (reconnectEvents .failed)) := by
  have stored : ∃ bl,
      (reconnectedNode .failed).binlog = some bl ∧
        binlogObject.Drains binlogEmpty ⟨bl, (reconnectedNode .failed).disk⟩
          [stamped sampleUuid (bodylessPacket 1), stampEvent (bodylessPacket 2),
            stampEvent (bodylessPacket 2)] :=
    ⟨(reconnectedNode .failed).binlog.get (by decide +kernel), by simp, by decide +kernel⟩
  refine ⟨by decide +kernel, by decide +kernel, stored, ?_⟩
  obtain ⟨bl, present, drains⟩ := stored
  exact not_deliveredInOrder_of_longer present drains (by decide +kernel)

end MonitorMerlin
