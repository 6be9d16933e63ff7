import MonitorMerlin.Library.Run
import MonitorMerlin.Node.Statistics

/-! # The counters of a node account for every event -/

namespace MonitorMerlin

open ByteImage List

/-- `binlog_num_entries` of the backlog. -/
def SendNode.countEntries (node : SendNode) : Nat := uint node.numEntries

structure Tracked where
  this : CountedNode
  total : Nat

def Tracked.start (disk : Disk) : Tracked := ⟨⟨newNode disk, .zero⟩, 0⟩

inductive NodeCall where
  | send (call : SendCall)
  | link (sock : Int) (state : NodeState)

inductive StatEvent where
  | restore (answers : RestoreAnswers)
  | call (call : NodeCall)

def statStep (uuid : Uuid) (config : BacklogConfig) (tracked : Tracked) :
    StatEvent → Option Tracked
  | .restore answers =>
    (nodeReadSaved config answers tracked.this.node).map fun node =>
      ⟨⟨node, tracked.this.stats⟩,
        tracked.total + (node.countEntries - tracked.this.node.countEntries)⟩
  | .call (.send call) =>
    some ⟨(nodeSendEventCounted uuid config tracked.this call).2, tracked.total + 1⟩
  | .call (.link sock state) =>
    some
      { tracked with
        this := { tracked.this with node := { tracked.this.node with sock, state } } }

def statEvents (saved : Option RestoreAnswers) (calls : List NodeCall) : List StatEvent :=
  saved.toList.map .restore ++ calls.map .call

structure CountedNode.Conserved (this : CountedNode) (total : Nat) : Prop where
  logged : this.stats.logged = this.node.countEntries
  neverWraps : this.stats.wrapped = false
  sum : ull (this.stats.sent + this.stats.logged + this.stats.dropped) = ull total

def Tracked.Conserved (tracked : Tracked) : Prop := tracked.this.Conserved tracked.total

section Permitted

variable (config : BacklogConfig)

def HasPlace (bl : Binlog) (buf : Bytes) : Prop :=
  KeepsInMemory bl buf ∨ bl.fileSize + buf.length ≤ bl.maxFileSize

def Takes (access : Bool) (node : SendNode) (pkt : Bytes) : Prop :=
  match node.binlog with
  | some bl => HasPlace bl pkt
  | none =>
    (access = true ∧ 15 ≤ config.path.length) ∧
      (pkt.length < config.maxMemorySize * 1024 * 1024 % 2 ^ 64 ∨
        pkt.length ≤ offT (config.maxFileSize * 1024 * 1024))

def HoldsPackets (node : SendNode) : Prop :=
  ∃ entries, Stores node slotLimit entries ∧ entries.length + 1 < 2 ^ 32 ∧
    ∀ entry ∈ entries, SizedPacket entry

def SendsNow (node : SendNode) (call : SendCall) : Prop :=
  ¬ node.sock < 0 ∧ node.state = .connected ∧ ¬ (0 ≤ call.msec ∧ call.writable = false)

structure SendPermitted (node : SendNode) (call : SendCall) : Prop where
  holds : HoldsPackets node
  complete : SendsNow node call → ∀ outcome ∈ call.backlog, outcome = .sent
  takes : ¬ (SendsNow node call ∧ node.numEntries ≤ call.backlog.length ∧ call.last = .sent) →
    Takes config call.store.access node call.pkt

def NothingSaved (node : SendNode) : Prop :=
  config.persist = false ∨ node.disk.metadata = none ∨ node.disk.save = none

def StatPermitted (tracked : Tracked) : StatEvent → Prop
  | .restore _ => NothingSaved config tracked.this.node
  | .call (.send call) => SendPermitted config tracked.this.node call
  | .call (.link _ _) => True

end Permitted

section Adding

variable {state : BinlogState} {buf : Bytes} {outcome header body : WriteOutcome}
  {answer : AddAnswer}

def FailsWith (code : Int) : Prop := code < 0 ∧ code ≠ binlogEnospc

instance (code : Int) : Decidable (FailsWith code) := inferInstanceAs (Decidable (_ ∧ _))

theorem safeWrite_cases (state : BinlogState) (buf : Bytes) (outcome : WriteOutcome) :
    safeWrite state buf outcome = safeWrite state buf .full ∧
        (safeWrite state buf outcome).1 = 0 ∨
      FailsWith (safeWrite state buf outcome).1 := by
  unfold safeWrite
  cases state.bl.fd with
  | none => exact .inr (by decide : FailsWith (-1))
  | some fd =>
    dsimp only
    by_cases whole : outcome.result buf.length = buf.length
    · left
      rw [if_pos whole, if_pos (show WriteOutcome.full.result buf.length = buf.length from rfl),
        whole]
      exact ⟨rfl, rfl⟩
    · right
      rw [if_neg whole]
      cases outcome with
      | full => exact absurd rfl whole
      | error => exact (by decide : FailsWith (-1))
      | short written seekBack =>
        have notNegative : ¬ (WriteOutcome.short written seekBack).result buf.length < 0 :=
          Int.not_lt.mpr (Int.natCast_nonneg _)
        rw [if_neg notNegative]
        cases seekBack with
        | false => exact (by decide : FailsWith binlogEinvalid)
        | true => exact (by decide : FailsWith binlogEincomplete)

theorem binlogOpen_cases (state : BinlogState) :
    (binlogOpen state).1 = 0 ∨ FailsWith (binlogOpen state).1 := by
  unfold binlogOpen
  split
  · exact .inl rfl
  · split
    · exact .inr (by decide : FailsWith binlogEnopath)
    · split
      · exact .inl rfl
      · exact .inl rfl

theorem binlogFileAdd_cases (room : state.bl.fileSize + buf.length ≤ state.bl.maxFileSize)
    (header body : WriteOutcome) :
    binlogFileAdd state buf header body = binlogFileAdd state buf .full .full ∧
        (binlogFileAdd state buf header body).1 = 0 ∨
      FailsWith (binlogFileAdd state buf header body).1 := by
  unfold binlogFileAdd
  simp only [if_neg (Int.not_lt.mpr room)]
  rcases binlogOpen_cases state with opened | failed
  · have opens : ¬ (binlogOpen state).1 < 0 := by omega
    simp only [if_neg opens]
    rcases safeWrite_cases (binlogOpen state).2 (leBytes 4 buf.length) header with
      ⟨headed, wrote⟩ | failed
    · simp only [← headed, wrote, ne_eq, not_true_eq_false, if_false]
      rcases safeWrite_cases (safeWrite (binlogOpen state).2 (leBytes 4 buf.length) header).2 buf
          body with ⟨bodied, complete⟩ | failed
      · exact .inl ⟨by rw [← bodied], complete⟩
      · exact .inr failed
    · simp only [if_pos (Int.ne_of_lt failed.1)]
      exact .inr failed
  · simp only [if_pos failed.1]
    exact .inr failed

theorem binlogAddAnswered_cases (place : HasPlace state.bl buf) (answer : AddAnswer) :
    binlogAddAnswered state buf answer = binlogAdd state buf ∧
        (binlogAddAnswered state buf answer).1 = 0 ∨
      FailsWith (binlogAddAnswered state buf answer).1 := by
  unfold binlogAddAnswered binlogAdd
  by_cases invalid : state.bl.isValid = false
  · rw [if_pos invalid]
    exact .inr (by decide : FailsWith binlogEinvalid)
  · have valid : state.bl.isValid = true := Bool.eq_true_of_not_eq_false invalid
    rw [if_neg invalid]
    by_cases inMemory : KeepsInMemory state.bl buf
    · rw [if_pos inMemory, binlogAddWrites_memory valid inMemory]
      split
      · exact .inl ⟨rfl, rfl⟩
      · exact .inr (by decide : FailsWith binlogEdropped)
    · rw [if_neg inMemory, binlogAddWrites_toFile valid inMemory]
      split
      · exact .inr (by decide : FailsWith (-1))
      · exact binlogFileAdd_cases (place.resolve_left inMemory) answer.header answer.body

end Adding

inductive PacketSettled (entries : List Bytes) (pkt : Bytes) (slots : Nat) :
    Booking → SendNode → Prop
  | stored {node : SendNode} (stores : Stores node (slots + 1) (entries ++ [pkt])) :
      PacketSettled entries pkt slots .stored node
  | dropped {node : SendNode} (empty : node.numEntries = 0) :
      PacketSettled entries pkt slots .dropped node

section Settling

variable {node : SendNode} {state : BinlogState} {entries : List Bytes} {slots : Nat} {pkt : Bytes}
  {config : BacklogConfig}

theorem storeBooked_settled (queues : Queues state entries) (used : state.bl.writeIndex ≤ slots)
    (few : slots ≤ slotLimit) (sized : SizedPacket pkt) (place : HasPlace state.bl pkt)
    (node : SendNode) (answer : AddAnswer) :
    PacketSettled entries pkt slots (storeBooked node state pkt answer).2.1
      (storeBooked node state pkt answer).2.2 := by
  obtain ⟨mem, file, rfl, represented⟩ := queues
  unfold storeBooked
  rw [sized.take_packetSize]
  dsimp only
  rcases binlogAddAnswered_cases place answer with ⟨isAdd, accepted⟩ | failed
  · rw [accepted, if_neg (by decide), if_neg (by decide), isAdd]
    rw [isAdd] at accepted
    rcases represented.add sized.entryFits fun _ => growFits_of_slots (used.trans few) with
      ⟨-, mem', file', joined, after⟩ | ⟨refused, -⟩
    · refine .stored ⟨⟨mem', file', joined.symm, after⟩, ?_⟩
      exact (represented.add_keeps pkt).2.trans (Nat.succ_le_succ used)
    · exact absurd accepted refused
  · rw [if_neg failed.2, if_pos failed.1]
    exact .dropped rfl

theorem Takes.exists_place (stored : Stores node slots entries) {access : Bool}
    (takes : Takes config access node pkt) :
    ∃ state : BinlogState,
      createAnswered config access node.binlog node.disk = (0, some state.bl, state.disk) ∧
        Queues state entries ∧ state.bl.writeIndex ≤ slots ∧ HasPlace state.bl pkt := by
  unfold Takes at takes
  cases present : node.binlog with
  | some bl =>
    rw [present] at takes
    rw [Stores, present] at stored
    exact ⟨⟨bl, node.disk⟩, rfl, stored.1, stored.2, takes⟩
  | none =>
    rw [present] at takes
    rw [Stores, present] at stored
    obtain ⟨⟨writable, long⟩, place⟩ := takes
    refine ⟨⟨config.fresh, _⟩, ?_, stored ▸ queues_fresh config node.disk, Nat.zero_le _, ?_⟩
    · rw [createAnswered, if_neg (by simp [writable]), nodeCreateBinlog_none, if_neg (by omega)]
    · refine place.imp (fun small => ⟨rfl, ?_⟩) fun small => ?_
      · exact Nat.lt_of_le_of_lt (Nat.mod_le _ _) ((Nat.zero_add pkt.length).trans_lt small)
      · exact (Int.zero_add (pkt.length : Int)).trans_le small

theorem nodeBinlogAddBooked_settled (stored : Stores node slots entries) (few : slots ≤ slotLimit)
    (sized : SizedPacket pkt)
    (storable : ¬ (hdrType pkt = ctrlPacket ∧
      (hdrCode pkt = ctrlActive ∨ hdrCode pkt = ctrlInactive)))
    {answer : AddAnswer} (takes : Takes config answer.access node pkt) :
    PacketSettled entries pkt slots (nodeBinlogAddBooked config node pkt answer).2.1
      (nodeBinlogAddBooked config node pkt answer).2.2 := by
  obtain ⟨state, created, queues, used, place⟩ := takes.exists_place stored
  rw [nodeBinlogAddBooked, if_neg storable, created]
  exact storeBooked_settled queues used few sized place node answer

end Settling

namespace EventStats

structure Balanced (stats : EventStats) (left total : Nat) : Prop where
  logged : stats.logged = left
  few : left < 2 ^ 32
  neverWraps : stats.wrapped = false
  sum : ull (stats.sent + stats.logged + stats.dropped) = ull total

theorem sum_book (stats : EventStats) {booking : Booking} (booked : booking ≠ .refused) :
    ull ((stats.book booking).sent + (stats.book booking).logged + (stats.book booking).dropped) =
      ull (stats.sent + stats.logged + stats.dropped + 1) := by
  cases booking with
  | refused => exact absurd rfl booked
  | dropped | stored =>
    simp only [book, ull]
    omega

variable {stats : EventStats} {left total : Nat}

theorem Balanced.sendLogged (balanced : stats.Balanced (left + 1) total) :
    stats.sendLogged.Balanced left total := by
  have logged := balanced.logged
  have few := balanced.few
  have sum := balanced.sum
  unfold ull at sum
  have one : ull (stats.logged + (2 ^ 64 - 1)) = left := by
    unfold ull
    omega
  refine ⟨one, by omega, ?_, ?_⟩
  · simp [EventStats.sendLogged, balanced.neverWraps, logged]
  · simp only [EventStats.sendLogged, one]
    unfold ull
    omega

variable {count : Nat}

theorem Balanced.sendLogged_iterate (balanced : stats.Balanced left total) (enough : count ≤ left) :
    (EventStats.sendLogged^[count] stats).Balanced (left - count) total := by
  induction count generalizing stats left with
  | zero => exact balanced
  | succ count ih =>
    obtain ⟨less, rfl⟩ : ∃ less, left = less + 1 := ⟨left - 1, by omega⟩
    rw [Function.iterate_succ_apply, Nat.add_sub_add_right]
    exact ih balanced.sendLogged (by omega)

end EventStats

theorem Stores.countEntries {node : SendNode} {slots : Nat} {entries : List Bytes}
    (stored : Stores node slots entries) (few : entries.length < 2 ^ 32) :
    node.countEntries = entries.length := by
  rw [SendNode.countEntries, stored.numEntries few, uint, Nat.mod_eq_of_lt few]

structure SendCall.Stamps (call : SendCall) (pkt : Bytes) : Prop where
  sized : SizedPacket pkt
  sameLength : pkt.length = call.pkt.length
  storable : ¬ (hdrType pkt = ctrlPacket ∧ (hdrCode pkt = ctrlActive ∨ hdrCode pkt = ctrlInactive))

section Calls

variable {uuid : Uuid} {config : BacklogConfig} {stats : EventStats} {total slots : Nat}
  {node : SendNode} {entries : List Bytes} {pkt : Bytes} {call : SendCall}

theorem SendCall.stamps_stampEvent (call : SendCall) : call.Stamps (stampEvent call.pkt) := by
  have long := call.sized.long
  refine ⟨call.sized.stampEvent, length_stampEvent long, ?_⟩
  rw [hdrType, hdrCode, slice_stampEvent long (by decide), slice_stampEvent long (by decide)]
  exact call.storable

theorem SendCall.Stamps.stampUuid (stamps : call.Stamps pkt) :
    call.Stamps (stampUuid uuid pkt) := by
  have long := stamps.sized.long
  refine ⟨stamps.sized.stampUuid, (length_stampUuid long).trans stamps.sameLength, ?_⟩
  rw [hdrType, hdrCode, slice_stampUuid long (by decide), slice_stampUuid long (by decide)]
  exact stamps.storable

theorem SendCall.Stamps.takes (stamps : call.Stamps pkt) {access : Bool}
    (takes : Takes config access node call.pkt) : Takes config access node pkt := by
  unfold Takes HasPlace KeepsInMemory at takes ⊢
  rwa [stamps.sameLength]

theorem add_conserved (balanced : stats.Balanced entries.length total)
    (stored : Stores node slotLimit entries) (few : entries.length + 1 < 2 ^ 32)
    (stamps : call.Stamps pkt) {answer : AddAnswer}
    (takes : Takes config answer.access node call.pkt) :
    (CountedNode.add config ⟨node, stats⟩ pkt answer).2.Conserved (total + 1) := by
  have sum := balanced.sum
  have logged := balanced.logged
  have settled :=
    nodeBinlogAddBooked_settled stored le_rfl stamps.sized stamps.storable (stamps.takes takes)
  unfold CountedNode.add
  dsimp only
  generalize (nodeBinlogAddBooked config node pkt answer).2.2 = after at *
  generalize (nodeBinlogAddBooked config node pkt answer).2.1 = booking at *
  cases settled with
  | stored stores =>
    refine ⟨?_, balanced.neverWraps, ?_⟩
    · rw [stores.countEntries (by rwa [length_append]), length_append]
      simp only [EventStats.book, logged, ull, length_singleton]
      omega
    · rw [stats.sum_book (by decide)]
      unfold ull at sum ⊢
      omega
  | dropped empty =>
    refine ⟨?_, balanced.neverWraps, ?_⟩
    · rw [SendNode.countEntries, empty]
      rfl
    · rw [stats.sum_book (by decide)]
      unfold ull at sum ⊢
      omega

variable {state : BinlogState} {buf : Bytes}

theorem Represents.read_place {mem file : List Bytes} (represented : Represents state mem file)
    (place : HasPlace state.bl buf) : HasPlace (binlogRead state).2.bl buf := by
  obtain ⟨nonneg, isSize, -⟩ := represented.onFile.bounds
  cases mem with
  | cons first rest =>
    have same := binlogMemRead_sameFile state.bl
    obtain ⟨cache, readIndex, writeIndex, memAvail, fields⟩ := binlogMemRead_fields state.bl
    rw [represented.read_memory.1, fields]
    exact place
  | nil =>
    cases file with
    | cons first rest =>
      obtain ⟨-, -, fd, fields⟩ := represented.read_file
      rw [fields]
      refine .inr (place.resolve_left fun inMemory => ?_)
      exact absurd (represented.onFile.eq_nil_of_closed inMemory.1).1 (cons_ne_nil _ _)
    | nil =>
      rw [represented.read_empty_eq]
      refine place.imp (fun inMemory => ⟨rfl, inMemory.2⟩) fun room => ?_
      dsimp only
      omega

theorem Takes.read {bl : Binlog} {access : Bool} (stored : Stores node slots entries)
    (present : node.binlog = some bl) (takes : Takes config access node pkt) :
    Takes config access (node.withBinlog (binlogRead ⟨bl, node.disk⟩).2) pkt := by
  rw [Stores, present] at stored
  rw [Takes, present] at takes
  obtain ⟨⟨mem, file, -, represented⟩, -⟩ := stored
  exact represented.read_place takes

theorem emptyBacklog_sends {bl : Binlog} {turns : List SendOutcome} (opened : ¬ node.sock < 0)
    (present : node.binlog = some bl) (stored : Stores node slots entries)
    (sized : ∀ entry ∈ entries, SizedPacket entry)
    (complete : ∀ outcome ∈ turns, outcome = .sent) (answer : AddAnswer) :
    ∃ after : SendNode,
      emptyBacklog uuid answer node turns = (min turns.length entries.length, .stopped after) ∧
        Stores after slots (entries.drop turns.length) ∧ ¬ after.sock < 0 ∧
        ∀ access pkt, Takes config access node pkt → Takes config access after pkt := by
  induction turns generalizing node entries bl with
  | nil => exact ⟨node, by simp [emptyBacklog], stored, opened, fun _ _ takes => takes⟩
  | cons outcome rest ih =>
    obtain rfl : outcome = .sent := complete outcome mem_cons_self
    obtain ⟨isRead, storedLater⟩ := stored.read present
    rw [emptyBacklog, if_neg opened, present]
    cases entries with
    | nil =>
      have failed : binlogRead ⟨bl, node.disk⟩ =
          (.error binlogEmpty, (binlogRead ⟨bl, node.disk⟩).2) := Prod.ext isRead rfl
      dsimp only
      rw [failed]
      exact ⟨_, by simp, storedLater, opened, fun _ _ => Takes.read stored present⟩
    | cons entry others =>
      have read : binlogRead ⟨bl, node.disk⟩ = (.ok entry, (binlogRead ⟨bl, node.disk⟩).2) :=
        Prod.ext isRead rfl
      have transmitted :
          nodeSend uuid (node.withBinlog (binlogRead ⟨bl, node.disk⟩).2) entry .sent =
          (packetSize entry, stampUuid uuid entry,
            node.sentEntry uuid (binlogRead ⟨bl, node.disk⟩).2 entry) := if_neg opened
      have accepts := (sized entry mem_cons_self).validPacket.acceptsEntry
      obtain ⟨after, isEmptied, storedAfter, stillOpen, placesLater⟩ :=
        @ih (node.sentEntry uuid (binlogRead ⟨bl, node.disk⟩).2 entry) _ _ opened rfl storedLater
          (fun other member => sized other (mem_cons_of_mem _ member))
          (fun other member => complete other (mem_cons_of_mem _ member))
      dsimp only
      rw [read]
      dsimp only
      rw [if_pos accepts, transmitted]
      dsimp only
      rw [if_pos rfl, isEmptied]
      refine ⟨after, ?_, storedAfter, stillOpen, fun access pkt takes =>
        placesLater access pkt (takes.read stored present)⟩
      simp [Nat.succ_min_succ]

theorem emptied_sends (opened : ¬ node.sock < 0) (stored : Stores node slots entries)
    (few : entries.length < 2 ^ 32) (sized : ∀ entry ∈ entries, SizedPacket entry)
    (complete : ∀ outcome ∈ call.backlog, outcome = .sent) :
    ∃ after : SendNode,
      call.emptied uuid node = (min call.backlog.length entries.length, .stopped after) ∧
        Stores after slots (entries.drop call.backlog.length) ∧ ¬ after.sock < 0 ∧
        ∀ access pkt, Takes config access node pkt → Takes config access after pkt := by
  unfold SendCall.emptied
  split_ifs with waiting
  · cases present : node.binlog with
    | none =>
      rw [SendNode.numEntries, present] at waiting
      exact absurd rfl waiting
    | some bl => exact emptyBacklog_sends opened present stored sized complete call.unread
  · rw [not_not, stored.numEntries few, length_eq_zero_iff] at waiting
    subst waiting
    exact ⟨node, by simp, by simpa using stored, opened, fun _ _ takes => takes⟩

theorem nodeSendNew_conserved (balanced : stats.Balanced entries.length total)
    (stored : Stores node slotLimit entries) (few : entries.length + 1 < 2 ^ 32)
    (opened : ¬ node.sock < 0)
    (takes : ¬ (entries = [] ∧ call.last = .sent) → Takes config call.store.access node call.pkt) :
    (nodeSendNew uuid config call ⟨node, stats⟩).2.Conserved (total + 1) := by
  have stamps := call.stamps_stampEvent
  have isCount := stored.numEntries (by omega)
  unfold nodeSendNew
  dsimp only
  split_ifs with waiting
  · refine add_conserved balanced stored few stamps (takes fun direct => waiting ?_)
    rw [isCount, direct.1, length_nil]
  · have none : entries = [] := by rwa [not_not, isCount, length_eq_zero_iff] at waiting
    have sum := balanced.sum
    have positive := stamps.sized.packetSize_pos
    unfold nodeSendLastCounted
    rcases nodeSend_cases uuid node (stampEvent call.pkt) call.last with
      sent | ⟨result, stampedPkt, sock, state, unsent, nonpositive, isStamped⟩
    · rw [sent, if_pos rfl]
      refine ⟨?_, balanced.neverWraps, ?_⟩
      · exact balanced.logged.trans (stored.countEntries (by omega)).symm
      · simp only [EventStats.sendNew]
        unfold ull at *
        omega
    · have notSent : call.last ≠ .sent := by
        intro sent
        rw [sent, nodeSend, if_neg opened] at unsent
        exact absurd (congrArg Prod.fst unsent) (by dsimp only; omega)
      have stampsUnsent : call.Stamps stampedPkt :=
        isStamped.elim (· ▸ stamps) (· ▸ stamps.stampUuid)
      have storedUnsent : Stores { node with sock, state } slotLimit entries := stored
      rw [unsent]
      dsimp only
      rw [if_neg (by omega), if_pos nonpositive]
      exact add_conserved balanced storedUnsent few stampsUnsent
        (takes fun direct => notSent direct.2)

theorem nodeSendEventCounted_conserved {this : CountedNode} (conserved : this.Conserved total)
    (permitted : SendPermitted config this.node call) :
    (nodeSendEventCounted uuid config this call).2.Conserved (total + 1) := by
  obtain ⟨⟨entries, stored, few, sized⟩, complete, takes⟩ := permitted
  have isCount := stored.countEntries (by omega)
  have balanced : this.stats.Balanced entries.length total :=
    ⟨conserved.logged.trans isCount, by omega, conserved.neverWraps, conserved.sum⟩
  have small : ¬ maxPktSize < packetSize (stampEvent call.pkt) :=
    Int.not_lt.mpr call.sized.stampEvent.validPacket.2
  have stores : ¬ SendsNow this.node call →
      (this.add config (stampEvent call.pkt) call.store).2.Conserved (total + 1) := fun later =>
    add_conserved balanced stored few call.stamps_stampEvent (takes fun direct => later direct.1)
  unfold nodeSendEventCounted
  dsimp only
  rw [if_neg small]
  split_ifs with unconnected blocked
  · exact stores fun sends => unconnected.elim sends.1 (absurd sends.2.1)
  · exact stores fun sends => sends.2.2 blocked
  · obtain ⟨opened, connected⟩ := not_or.mp unconnected
    have sends : SendsNow this.node call := ⟨opened, not_not.mp connected, blocked⟩
    obtain ⟨after, emptied, storedAfter, stillOpen, places⟩ :=
      emptied_sends opened stored (by omega) sized (complete sends)
    have later := balanced.sendLogged_iterate (min_le_right call.backlog.length entries.length)
    rw [show entries.length - min call.backlog.length entries.length =
      (entries.drop call.backlog.length).length by rw [length_drop]; omega] at later
    rw [emptied]
    refine nodeSendNew_conserved later storedAfter (by rw [length_drop]; omega) stillOpen ?_
    intro indirect
    refine places _ _ (takes fun direct => indirect ⟨?_, direct.2.2⟩)
    have enough := direct.2.1
    rw [stored.numEntries (by omega)] at enough
    exact drop_of_length_le enough

theorem nodeReadSaved_keeps (answers : RestoreAnswers) (nothing : NothingSaved config node) :
    ∃ after, nodeReadSaved config answers node = some after ∧
      after.countEntries = node.countEntries := by
  unfold nodeReadSaved
  split_ifs with forgets
  · exact ⟨node, rfl, rfl⟩
  · have unsaved := nothing.resolve_left forgets
    rcases createAnswered_cases config answers.access node.binlog node.disk with
      ⟨uncreated, absent⟩ | ⟨state, created, sameCount, metadata, save⟩
    · rw [uncreated]
      refine ⟨_, rfl, ?_⟩
      rw [SendNode.countEntries, SendNode.countEntries, SendNode.numEntries, SendNode.numEntries,
        absent]
    · have noSaved : ∃ disk, binlogGetSaved state.disk = (none, disk) := by
        unfold binlogGetSaved
        rw [metadata, save]
        rcases unsaved with unsaved | unsaved
        · rw [unsaved]
          exact ⟨_, rfl⟩
        · rw [unsaved]
          cases node.disk.metadata with
          | none => exact ⟨_, rfl⟩
          | some dumped => exact ⟨_, rfl⟩
      obtain ⟨disk, got⟩ := noSaved
      simp only [created, got]
      exact ⟨_, rfl, congrArg uint sameCount⟩

end Calls

theorem statStep_conserved (uuid : Uuid) (config : BacklogConfig) (tracked : Tracked)
    (event : StatEvent) (conserved : tracked.Conserved)
    (permitted : StatPermitted config tracked event) :
    ∃ next, statStep uuid config tracked event = some next ∧ next.Conserved := by
  cases event with
  | restore answers =>
    obtain ⟨after, restored, same⟩ := nodeReadSaved_keeps answers permitted
    refine ⟨_, by rw [statStep, restored, Option.map_some], ?_⟩
    refine ⟨conserved.logged.trans same.symm, conserved.neverWraps, ?_⟩
    rw [same, Nat.sub_self]
    exact conserved.sum
  | call call =>
    cases call with
    | send call => exact ⟨_, rfl, nodeSendEventCounted_conserved conserved permitted⟩
    | link sock state =>
      exact ⟨_, rfl, conserved.logged, conserved.neverWraps, conserved.sum⟩

/-- The counters account for every event after each call of a run in which nothing
is restored, sends from the backlog complete, and the backlog has a place for each
packet that is not sent at once. -/
theorem nodeStats_conserved (uuid : Uuid) (config : BacklogConfig) (disk : Disk)
    (saved : Option RestoreAnswers) (calls : List NodeCall)
    (permitted : Run.Permits (statStep uuid config) (StatPermitted config) (.start disk)
      (statEvents saved calls)) :
    Run.Always (statStep uuid config) Tracked.Conserved (.start disk) (statEvents saved calls) :=
  Run.always_of_permits (statStep_conserved uuid config) ⟨rfl, rfl, rfl⟩ permitted

def sampleCall (second : Bool) (backlog : List SendOutcome) : SendCall where
  pkt := bodylessPacket (if second then 2 else 1)
  msec := 0
  writable := true
  backlog := backlog
  last := .sent
  unread := .fine
  first := .fine
  store := .fine
  sized := by cases second <;> decide +kernel
  storable := by cases second <;> decide +kernel

def reconnectCalls (outcome : SendOutcome) : List NodeCall :=
  [.send (sampleCall false []), .link 5 .connected, .send (sampleCall true [outcome])]

theorem holdsPackets_of_stored {uuid : Uuid} {config : BacklogConfig} {stats : EventStats}
    {node : SendNode} {call : SendCall} (closed : node.sock < 0) (absent : node.binlog = none)
    (takes : Takes config call.store.access node call.pkt)
    (booked :
      (nodeBinlogAddBooked config node (stampEvent call.pkt) call.store).2.1 = .stored) :
    HoldsPackets (nodeSendEventCounted uuid config ⟨node, stats⟩ call).2.node := by
  have stamps := call.stamps_stampEvent
  have small : ¬ maxPktSize < packetSize (stampEvent call.pkt) :=
    Int.not_lt.mpr stamps.sized.validPacket.2
  have empty : Stores node 0 [] := by rw [Stores, absent]
  have settled := nodeBinlogAddBooked_settled empty (Nat.zero_le _) stamps.sized stamps.storable
    (stamps.takes takes)
  unfold nodeSendEventCounted
  dsimp only
  rw [if_neg small, if_pos (.inl closed)]
  unfold CountedNode.add
  dsimp only
  rw [booked] at settled
  generalize (nodeBinlogAddBooked config node (stampEvent call.pkt) call.store).2.2 = after at *
  cases settled with
  | stored stores =>
    refine ⟨_, stores.le (by decide), by simp, ?_⟩
    exact fun entry member => mem_singleton.mp member ▸ stamps.sized

theorem nodeStats_conserved_reconnected :
    Run.Always (statStep sampleUuid ⟨samplePath, 1, 1, false⟩) Tracked.Conserved (.start noFiles)
      (statEvents (some ⟨true, fun _ => .fine⟩) (reconnectCalls .sent)) := by
  have takes : Takes ⟨samplePath, 1, 1, false⟩ true (newNode noFiles) (sampleCall false []).pkt :=
    ⟨by decide, .inl (by decide +kernel)⟩
  have holds : HoldsPackets (nodeSendEventCounted sampleUuid ⟨samplePath, 1, 1, false⟩
      ⟨newNode noFiles, .zero⟩ (sampleCall false [])).2.node :=
    holdsPackets_of_stored (by decide) rfl takes (by decide +kernel)
  have count : (nodeSendEventCounted sampleUuid ⟨samplePath, 1, 1, false⟩
      ⟨newNode noFiles, .zero⟩ (sampleCall false [])).2.node.numEntries ≤ 1 := by
    decide +kernel
  apply nodeStats_conserved
  refine ⟨.inl rfl, ?_⟩
  rintro - ⟨⟩
  refine ⟨⟨⟨[], rfl, by simp, by simp⟩, by simp [sampleCall], fun _ => takes⟩, ?_⟩
  intro first stepped
  have isFirst : (nodeSendEventCounted sampleUuid ⟨samplePath, 1, 1, false⟩
      ⟨newNode noFiles, .zero⟩ (sampleCall false [])).2 = first.this := by
    have same := congrArg Tracked.this (Option.some.inj stepped)
    dsimp only at same
    exact same
  rw [isFirst] at holds count
  refine ⟨trivial, fun linked steppedLink => ?_⟩
  obtain rfl := Option.some.inj steppedLink
  refine ⟨⟨holds, by simp [sampleCall], ?_⟩, fun _ _ => trivial⟩
  have opened : ¬ (5 : Int) < 0 := by decide
  exact fun indirect => (indirect ⟨⟨opened, rfl, by decide⟩, count, rfl⟩).elim

theorem not_conserved_of_run {uuid : Uuid} {config : BacklogConfig} {tracked : Tracked}
    {events : List StatEvent} {stats : EventStats} {total : Nat}
    (ran : (Run.run (statStep uuid config) tracked events).map
      (fun tracked => (tracked.this.stats, tracked.total)) = some (stats, total))
    (differs : ull (stats.sent + stats.logged + stats.dropped) ≠ ull total) :
    ¬ Run.Always (statStep uuid config) Tracked.Conserved tracked events := by
  intro always
  obtain ⟨state, reached, conserved⟩ := always _ (prefix_refl _)
  rw [reached, Option.map_some, Option.some_inj] at ran
  obtain ⟨isStats, isTotal⟩ := Prod.mk.inj ran
  have sum := conserved.sum
  rw [isStats, isTotal] at sum
  exact differs sum

theorem nodeStats_not_conserved :
    ¬ Run.Always (statStep sampleUuid ⟨samplePath, 0, 0, false⟩) Tracked.Conserved
        (.start noFiles) (statEvents none [.send (sampleCall false [])]) ∧
      ¬ Run.Always (statStep sampleUuid ⟨samplePath, 1, 1, false⟩) Tracked.Conserved
        (.start noFiles) (statEvents none (reconnectCalls .failed)) := by
  have refused : (Run.run (statStep sampleUuid ⟨samplePath, 0, 0, false⟩) (.start noFiles)
      (statEvents none [.send (sampleCall false [])])).map
        (fun tracked => (tracked.this.stats, tracked.total)) = some (.zero, 1) := by
    decide +kernel
  have twice : (Run.run (statStep sampleUuid ⟨samplePath, 1, 1, false⟩) (.start noFiles)
      (statEvents none (reconnectCalls .failed))).map
        (fun tracked => (tracked.this.stats, tracked.total)) = some (⟨0, 3, 0, false⟩, 2) := by
    decide +kernel
  exact ⟨not_conserved_of_run refused (by decide), not_conserved_of_run twice (by decide)⟩

end MonitorMerlin
