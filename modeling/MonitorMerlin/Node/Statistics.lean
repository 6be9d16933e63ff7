import Mathlib.Logic.Function.Iterate
import MonitorMerlin.Node.Delivery

/-! # Statistics of a node -/

namespace MonitorMerlin

open ByteImage

structure AddAnswer where
  access : Bool
  ready : Bool
  header : WriteOutcome
  body : WriteOutcome
  deriving DecidableEq, Repr

def AddAnswer.fine : AddAnswer := ⟨true, true, .full, .full⟩

/-- `binlog_add`. -/
def binlogAddAnswered (state : BinlogState) (buf : Bytes) (answer : AddAnswer) :
    Int × BinlogState :=
  if state.bl.isValid = false then
    (binlogEinvalid, state)
  else if KeepsInMemory state.bl buf then
    if answer.ready then
      (0, { state with bl := binlogMemAdd state.bl buf })
    else
      (binlogEdropped, state)
  else if answer.ready = false ∧ state.bl.fd = none ∧ FileHasRoom state.bl buf then
    (-1, state)
  else
    binlogFileAdd state buf answer.header answer.body

/-- `binlog_unread`. -/
def binlogUnreadAnswered (state : BinlogState) (buf : Bytes) (answer : AddAnswer) :
    Int × BinlogState :=
  if buf.length ≠ 0 ∧ binlogNumEntries state.bl = 0 then
    binlogAddAnswered state buf answer
  else if buf.length = 0 ∨ answer.ready then
    binlogUnread state buf
  else if (buf.length : Int) ≤ state.bl.fileReadPos then
    (binlogEdropped, { state with bl := binlogFileUnread state.bl buf.length })
  else
    (binlogEdropped, state)

/-- `node_create_binlog`. -/
def createAnswered (config : BacklogConfig) (access : Bool) (binlog : Option Binlog) (disk : Disk) :
    Int × Option Binlog × Disk :=
  if binlog.isNone ∧ access = false then
    (-1, none, disk)
  else
    nodeCreateBinlog config binlog disk

def ull (value : Nat) : Nat := value % 2 ^ 64

inductive Booking where
  | refused
  | dropped
  | stored
  deriving DecidableEq, Repr

/-- The counters of events. -/
structure EventStats where
  sent : Nat
  logged : Nat
  dropped : Nat
  wrapped : Bool
  deriving DecidableEq, Repr

namespace EventStats

def zero : EventStats := ⟨0, 0, 0, false⟩

def book (stats : EventStats) : Booking → EventStats
  | .refused => stats
  | .dropped => { stats with dropped := ull (stats.dropped + (stats.logged + 1)), logged := 0 }
  | .stored => { stats with logged := ull (stats.logged + 1) }

def sendLogged (stats : EventStats) : EventStats :=
  { stats with
    sent := ull (stats.sent + 1)
    logged := ull (stats.logged + (2 ^ 64 - 1))
    wrapped := stats.wrapped || decide (stats.logged = 0) }

def sendNew (stats : EventStats) : EventStats := { stats with sent := ull (stats.sent + 1) }

def lose (stats : EventStats) : EventStats :=
  { stats with dropped := ull (stats.dropped + (stats.logged + 1)) }

end EventStats

structure CountedNode where
  node : SendNode
  stats : EventStats
  deriving DecidableEq, Repr

def storeBooked (node : SendNode) (state : BinlogState) (pkt : Bytes) (answer : AddAnswer) :
    Int × Booking × SendNode :=
  let added := binlogAddAnswered state (pkt.take (packetSize pkt).toNat) answer
  if added.1 = binlogEnospc then
    (0, .refused, node.withBinlog (binlogFullWarning added.2).2)
  else if added.1 < 0 then
    (added.1, .dropped, node.withBinlog (binlogWipe added.2 true))
  else
    (added.1, .stored, node.withBinlog added.2)

/-- `node_binlog_add` without the counters. -/
def nodeBinlogAddBooked (config : BacklogConfig) (node : SendNode) (pkt : Bytes)
    (answer : AddAnswer) : Int × Booking × SendNode :=
  if hdrType pkt = ctrlPacket ∧ (hdrCode pkt = ctrlActive ∨ hdrCode pkt = ctrlInactive) then
    (0, .refused, node)
  else
    match createAnswered config answer.access node.binlog node.disk with
    | (0, some bl, disk) => storeBooked node ⟨bl, disk⟩ pkt answer
    | (_, binlog, disk) => (-1, .refused, { node with binlog := binlog, disk := disk })

/-- `node_binlog_add`. -/
def CountedNode.add (config : BacklogConfig) (this : CountedNode) (pkt : Bytes)
    (answer : AddAnswer) : Int × CountedNode :=
  let added := nodeBinlogAddBooked config this.node pkt answer
  (added.1, ⟨added.2.2, this.stats.book added.2.1⟩)

inductive BacklogEnd where
  | stopped (node : SendNode)
  | unread (node : SendNode)
  | lost (node : SendNode)
  deriving DecidableEq, Repr

/-- `node_send_binlog` after a failed send. -/
def putBack (node : SendNode) (bl : Binlog) (result : Int) (entry : Bytes) (answer : AddAnswer) :
    BacklogEnd :=
  let state : BinlogState := ⟨bl, node.disk⟩
  let kept :=
    if result = binlogEmpty ∨ binlogNumEntries bl = 0 then binlogWipe state true else state
  if result ≤ 0 then
    let unread := binlogUnreadAnswered kept entry answer
    if unread.1 = 0 then .unread (node.withBinlog unread.2) else .lost (node.wipe unread.2)
  else
    .lost (node.wipe kept)

def emptyBacklog (uuid : Uuid) (answer : AddAnswer) :
    SendNode → List SendOutcome → Nat × BacklogEnd
  | node, [] => (0, .stopped node)
  | node, outcome :: rest =>
    if node.sock < 0 then
      (0, .stopped node)
    else
      match node.binlog with
      | none => (0, .stopped node)
      | some bl =>
        match binlogRead ⟨bl, node.disk⟩ with
        | (.error _, after) => (0, .stopped (node.withBinlog after))
        | (.ok entry, after) =>
          if AcceptsEntry entry then
            let sent := nodeSend uuid (node.withBinlog after) entry outcome
            if sent.1 = packetSize entry then
              let later := emptyBacklog uuid answer sent.2.2 rest
              (later.1 + 1, later.2)
            else
              (0, putBack sent.2.2 after.bl sent.1 sent.2.1 answer)
          else
            (0, .stopped (node.wipe after))

structure SendCall where
  pkt : Bytes
  msec : Int
  writable : Bool
  backlog : List SendOutcome
  last : SendOutcome
  unread : AddAnswer
  first : AddAnswer
  store : AddAnswer
  sized : SizedPacket pkt
  storable : ¬ (hdrType pkt = ctrlPacket ∧ (hdrCode pkt = ctrlActive ∨ hdrCode pkt = ctrlInactive))

def SendCall.emptied (uuid : Uuid) (call : SendCall) (node : SendNode) : Nat × BacklogEnd :=
  if node.numEntries ≠ 0 then
    emptyBacklog uuid call.unread node call.backlog
  else
    (0, .stopped node)

/-- `node_send_binlog`. -/
def nodeSendBinlogCounted (config : BacklogConfig) (call : SendCall) (stats : EventStats)
    (emptied : Nat × BacklogEnd) : CountedNode :=
  let stats := EventStats.sendLogged^[emptied.1] stats
  match emptied.2 with
  | .stopped node => ⟨node, stats⟩
  | .unread node => (CountedNode.add config ⟨node, stats⟩ (stampEvent call.pkt) call.first).2
  | .lost node => ⟨node, stats.lose⟩

def nodeSendLastCounted (uuid : Uuid) (config : BacklogConfig) (this : CountedNode) (pkt : Bytes)
    (last : SendOutcome) (answer : AddAnswer) : Int × CountedNode :=
  let sent := nodeSend uuid this.node pkt last
  if sent.1 = packetSize pkt then
    (0, ⟨sent.2.2, this.stats.sendNew⟩)
  else if sent.1 ≤ 0 then
    let stored := CountedNode.add config ⟨sent.2.2, this.stats⟩ sent.2.1 answer
    (if stored.1 = 0 then 0 else -1, stored.2)
  else
    (-1, ⟨sent.2.2, this.stats⟩)

/-- `node_send_event` for the packet itself. -/
def nodeSendNew (uuid : Uuid) (config : BacklogConfig) (call : SendCall) (this : CountedNode) :
    Int × CountedNode :=
  let pkt := stampEvent call.pkt
  if this.node.numEntries ≠ 0 then
    this.add config pkt call.store
  else
    nodeSendLastCounted uuid config this pkt call.last call.store

/-- `node_send_event`. -/
def nodeSendEventCounted (uuid : Uuid) (config : BacklogConfig) (this : CountedNode)
    (call : SendCall) : Int × CountedNode :=
  let pkt := stampEvent call.pkt
  if maxPktSize < packetSize pkt then
    (-1, this)
  else if this.node.sock < 0 ∨ this.node.state ≠ .connected then
    this.add config pkt call.store
  else if 0 ≤ call.msec ∧ call.writable = false then
    this.add config pkt call.store
  else
    nodeSendNew uuid config call
      (nodeSendBinlogCounted config call this.stats (call.emptied uuid this.node))

def readSavedAnswered (answers : Nat → AddAnswer) :
    (fuel : Nat) → (saved bl : Binlog) → Disk → Option (Bool × Binlog × Binlog × Disk)
  | 0, _, _, _ => none
  | fuel + 1, saved, bl, disk =>
    match binlogRead ⟨saved, disk⟩ with
    | (.error _, after) => some (true, after.bl, bl, after.disk)
    | (.ok pkt, after) =>
      if AcceptsEntry pkt then
        let added := (binlogAddAnswered ⟨bl, after.disk⟩ pkt (answers fuel)).2
        readSavedAnswered answers fuel after.bl added.bl added.disk
      else
        some (false, after.bl, bl, after.disk)

def savedTurns (saved : BinlogState) : Nat :=
  (saved.bl.writeIndex - saved.bl.readIndex) +
    (((saved.disk.get .save).getD []).length - saved.bl.fileReadPos.toNat) + 1

structure RestoreAnswers where
  access : Bool
  adds : Nat → AddAnswer

/-- `node_binlog_read_saved`. -/
def nodeReadSaved (config : BacklogConfig) (answers : RestoreAnswers) (node : SendNode) :
    Option SendNode :=
  if config.persist = false then
    some node
  else
    match createAnswered config answers.access node.binlog node.disk with
    | (0, some bl, disk) =>
      match binlogGetSaved disk with
      | (none, disk) => some { node with binlog := some bl, disk := disk }
      | (some saved, _) =>
        match readSavedAnswered answers.adds (savedTurns saved) saved.bl bl saved.disk with
        | some (true, saved, bl, disk) =>
          some
            { node with
              binlog := some bl
              disk := (binlogWipe ⟨saved, disk⟩ true).disk }
        | _ => none
    | (_, binlog, disk) => some { node with binlog := binlog, disk := disk }

theorem createAnswered_cases (config : BacklogConfig) (access : Bool) (binlog : Option Binlog)
    (disk : Disk) :
    (createAnswered config access binlog disk = (-1, none, disk) ∧ binlog = none) ∨
      ∃ state : BinlogState,
        createAnswered config access binlog disk = (0, some state.bl, state.disk) ∧
          binlogNumEntries state.bl = binlog.elim 0 binlogNumEntries ∧
          state.disk.metadata = disk.metadata ∧ state.disk.save = disk.save := by
  cases binlog with
  | some bl => exact .inr ⟨⟨bl, disk⟩, rfl, rfl, rfl, rfl⟩
  | none =>
    unfold createAnswered
    rw [nodeCreateBinlog_none]
    split_ifs
    · exact .inl ⟨rfl, rfl⟩
    · exact .inl ⟨rfl, rfl⟩
    · refine .inr ⟨⟨config.fresh, _⟩, rfl, rfl, disk.metadata_unlink _, ?_⟩
      -- the file that is unlinked is the new one, not the one that was saved
      change (disk.unlink (if _ then some .log else none)).save = _
      split <;> rfl

end MonitorMerlin
