import MonitorMerlin.Node.Backlog
import MonitorMerlin.Node.State

/-! # Sending to a node -/

namespace MonitorMerlin

open ByteImage

structure SendNode where
  sock : Int
  state : NodeState
  binlog : Option Binlog
  disk : Disk
  wire : List Bytes
  deriving DecidableEq, Repr

inductive SendOutcome where
  | sent
  | wouldBlock
  | failed
  deriving DecidableEq, Repr

/-- `node_disconnect`. -/
def SendNode.disconnect (node : SendNode) : SendNode := { node with sock := -1, state := .none }

def SendNode.withBinlog (node : SendNode) (state : BinlogState) : SendNode :=
  { node with binlog := some state.bl, disk := state.disk }

/-- `node_send`. -/
def nodeSend (uuid : Uuid) (node : SendNode) (pkt : Bytes) (outcome : SendOutcome) :
    Int × Bytes × SendNode :=
  if node.sock < 0 then
    (0, pkt, node)
  else
    match outcome with
    | .sent =>
      (packetSize pkt, stampUuid uuid pkt,
        { node with wire := node.wire ++ [stampUuid uuid pkt] })
    | .wouldBlock => (0, stampUuid uuid pkt, node.disconnect)
    | .failed => (-1, stampUuid uuid pkt, node.disconnect)

/-- `binlog_has_entries`. -/
def SendNode.numEntries (node : SendNode) : Nat := node.binlog.elim 0 binlogNumEntries

/-- `node_binlog_add`, once there is a backlog. -/
def storePacket (node : SendNode) (state : BinlogState) (pkt : Bytes) : Int × SendNode :=
  let added := binlogAdd state (pkt.take (packetSize pkt).toNat)
  if added.1 = binlogEnospc then
    (0, node.withBinlog (binlogFullWarning added.2).2)
  else if added.1 < 0 then
    (added.1, node.withBinlog (binlogWipe added.2 true))
  else
    (added.1, node.withBinlog added.2)

/-- `node_binlog_add`. -/
def nodeBinlogAdd (config : BacklogConfig) (node : SendNode) (pkt : Bytes) : Int × SendNode :=
  if hdrType pkt = ctrlPacket ∧ (hdrCode pkt = ctrlActive ∨ hdrCode pkt = ctrlInactive) then
    (0, node)
  else
    match nodeCreateBinlog config node.binlog node.disk with
    | (0, some bl, disk) => storePacket node ⟨bl, disk⟩ pkt
    | (_, binlog, disk) => (-1, { node with binlog := binlog, disk := disk })

def SendNode.wipe (node : SendNode) (state : BinlogState) : SendNode :=
  node.withBinlog (binlogWipe state true)

/-- `node_send_binlog` after a failed send. -/
def nodeSendBinlogFailed
    (config : BacklogConfig) (node : SendNode) (bl : Binlog) (result : Int) (entry : Bytes)
    (pkt : Option Bytes) : Int × SendNode :=
  let state : BinlogState := ⟨bl, node.disk⟩
  let kept :=
    if result = binlogEmpty ∨ binlogNumEntries bl = 0 then binlogWipe state true else state
  if result ≤ 0 then
    let unread := binlogUnread kept entry
    if unread.1 = 0 then
      match pkt with
      | some new => nodeBinlogAdd config (node.withBinlog unread.2) new
      | none => (0, node.withBinlog unread.2)
    else
      (-1, node.wipe unread.2)
  else
    (-1, node.wipe kept)

/-- `node_send_binlog`. -/
def nodeSendBinlog
    (uuid : Uuid) (config : BacklogConfig) (pkt : Option Bytes) :
    SendNode → List SendOutcome → Int × SendNode
  | node, [] => (0, node)
  | node, outcome :: rest =>
    if node.sock < 0 then
      (0, node)
    else
      match node.binlog with
      | none => (0, node)
      | some bl =>
        match binlogRead ⟨bl, node.disk⟩ with
        | (.error _, after) => (0, node.withBinlog after)
        | (.ok entry, after) =>
          if AcceptsEntry entry then
            let sent := nodeSend uuid (node.withBinlog after) entry outcome
            if sent.1 = packetSize entry then
              nodeSendBinlog uuid config pkt sent.2.2 rest
            else
              nodeSendBinlogFailed config sent.2.2 after.bl sent.1 sent.2.1 pkt
          else
            (-1, node.wipe after)

/-- `node_send_event` without a backlog. -/
def nodeSendLast
    (uuid : Uuid) (config : BacklogConfig) (node : SendNode) (pkt : Bytes) (last : SendOutcome) :
    Int × SendNode :=
  let sent := nodeSend uuid node pkt last
  if sent.1 = packetSize pkt then
    (0, sent.2.2)
  else if sent.1 ≤ 0 then
    let stored := nodeBinlogAdd config sent.2.2 sent.2.1
    (if stored.1 = 0 then 0 else -1, stored.2)
  else
    (-1, sent.2.2)

/-- `node_send_event`. -/
def nodeSendEvent
    (uuid : Uuid) (config : BacklogConfig) (node : SendNode) (pkt : Bytes) (msec : Int)
    (writable : Bool) (backlog : List SendOutcome) (last : SendOutcome) : Int × SendNode :=
  let pkt := stampEvent pkt
  if maxPktSize < packetSize pkt then
    (-1, node)
  else if node.sock < 0 ∨ node.state ≠ .connected then
    nodeBinlogAdd config node pkt
  else if 0 ≤ msec ∧ writable = false then
    nodeBinlogAdd config node pkt
  else
    let emptied :=
      if node.numEntries ≠ 0 then (nodeSendBinlog uuid config (some pkt) node backlog).2
      else node
    if emptied.numEntries ≠ 0 then
      nodeBinlogAdd config emptied pkt
    else
      nodeSendLast uuid config emptied pkt last

inductive NodeEvent where
  | send (pkt : Bytes) (msec : Int) (writable : Bool) (backlog : List SendOutcome)
      (last : SendOutcome)
  | link (sock : Int) (state : NodeState)
  deriving DecidableEq, Repr

def nodeStep (uuid : Uuid) (config : BacklogConfig) (node : SendNode) : NodeEvent → SendNode
  | .send pkt msec writable backlog last =>
    (nodeSendEvent uuid config node pkt msec writable backlog last).2
  | .link sock state => { node with sock := sock, state := state }

def nodeRun (uuid : Uuid) (config : BacklogConfig) (node : SendNode) (events : List NodeEvent) :
    SendNode :=
  events.foldl (nodeStep uuid config) node

def submitted (events : List NodeEvent) : List Bytes :=
  events.filterMap fun event =>
    match event with
    | .send pkt _ _ _ _ => some pkt
    | .link _ _ => none

def newNode (disk : Disk) : SendNode := ⟨-1, .none, none, disk, []⟩

end MonitorMerlin
