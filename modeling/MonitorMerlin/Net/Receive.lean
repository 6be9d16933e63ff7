import MonitorMerlin.Codec.Basic
import MonitorMerlin.Node.Compat
import MonitorMerlin.Node.State

/-! # Receiving from a node -/

namespace MonitorMerlin

open ByteImage MachineInt

/-- What libsodium computes. -/
structure Sodium where
  initOk : Bool
  boxOpen : (key nonce authtag body : Bytes) → Option Bytes
  length_boxOpen : ∀ {key nonce authtag body plain : Bytes},
    boxOpen key nonce authtag body = some plain → plain.length = body.length

def hdrAuthtag (pkt : Bytes) : Bytes := slice pkt 36 16
def hdrNonce (pkt : Bytes) : Bytes := slice pkt 52 24
def pktBody (pkt : Bytes) : Bytes := slice pkt hdrSize (hdrLen pkt)

/-- `decrypt_pkt`. -/
def decryptPkt (sodium : Sodium) (key pkt : Bytes) : Option Bytes :=
  if sodium.initOk then
    (sodium.boxOpen key (hdrNonce pkt) (hdrAuthtag pkt) (pktBody pkt)).map fun body =>
      patch pkt hdrSize body
  else
    none

structure NodeConfig where
  encrypted : Bool
  sharedkey : Bytes
  uuid : Bytes
  acceptRuncmd : Bool
  expected : Expected
  deriving DecidableEq, Repr

structure RecvNode where
  sock : Int
  state : NodeState
  info : Bytes
  incompatibleClusterConfig : Bool
  bq : Bytes
  deriving DecidableEq, Repr

/-- `node_disconnect`. -/
def RecvNode.disconnect (node : RecvNode) : RecvNode :=
  { node with sock := -1, state := .none, info := List.replicate nodeinfoSize 0, bq := [] }

/-- `node_set_state`. -/
def nodeSetState (node : RecvNode) (next : NodeState) (sent : Bool) : RecvNode :=
  if node.state = next then
    node
  else if node.state.allows next = false then
    node.disconnect
  else if next = .negotiating ∧ sent = false then
    node.disconnect
  else
    { node with state := next }

def frameSize (queue : Bytes) : Nat := (hdrSize + hdrLen queue) % 2 ^ 32

inductive GetEvent where
  | nothing
  | outOfBounds (raw : Bytes)
  | event (raw pkt : Bytes)
  deriving DecidableEq, Repr

def openPacket (sodium : Sodium) (config : NodeConfig) (node : RecvNode) (raw : Bytes) :
    GetEvent × RecvNode :=
  if config.encrypted then
    match decryptPkt sodium config.sharedkey raw with
    | some pkt => (.event raw pkt, node)
    | none => (.event raw raw, node.disconnect)
  else
    (.event raw raw, node)

/-- `node_get_event`. -/
def nodeGetEvent (sodium : Sodium) (config : NodeConfig) (node : RecvNode) : GetEvent × RecvNode :=
  if node.bq.length < hdrSize then
    (.nothing, node)
  else if node.bq.length < frameSize node.bq then
    (.nothing, node)
  else if slice node.bq 0 8 ≠ merlinSignature then
    (.nothing, node.disconnect)
  else if frameSize node.bq < hdrSize then
    (.outOfBounds (node.bq.take (frameSize node.bq)),
      { node with bq := node.bq.drop (frameSize node.bq) })
  else
    openPacket sodium config { node with bq := node.bq.drop (frameSize node.bq) }
      (node.bq.take (frameSize node.bq))

def nebcallbackProcessData : Nat := 0
def nebcallbackNotificationData : Nat := 5
def nebcallbackServiceCheckData : Nat := 6
def nebcallbackHostCheckData : Nat := 7
def nebcallbackCommentData : Nat := 8
def nebcallbackDowntimeData : Nat := 9
def nebcallbackFlappingData : Nat := 10
def nebcallbackProgramStatusData : Nat := 11
def nebcallbackHostStatusData : Nat := 12
def nebcallbackServiceStatusData : Nat := 13
def nebcallbackExternalCommandData : Nat := 17
def nebcallbackContactNotificationData : Nat := 20
def nebcallbackContactNotificationMethodData : Nat := 21

inductive Handler where
  | hostResult
  | serviceResult
  | notificationData
  | externalCommand
  | commentData
  | downtimeData
  | flappingData
  deriving DecidableEq, Repr

/-- What `handle_event` does. -/
inductive Effect where
  | outOfBounds
  | csyncNodeActive (delta : Int)
  | infoAccepted
  | updateClusterConfig
  | csyncFetch
  | runCommand (body : Bytes)
  | runcmdCallback (body : Bytes)
  | toMasters
  | toPollers
  | toDaemon
  | handler (which : Handler) (body : Bytes)
  deriving DecidableEq, Repr

structure ReceiveEnv where
  sodium : Sodium
  layout : Layout
  base : Nat
  config : NodeConfig
  build : BuildInfo
  ipcInfo : Bytes
  clusterUpdate : Bool
  numMasters : Nat
  numPollers : Nat

def ctrlInvalidCluster : Nat := 8
def ctrlFetch : Nat := 9

/-- `CTRL_ACTIVE` in `handle_control`. -/
def handleActive (env : ReceiveEnv) (node : RecvNode) (pkt : Bytes) : RecvNode × List Effect :=
  let info := pktBody pkt
  if nodeCompatCmp env.build (hdrLen pkt) info ≠ 0 then
    (node.disconnect, [])
  else if nodeMconfCmp env.config.expected env.ipcInfo info ≠ 0 then
    ({ node with incompatibleClusterConfig := true }.disconnect, [])
  else
    let checked := { node with incompatibleClusterConfig := false }
    let delta := nodeOconfCmp env.config.expected env.ipcInfo info
    if delta ≠ 0 then
      (checked.disconnect, [.csyncNodeActive delta])
    else
      let informed := { checked with info := info.take nodeinfoSize }
      if node.state ≠ .connected then
        (nodeSetState informed .connected true, [.infoAccepted])
      else
        (informed, [.infoAccepted])

/-- `handle_control`. -/
def handleControl (env : ReceiveEnv) (node : RecvNode) (pkt : Bytes) : RecvNode × List Effect :=
  if hdrCode pkt = ctrlInactive then
    (node.disconnect, [])
  else if hdrCode pkt = ctrlActive then
    handleActive env node pkt
  else if hdrCode pkt = ctrlInvalidCluster then
    (node, if env.clusterUpdate then [.updateClusterConfig] else [])
  else if hdrCode pkt = ctrlFetch then
    (node, [.csyncFetch])
  else
    (node, [])

/-- `RUNCMD_CMD` and `RUNCMD_RESP`. -/
def runcmdCmd : Nat := 20
def runcmdResp : Nat := 21

/-- `handle_runcmd_event`. -/
def handleRuncmdEvent (config : NodeConfig) (code : Nat) (body : Bytes) : List Effect :=
  if code = runcmdCmd then
    if config.encrypted = false then
      []
    else if config.expected.nodeType ≠ .peer ∧ config.expected.nodeType ≠ .master then
      []
    else if config.acceptRuncmd = false then
      []
    else
      [.runCommand body]
  else if code = runcmdResp then
    [.runcmdCallback body]
  else
    []

/-- `daemon_wants`. -/
def daemonWants (type : Nat) : Bool :=
  type ∉ [nebcallbackNotificationData, nebcallbackContactNotificationData,
    nebcallbackExternalCommandData, nebcallbackProgramStatusData, nebcallbackCommentData]

def handlerFor (type : Nat) : Option Handler :=
  if type = nebcallbackHostCheckData ∨ type = nebcallbackHostStatusData then
    some .hostResult
  else if type = nebcallbackServiceCheckData ∨ type = nebcallbackServiceStatusData then
    some .serviceResult
  else if type = nebcallbackNotificationData then
    some .notificationData
  else if type = nebcallbackExternalCommandData then
    some .externalCommand
  else if type = nebcallbackCommentData then
    some .commentData
  else if type = nebcallbackDowntimeData then
    some .downtimeData
  else if type = nebcallbackFlappingData then
    some .flappingData
  else
    none

/-- `handle_event` behind `merlin_decode_event`. -/
def withDecoded (env : ReceiveEnv) (pkt : Bytes) (handle : Bytes → List Effect) : List Effect :=
  match merlinDecode env.layout (some (pktBody pkt)) env.base (hdrLen pkt) (hdrType pkt : Int) with
  | none => [.outOfBounds]
  | some (ret, body) => if ret = 0 then handle body else []

def passedOn (env : ReceiveEnv) (type : Nat) : List Effect :=
  match env.config.expected.nodeType with
  | .poller => if env.numMasters ≠ 0 then [.toMasters] else []
  | .master =>
    if env.numPollers ≠ 0 ∧ type ≠ nebcallbackProgramStatusData ∧
        type ≠ nebcallbackContactNotificationMethodData then
      [.toPollers]
    else
      []
  | .peer => []

def markInfo (node : RecvNode) : RecvNode :=
  if infoByteOrder node.info = 0 then
    { node with info := patch node.info 8 (leBytes 4 (2 ^ 32 - 1)) }
  else
    node

/-- `handle_event` for a connected node. -/
def handleCallback (env : ReceiveEnv) (pkt : Bytes) : List Effect :=
  let type := hdrType pkt
  passedOn env type ++ (if daemonWants type then [.toDaemon] else []) ++
    if type = nebcallbackContactNotificationMethodData ∨
        type = nebcallbackProgramStatusData ∨ type = nebcallbackProcessData then
      []
    else
      withDecoded env pkt fun body =>
        (handlerFor type).elim [] fun which => [.handler which body]

/-- `handle_event`. -/
def handleEvent (env : ReceiveEnv) (node : RecvNode) (pkt : Bytes) : RecvNode × List Effect :=
  if hdrType pkt = ctrlPacket then
    handleControl env node pkt
  else if (hdrType pkt : Int) = runcmdPacket then
    (node, withDecoded env pkt fun body => handleRuncmdEvent env.config (hdrCode pkt) body)
  else if node.state ≠ .connected then
    (node, [])
  else
    (markInfo node, handleCallback env pkt)

structure Handed where
  raw : Bytes
  pkt : Bytes
  deriving DecidableEq, Repr

structure RecvState where
  node : RecvNode
  arrived : List Bytes
  handed : List Handed
  effects : List Effect
  deriving DecidableEq, Repr

def completePacket (queue : Bytes) : Option Bytes :=
  if hdrSize ≤ queue.length ∧ frameSize queue ≤ queue.length ∧
      slice queue 0 8 = merlinSignature then
    some (queue.take (frameSize queue))
  else
    none

def getRecorded (env : ReceiveEnv) (state : RecvState) : GetEvent × RecvState :=
  let got := nodeGetEvent env.sodium env.config state.node
  (got.1,
    { state with
      node := got.2
      arrived := state.arrived ++ (completePacket state.node.bq).toList })

def handleRecorded (env : ReceiveEnv) (state : RecvState) (raw pkt : Bytes) : RecvState :=
  let handled := handleEvent env state.node pkt
  { state with
    node := handled.1
    handed := state.handed ++ [⟨raw, pkt⟩]
    effects := state.effects ++ handled.2 }

def overrunRecorded (state : RecvState) (raw : Bytes) : RecvState :=
  { state with
    handed := state.handed ++ [⟨raw, raw⟩]
    effects := state.effects ++ [.outOfBounds] }

def netLoop (env : ReceiveEnv) : (fuel : Nat) → RecvState → RecvState
  | 0, state => state
  | fuel + 1, state =>
    match getRecorded env state with
    | (.nothing, after) => after
    | (.outOfBounds raw, after) => overrunRecorded after raw
    | (.event raw pkt, after) => netLoop env fuel (handleRecorded env after raw pkt)

inductive Recv where
  | data (bytes : Bytes)
  | wouldBlock
  | closed
  deriving DecidableEq, Repr

/-- `net_input`, with `node_recv`. -/
def netInput (env : ReceiveEnv) (state : RecvState) (recv : Recv) : RecvState :=
  if state.node.sock < 0 then
    state
  else
    match recv with
    | .closed => { state with node := state.node.disconnect }
    | .wouldBlock => netLoop env (state.node.bq.length + 1) state
    | .data bytes =>
      netLoop env (state.node.bq.length + bytes.length + 1)
        { state with node := { state.node with bq := state.node.bq ++ bytes } }

inductive Negotiation where
  | keepsOne
  | killsBoth
  deriving DecidableEq, Repr

/-- `node_accept`. -/
def nodeAccept (node : RecvNode) (sock : Int) (negotiation : Negotiation) (sent : Bool) :
    RecvNode :=
  let chosen :=
    if node.state = .none then
      { node.disconnect with sock := sock }
    else if 0 ≤ node.sock ∧ negotiation = .killsBoth then
      node.disconnect
    else
      node
  nodeSetState chosen .negotiating sent

/-- `find_node_uuid`. -/
def findNodeUuid
    (env : ReceiveEnv) (state : RecvState) (sock : Int) (chunk : Bytes)
    (negotiation : Negotiation) (sent : Bool) : RecvState :=
  if chunk.length < hdrSize ∨ env.config.uuid.length ≠ 36 ∨
      slice chunk 76 37 ≠ env.config.uuid ++ [0] then
    state
  else
    let queued := { state with node := { state.node with bq := chunk } }
    let (got, after) :=
      if frameSize chunk ≤ chunk.length then getRecorded env queued else (.nothing, queued)
    let accepted := { after with node := nodeAccept after.node sock negotiation sent }
    match got with
    | .nothing => accepted
    | .outOfBounds raw => overrunRecorded accepted raw
    | .event raw pkt => handleRecorded env accepted raw pkt

inductive RecvEvent where
  | input (recv : Recv)
  | accept (sock : Int) (chunk : Bytes) (negotiation : Negotiation) (sent : Bool)
  | link (sock : Int) (state : NodeState)
  | disconnect
  deriving DecidableEq, Repr

def recvStep (env : ReceiveEnv) (state : RecvState) : RecvEvent → RecvState
  | .input recv => netInput env state recv
  | .accept sock chunk negotiation sent => findNodeUuid env state sock chunk negotiation sent
  | .link sock next => { state with node := { state.node with sock := sock, state := next } }
  | .disconnect => { state with node := state.node.disconnect }

def recvRun (env : ReceiveEnv) (node : RecvNode) (events : List RecvEvent) : RecvState :=
  events.foldl (recvStep env) ⟨node, [], [], []⟩

end MonitorMerlin
