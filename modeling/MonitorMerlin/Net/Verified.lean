import Mathlib.Logic.Function.Basic
import MonitorMerlin.Codec.Decode
import MonitorMerlin.Net.Accept

/-! # Connected nodes have been checked -/

namespace MonitorMerlin

open ByteImage MachineInt

universe u

structure IpcInfo where
  image : Bytes
  length_image : image.length = nodeinfoSize

inductive IpcField where
  | peerId
  | activePeers
  | activePollers
  | activeMasters
  | hostChecksHandled
  | serviceChecksHandled
  deriving DecidableEq, Repr

def IpcField.offset : IpcField → Nat
  | .peerId => 60
  | .activePeers => 64
  | .activePollers => 72
  | .activeMasters => 80
  | .hostChecksHandled => 88
  | .serviceChecksHandled => 92

theorem IpcField.fits (field : IpcField) {image data : Bytes}
    (size : image.length = nodeinfoSize) (fourBytes : data.length = 4) :
    field.offset + data.length ≤ image.length := by
  rw [size, fourBytes]
  cases field <;> decide

def IpcInfo.write (info : IpcInfo) (field : IpcField) (value : Nat) : IpcInfo where
  image := patch info.image field.offset (leBytes 4 value)
  length_image := by
    rw [length_patch (field.fits info.length_image (length_leBytes 4 value)), info.length_image]

/-- `endianness`. -/
def endianness : ByteOrder → Nat
  | .little => 1234
  | .big => 4321

structure NetSystem (ι : Type u) where
  sodium : Sodium
  layout : Layout
  base : Nat
  config : ι → NodeConfig
  order : ByteOrder
  wordSize : Nat
  objectStructureVersion : Nat
  clusterUpdate : Bool
  numMasters : Nat
  numPollers : Nat

structure NetState (ι : Type u) where
  nodes : ι → RecvNode
  connSock : ι → Int
  fds : Descriptors
  ipcInfo : IpcInfo

inductive ConnectResult where
  | done
  | inProgress
  | refused
  deriving DecidableEq, Repr

structure ConnectAttempt where
  allowed : Bool
  due : Bool
  socket : Int
  bindFails : Bool
  connect : ConnectResult
  registers : Bool
  deriving DecidableEq, Repr

inductive LinkEvent where
  | recv (answer : Recv)
  | event (beyond : Bytes)
  | accept (sock : Int) (names : SocketNames) (sent : Bool)
  | acceptUuid (sock : Int) (chunk beyond : Bytes) (names : SocketNames) (sent : Bool)
  | tryConnect (attempt : ConnectAttempt)
  | writable (sd : Int) (names : SocketNames) (connected sent : Bool)
  | inactive (expired : Bool)
  | disconnect

/-- What happens on the network. -/
inductive NetEvent (ι : Type u) where
  | link (node : ι) (event : LinkEvent)
  | ipcWrite (field : IpcField) (value : Nat)

def NetSystem.build {ι : Type u} (system : NetSystem ι) : BuildInfo :=
  ⟨system.wordSize, endianness system.order, system.objectStructureVersion⟩

def NetSystem.env {ι : Type u} (system : NetSystem ι) (ipcInfo : IpcInfo) (node : ι) :
    ReceiveEnv where
  sodium := system.sodium
  layout := system.layout
  base := system.base
  config := system.config node
  build := system.build
  ipcInfo := ipcInfo.image
  clusterUpdate := system.clusterUpdate
  numMasters := system.numMasters
  numPollers := system.numPollers

namespace SocketNode

def setNode (this : SocketNode) (node : RecvNode) : SocketNode :=
  { this with
    node := node
    fds := if node.sock = this.node.sock then this.fds else this.fds.iobrokerClose this.node.sock }

/-- `node_set_state` to `STATE_PENDING`. -/
def setPending (this : SocketNode) : SocketNode :=
  this.setNode (nodeSetState this.node .pending true)

def opened (this : SocketNode) (sock : Int) : SocketNode :=
  if 0 ≤ sock then
    { this with fds := { this.fds with opened := insert sock this.fds.opened } }
  else
    this

def dropConnSock (this : SocketNode) : SocketNode :=
  { this with connSock := -1, fds := this.fds.close this.connSock }

end SocketNode

/-- `node_recv`. -/
def nodeRecv (node : RecvNode) : Recv → RecvNode
  | .data bytes => { node with bq := node.bq ++ bytes }
  | .wouldBlock => node
  | .closed => node.disconnect

/-- `handle_event`, if there is an event. -/
def handleGot (env : ReceiveEnv) (node : RecvNode) (beyond : Bytes) : GetEvent → RecvNode
  | .nothing => node
  | .outOfBounds raw => (handleEvent env node (raw ++ beyond)).1
  | .event _ pkt => (handleEvent env node pkt).1

def inputTurn (env : ReceiveEnv) (node : RecvNode) (beyond : Bytes) : RecvNode :=
  let got := nodeGetEvent env.sodium env.config node
  handleGot env got.2 beyond got.1

/-- `net_accept_one`. -/
def netAcceptOne (order : ByteOrder) (this : SocketNode) (sock : Int) (names : SocketNames)
    (sent : Bool) : SocketNode :=
  if sock < 0 then this else nodeAcceptSocket order names (this.opened sock) sock sent

/-- `find_node_uuid`, for the node that is named. -/
def acceptUuid (order : ByteOrder) (env : ReceiveEnv) (this : SocketNode) (sock : Int)
    (chunk beyond : Bytes) (names : SocketNames) (sent : Bool) : SocketNode :=
  if chunk.length < hdrSize ∨ env.config.uuid.length ≠ 36 ∨
      slice chunk 76 37 ≠ env.config.uuid ++ [0] then
    this
  else
    let queued := { this.node with bq := chunk }
    let got :=
      if frameSize chunk ≤ chunk.length then
        nodeGetEvent env.sodium env.config queued
      else
        (.nothing, queued)
    let accepted := nodeAcceptSocket order names (this.setNode got.2) sock sent
    accepted.setNode (handleGot env accepted.node beyond got.1)

/-- `net_try_connect` leaves such a node alone. -/
def SocketNode.Busy (this : SocketNode) : Prop :=
  this.node.state = .connected ∨ this.node.state = .pending ∨
    (this.node.state = .negotiating ∧ 0 ≤ this.connSock)

instance (this : SocketNode) : Decidable this.Busy := inferInstanceAs (Decidable (_ ∨ _))

def registerOut (this : SocketNode) (registers : Bool) : SocketNode :=
  if registers then this else this.disconnect.dropConnSock

/-- `net_try_connect` with a socket. -/
def connectSocket (this : SocketNode) (attempt : ConnectAttempt) : SocketNode :=
  if attempt.bindFails then
    this.dropConnSock
  else
    match attempt.connect with
    | .done => registerOut this attempt.registers
    | .inProgress => registerOut this.setPending attempt.registers
    | .refused => this.dropConnSock.disconnect

/-- `net_try_connect`. -/
def netTryConnect (this : SocketNode) (attempt : ConnectAttempt) : SocketNode :=
  if attempt.allowed = false ∨ this.Busy ∨ attempt.due = false then
    this
  else if 0 ≤ this.connSock then
    connectSocket this attempt
  else
    let reset := { this.disconnect.opened attempt.socket with connSock := attempt.socket }
    if attempt.socket < 0 then reset else connectSocket reset attempt

/-- `disconnect_inactive`. -/
def disconnectInactive (this : SocketNode) (expired : Bool) : SocketNode :=
  if this.node.sock = -1 ∨ this.node.state ≠ .connected then
    this
  else if expired then
    this.disconnect
  else
    this

def linkStep (order : ByteOrder) (env : ReceiveEnv) (this : SocketNode) :
    LinkEvent → SocketNode
  | .recv answer => this.setNode (nodeRecv this.node answer)
  | .event beyond => this.setNode (inputTurn env this.node beyond)
  | .accept sock names sent => netAcceptOne order this sock names sent
  | .acceptUuid sock chunk beyond names sent =>
    acceptUuid order env (this.opened sock) sock chunk beyond names sent
  | .tryConnect attempt => netTryConnect this attempt
  | .writable sd names connected sent => connWritable order names this sd connected sent
  | .inactive expired => disconnectInactive this expired
  | .disconnect => this.disconnect

section Runs

variable {ι : Type u}

def NetState.socketNode (state : NetState ι) (node : ι) : SocketNode :=
  ⟨state.nodes node, state.connSock node, state.fds⟩

def NetState.start (fds : Descriptors) (ipcInfo : IpcInfo) : NetState ι where
  nodes _ := ⟨-1, .none, List.replicate nodeinfoSize 0, false, []⟩
  connSock _ := -1
  fds := fds
  ipcInfo := ipcInfo

variable [DecidableEq ι]

def netStep (system : NetSystem ι) (state : NetState ι) : NetEvent ι → NetState ι
  | .link node event =>
    let after := linkStep system.order (system.env state.ipcInfo node) (state.socketNode node) event
    { state with
      nodes := Function.update state.nodes node after.node
      connSock := Function.update state.connSock node after.connSock
      fds := after.fds }
  | .ipcWrite field value => { state with ipcInfo := state.ipcInfo.write field value }

def netRun (system : NetSystem ι) (state : NetState ι) (events : List (NetEvent ι)) : NetState ι :=
  events.foldl (netStep system) state

end Runs

/-- `MERLIN_NODEINFO_VERSION`. -/
def nodeinfoVersion : Nat := 1

structure InfoVerified (build : BuildInfo) (expected : Expected) (ipc info : Bytes) : Prop where
  version : nodeinfoVersion ≤ infoVersion info
  wordSize : infoWordSize info = build.wordSize
  byteOrder : infoByteOrder info = build.byteOrder
  objectStructureVersion : infoObjectStructureVersion info = build.objectStructureVersion
  mconf : nodeMconfCmp expected ipc info = 0
  oconf : nodeOconfCmp expected ipc info = 0

theorem version_le_of_nonneg {version : Nat}
    (notBelow : ¬ toInt (version + (2 ^ 32 - 1)) < 0) : nodeinfoVersion ≤ version := by
  rw [nodeinfoVersion, Nat.one_le_iff_ne_zero]
  intro isZero
  rw [isZero] at notBelow
  exact notBelow (by decide)

variable {expected : Expected} {build : BuildInfo} {ipc info : Bytes}

theorem InfoVerified.of_checks {len : Nat} (compat : nodeCompatCmp build len info = 0)
    (mconf : nodeMconfCmp expected ipc info = 0) (oconf : nodeOconfCmp expected ipc info = 0) :
    InfoVerified build expected ipc info := by
  unfold nodeCompatCmp at compat
  split_ifs at compat with tooShort below words bytes objects
  · cases compat
  · cases compat
  · cases compat
  · cases compat
  · cases compat
  · exact ⟨version_le_of_nonneg below, not_not.mp words, not_not.mp bytes, not_not.mp objects,
      mconf, oconf⟩

theorem InfoVerified.take (verified : InfoVerified build expected ipc info) :
    InfoVerified build expected ipc (info.take nodeinfoSize) := by
  have same {offset count : Nat} (within : offset + count ≤ nodeinfoSize) :
      slice (info.take nodeinfoSize) offset count = slice info offset count := by
    apply slice_congr
    intro index _ inside
    rw [List.getElem?_take_of_lt (lt_of_lt_of_le inside within)]
  constructor
  · rw [infoVersion, same (by decide)]
    exact verified.version
  · rw [infoWordSize, same (by decide)]
    exact verified.wordSize
  · rw [infoByteOrder, same (by decide)]
    exact verified.byteOrder
  · rw [infoObjectStructureVersion, same (by decide)]
    exact verified.objectStructureVersion
  · rw [← verified.mconf]
    have peers : infoConfiguredPeers (info.take nodeinfoSize) = infoConfiguredPeers info :=
      congrArg leValue (same (by decide))
    have masters : infoConfiguredMasters (info.take nodeinfoSize) = infoConfiguredMasters info :=
      congrArg leValue (same (by decide))
    have pollers : infoConfiguredPollers (info.take nodeinfoSize) = infoConfiguredPollers info :=
      congrArg leValue (same (by decide))
    simp only [nodeMconfCmp, peers, masters, pollers]
  · rw [← verified.oconf]
    have change : infoLastCfgChange (info.take nodeinfoSize) = infoLastCfgChange info :=
      congrArg (fun bytes => toInt64 (leValue bytes)) (same (by decide))
    have hash : infoConfigHash (info.take nodeinfoSize) = infoConfigHash info := same (by decide)
    have sec : infoStartSec (info.take nodeinfoSize) = infoStartSec info :=
      congrArg (fun bytes => toInt64 (leValue bytes)) (same (by decide))
    have usec : infoStartUsec (info.take nodeinfoSize) = infoStartUsec info :=
      congrArg (fun bytes => toInt64 (leValue bytes)) (same (by decide))
    simp only [nodeOconfCmp, change, hash, sec, usec]

theorem InfoVerified.write {ipc : IpcInfo} {info : Bytes}
    (verified : InfoVerified build expected ipc.image info) (field : IpcField) (value : Nat) :
    InfoVerified build expected (ipc.write field value).image info := by
  have fits := field.fits ipc.length_image (length_leBytes 4 value)
  have same {offset count : Nat}
      (apart : offset + count ≤ field.offset ∨ field.offset + 4 ≤ offset) :
      slice (ipc.write field value).image offset count = slice ipc.image offset count := by
    rcases apart with before | after
    · exact slice_patch_before (le_trans (Nat.le_add_right _ _) fits) before
    · apply slice_patch_after fits
      rw [length_leBytes]
      exact after
  refine { verified with mconf := ?_, oconf := ?_ }
  · have peers : infoConfiguredPeers (ipc.write field value).image =
        infoConfiguredPeers ipc.image :=
      congrArg leValue (same (by cases field <;> decide))
    have masters : infoConfiguredMasters (ipc.write field value).image =
        infoConfiguredMasters ipc.image :=
      congrArg leValue (same (by cases field <;> decide))
    have pollers : infoConfiguredPollers (ipc.write field value).image =
        infoConfiguredPollers ipc.image :=
      congrArg leValue (same (by cases field <;> decide))
    rw [← verified.mconf]
    simp only [nodeMconfCmp, peers, masters, pollers]
  · have sec : infoStartSec (ipc.write field value).image = infoStartSec ipc.image :=
      congrArg (fun bytes => toInt64 (leValue bytes)) (same (by cases field <;> decide))
    have usec : infoStartUsec (ipc.write field value).image = infoStartUsec ipc.image :=
      congrArg (fun bytes => toInt64 (leValue bytes)) (same (by cases field <;> decide))
    rw [← verified.oconf]
    simp only [nodeOconfCmp, sec, usec]

def InfoChecked (env : ReceiveEnv) (node : RecvNode) : Prop :=
  node.state = .connected → InfoVerified env.build env.config.expected env.ipcInfo node.info

namespace InfoChecked

variable {env : ReceiveEnv} {node : RecvNode}

theorem of_unconnected (unconnected : node.state ≠ .connected) : InfoChecked env node :=
  fun connected => absurd connected unconnected

theorem disconnect (env : ReceiveEnv) (node : RecvNode) : InfoChecked env node.disconnect :=
  of_unconnected NodeState.noConfusion

theorem congr {other : RecvNode} (checked : InfoChecked env node)
    (sameState : other.state = node.state) (sameInfo : other.info = node.info) :
    InfoChecked env other := by
  unfold InfoChecked
  rw [sameState, sameInfo]
  exact checked

theorem nodeSetState (checked : InfoChecked env node) {next : NodeState}
    (unconnected : next ≠ .connected) (sent : Bool) :
    InfoChecked env (nodeSetState node next sent) := by
  unfold MonitorMerlin.nodeSetState
  split_ifs
  · exact checked
  · exact disconnect env node
  · exact disconnect env node
  · exact of_unconnected unconnected

theorem handleActive (env : ReceiveEnv) (node : RecvNode) (pkt : Bytes) :
    InfoChecked env (handleActive env node pkt).1 := by
  unfold MonitorMerlin.handleActive
  by_cases compat : nodeCompatCmp env.build (hdrLen pkt) (pktBody pkt) = 0
  · by_cases mconf : nodeMconfCmp env.config.expected env.ipcInfo (pktBody pkt) = 0
    · by_cases oconf : nodeOconfCmp env.config.expected env.ipcInfo (pktBody pkt) = 0
      · have verified := (InfoVerified.of_checks compat mconf oconf).take
        simp only [compat, mconf, oconf, ne_eq, not_true_eq_false, if_false]
        split_ifs
        · exact fun _ => verified
        · unfold MonitorMerlin.nodeSetState
          split_ifs
          · exact fun _ => verified
          · exact disconnect env _
          · exact disconnect env _
          · exact fun _ => verified
      · simp only [compat, mconf, oconf, ne_eq, not_true_eq_false, not_false_eq_true, if_true,
          if_false]
        exact disconnect env _
    · simp only [compat, mconf, ne_eq, not_true_eq_false, not_false_eq_true, if_true, if_false]
      exact disconnect env _
  · simp only [compat, ne_eq, not_false_eq_true, if_true]
    exact disconnect env node

section

variable (checked : InfoChecked env node)

include checked

theorem handleControl (pkt : Bytes) : InfoChecked env (handleControl env node pkt).1 := by
  unfold MonitorMerlin.handleControl
  split_ifs
  · exact disconnect env node
  · exact handleActive env node pkt
  · exact checked
  · exact checked
  · exact checked
  · exact checked

theorem markInfo (known : env.build.byteOrder ≠ 0) : InfoChecked env (markInfo node) := by
  unfold MonitorMerlin.markInfo
  split_ifs with missing
  · intro connected
    have sent := (checked connected).byteOrder
    rw [missing] at sent
    exact absurd sent.symm known
  · exact checked

theorem handleEvent (known : env.build.byteOrder ≠ 0) (pkt : Bytes) :
    InfoChecked env (handleEvent env node pkt).1 := by
  unfold MonitorMerlin.handleEvent
  split_ifs
  · exact checked.handleControl pkt
  · exact checked
  · exact checked
  · exact checked.markInfo known

theorem openPacket (raw : Bytes) :
    InfoChecked env (openPacket env.sodium env.config node raw).2 := by
  unfold MonitorMerlin.openPacket
  split
  · split
    · exact checked
    · exact disconnect env node
  · exact checked

theorem nodeGetEvent : InfoChecked env (nodeGetEvent env.sodium env.config node).2 := by
  unfold MonitorMerlin.nodeGetEvent
  split_ifs
  · exact checked
  · exact checked
  · exact disconnect env node
  · exact checked.congr rfl rfl
  · apply openPacket
    exact checked.congr rfl rfl

theorem handleGot (known : env.build.byteOrder ≠ 0) (beyond : Bytes) (got : GetEvent) :
    InfoChecked env (handleGot env node beyond got) := by
  cases got with
  | nothing => exact checked
  | outOfBounds raw => exact checked.handleEvent known _
  | event raw pkt => exact checked.handleEvent known pkt

theorem inputTurn (known : env.build.byteOrder ≠ 0) (beyond : Bytes) :
    InfoChecked env (inputTurn env node beyond) := checked.nodeGetEvent.handleGot known beyond _

theorem nodeRecv (answer : Recv) : InfoChecked env (nodeRecv node answer) := by
  cases answer with
  | data bytes => exact checked.congr rfl rfl
  | wouldBlock => exact checked
  | closed => exact disconnect env node

theorem nodeAccept (sock : Int) (negotiation : Negotiation) (sent : Bool) :
    InfoChecked env (nodeAccept node sock negotiation sent) := by
  unfold MonitorMerlin.nodeAccept
  refine nodeSetState ?_ (by decide) sent
  split_ifs
  · exact (disconnect env node).congr rfl rfl
  · exact disconnect env node
  · exact checked

end

variable {this : SocketNode}

section

variable (checked : InfoChecked env this.node)

include checked

theorem setNegotiating (sent : Bool) : InfoChecked env (this.setNegotiating sent).node := by
  rw [node_setNegotiating]
  exact checked.nodeSetState (by decide) _

theorem nodeAcceptSocket (order : ByteOrder) (names : SocketNames) (sock : Int) (sent : Bool) :
    InfoChecked env (nodeAcceptSocket order names this sock sent).node := by
  change InfoChecked env ((acceptChoice order names this sock).setNegotiating sent).node
  rw [node_setNegotiating, node_acceptChoice]
  exact checked.nodeAccept _ _ _

theorem applyVerdict (lis : Int) (verdict : Verdict) :
    InfoChecked env (this.applyVerdict lis verdict).node := by
  cases verdict with
  | use chosen => exact checked
  | killBoth => exact disconnect env this.node

theorem connWritable (order : ByteOrder) (names : SocketNames) (sd : Int) (connected sent : Bool) :
    InfoChecked env (connWritable order names this sd connected sent).node := by
  unfold MonitorMerlin.connWritable
  dsimp only
  split
  · split
    · refine setNegotiating ?_ sent
      exact checked.congr rfl rfl
    · exact disconnect env _
  · split
    · exact disconnect env _
    · refine setNegotiating ?_ sent
      refine InfoChecked.congr (applyVerdict ?_ this.node.sock _) rfl rfl
      exact checked

theorem acceptUuid (known : env.build.byteOrder ≠ 0) (order : ByteOrder) (sock : Int)
    (chunk beyond : Bytes) (names : SocketNames) (sent : Bool) :
    InfoChecked env (acceptUuid order env this sock chunk beyond names sent).node := by
  unfold MonitorMerlin.acceptUuid
  split
  · exact checked
  · refine handleGot ?_ known beyond _
    refine nodeAcceptSocket ?_ order names sock sent
    have queued : InfoChecked env { this.node with bq := chunk } := checked.congr rfl rfl
    split
    · exact queued.nodeGetEvent
    · exact queued

theorem registerOut (registers : Bool) : InfoChecked env (registerOut this registers).node := by
  cases registers with
  | true => exact checked
  | false => exact disconnect env this.node

theorem connectSocket (attempt : ConnectAttempt) :
    InfoChecked env (connectSocket this attempt).node := by
  unfold MonitorMerlin.connectSocket
  split
  · exact checked
  · split
    · exact checked.registerOut _
    · exact registerOut (checked.nodeSetState (by decide) true) _
    · exact disconnect env _

theorem opened (sock : Int) : InfoChecked env (this.opened sock).node := by
  unfold SocketNode.opened
  split
  · exact checked
  · exact checked

theorem netAcceptOne (order : ByteOrder) (sock : Int) (names : SocketNames) (sent : Bool) :
    InfoChecked env (netAcceptOne order this sock names sent).node := by
  unfold MonitorMerlin.netAcceptOne
  split
  · exact checked
  · exact (checked.opened sock).nodeAcceptSocket order names sock sent

theorem netTryConnect (attempt : ConnectAttempt) :
    InfoChecked env (netTryConnect this attempt).node := by
  have reset : InfoChecked env (this.disconnect.opened attempt.socket).node :=
    opened (disconnect env this.node) attempt.socket
  unfold MonitorMerlin.netTryConnect
  split
  · exact checked
  · split
    · exact checked.connectSocket attempt
    · dsimp only
      split
      · exact reset
      · apply connectSocket
        exact reset

theorem disconnectInactive (expired : Bool) :
    InfoChecked env (disconnectInactive this expired).node := by
  unfold MonitorMerlin.disconnectInactive
  split_ifs
  · exact checked
  · exact disconnect env this.node
  · exact checked

theorem linkStep (known : env.build.byteOrder ≠ 0) (order : ByteOrder) (event : LinkEvent) :
    InfoChecked env (linkStep order env this event).node := by
  cases event with
  | recv answer => exact checked.nodeRecv answer
  | event beyond => exact checked.inputTurn known beyond
  | accept sock names sent => exact checked.netAcceptOne order sock names sent
  | acceptUuid sock chunk beyond names sent =>
    exact (checked.opened sock).acceptUuid known order sock chunk beyond names sent
  | tryConnect attempt => exact checked.netTryConnect attempt
  | writable sd names connected sent => exact checked.connWritable order names sd connected sent
  | inactive expired => exact checked.disconnectInactive expired
  | disconnect => exact disconnect env this.node

end

end InfoChecked

section Runs

variable {ι : Type u}

theorem endianness_ne_zero (order : ByteOrder) : endianness order ≠ 0 := by
  cases order <;> decide

def NetState.AllChecked (system : NetSystem ι) (state : NetState ι) : Prop :=
  ∀ node, InfoChecked (system.env state.ipcInfo node) (state.nodes node)

variable [DecidableEq ι] {system : NetSystem ι} {state : NetState ι}

theorem netStep_allChecked (allChecked : state.AllChecked system) (event : NetEvent ι) :
    (netStep system state event).AllChecked system := by
  cases event with
  | link node event =>
    have after : InfoChecked (system.env state.ipcInfo node)
        (linkStep system.order (system.env state.ipcInfo node) (state.socketNode node)
          event).node :=
      InfoChecked.linkStep (allChecked node) (endianness_ne_zero system.order) system.order event
    intro other
    by_cases same : other = node
    · rw [same]
      simpa [netStep] using after
    · simpa [netStep, Function.update_of_ne same] using allChecked other
  | ipcWrite field value =>
    intro node connected
    exact (allChecked node connected).write field value

theorem netRun_allChecked (allChecked : state.AllChecked system) (events : List (NetEvent ι)) :
    (netRun system state events).AllChecked system := by
  induction events generalizing state with
  | nil => exact allChecked
  | cons event events ih => exact ih (netStep_allChecked allChecked event)

/-- Whatever happens on the network, a node that is connected has sent
information that passes all checks. -/
theorem netRun_connected_verified (system : NetSystem ι) (fds : Descriptors) (ipcInfo : IpcInfo)
    (events : List (NetEvent ι)) (node : ι)
    (connected : ((netRun system (.start fds ipcInfo) events).nodes node).state = .connected) :
    InfoVerified system.build (system.config node).expected
      (netRun system (.start fds ipcInfo) events).ipcInfo.image
      ((netRun system (.start fds ipcInfo) events).nodes node).info :=
  netRun_allChecked (fun _ => InfoChecked.of_unconnected NodeState.noConfusion) events node
    connected

end Runs

def differingPeers : NetSystem Bool where
  sodium := ⟨false, fun _ _ _ _ => none, fun opened => nomatch opened⟩
  layout := sampleLayout
  base := 4096
  config second :=
    ⟨false, [], [], false, ⟨.peer, 0, List.replicate 20 (if second then 1 else 0), none, 2⟩⟩
  order := .little
  wordSize := 64
  objectStructureVersion := 1
  clusterUpdate := false
  numMasters := 0
  numPollers := 0

def zeroInfo : IpcInfo := ⟨List.replicate nodeinfoSize 0, List.length_replicate⟩

def activePacket : Bytes :=
  merlinSignature ++ leBytes 2 merlinProtocolVersion ++ leBytes 2 ctrlPacket ++
    leBytes 2 ctrlActive ++ [0, 0] ++ leBytes 4 nodeinfoSize ++ List.replicate 108 0 ++
    leBytes 4 nodeinfoVersion ++ leBytes 4 64 ++ leBytes 4 1234 ++ leBytes 4 1 ++
    List.replicate 84 0

def differingPeersEvents : List (NetEvent Bool) :=
  [false, true].flatMap (fun node =>
    [.link node (.accept 5 ⟨fun _ => none, fun _ => none⟩ true),
      .link node (.recv (.data activePacket)), .link node (.event [])]) ++
    [.ipcWrite .activePeers 1]

theorem netRun_connected_verified_first :
    let after := netRun differingPeers (.start ⟨∅, ∅⟩ zeroInfo) differingPeersEvents
    (after.nodes false).state = .connected ∧ (after.nodes true).state = .none ∧
      InfoVerified differingPeers.build (differingPeers.config false).expected after.ipcInfo.image
        (after.nodes false).info := by
  have connected :
      ((netRun differingPeers (.start ⟨∅, ∅⟩ zeroInfo) differingPeersEvents).nodes false).state =
        .connected := by
    decide +kernel
  refine ⟨connected, ?_, ?_⟩
  · decide +kernel
  · exact netRun_connected_verified differingPeers ⟨∅, ∅⟩ zeroInfo differingPeersEvents false
      connected

end MonitorMerlin
