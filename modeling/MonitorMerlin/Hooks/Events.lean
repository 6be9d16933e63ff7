import Mathlib.Data.Rat.Defs
import MonitorMerlin.Module.Handlers
import MonitorMerlin.Pgroup.Basic
import MonitorMerlin.Tiers.Sending

/-! # Check results and notifications -/

namespace MonitorMerlin

open ByteImage

inductive ObjectKey where
  | host (name : String)
  | service (hostName description : String)
  deriving DecidableEq, Repr

inductive NotificationReason where
  | normal
  | acknowledgement
  | flappingStart
  | flappingStop
  | flappingDisabled
  | downtimeStart
  | downtimeEnd
  | downtimeCancelled
  | custom
  deriving DecidableEq, Repr

inductive NotificationType where
  | host
  | service
  | unknown
  deriving DecidableEq, Repr

structure NotifiedObject where
  currentNotificationNumber : Int
  noMoreNotifications : Int
  lastNotification : Int
  nextNotification : Int
  deriving DecidableEq, Repr

structure NotificationTexts where
  hostName : Option String
  serviceDescription : Option String
  output : Option String
  ackAuthor : Option String
  ackData : Option String
  deriving DecidableEq, Repr

structure NotificationData where
  notificationType : NotificationType
  reasonType : NotificationReason
  object : NotifiedObject
  startTime : Timeval
  endTime : Timeval
  texts : NotificationTexts
  deriving DecidableEq, Repr

structure NotificationPacket where
  selection : Nat
  notificationType : NotificationType
  reasonType : NotificationReason
  object : Option Int
  startTime : Timeval
  endTime : Timeval
  texts : NotificationTexts
  deriving DecidableEq, Repr

def notificationPacket (selection : Nat) (data : NotificationData) : NotificationPacket :=
  let object := data.object
  match data.notificationType with
  | .host | .service =>
    ⟨selection, data.notificationType, data.reasonType,
      some object.currentNotificationNumber,
      ⟨object.lastNotification, object.noMoreNotifications⟩,
      ⟨object.nextNotification, 0⟩, data.texts⟩
  | .unknown =>
    ⟨selection, data.notificationType, data.reasonType, none, data.startTime, data.endTime,
      data.texts⟩

inductive SentEvent where
  | status (object : ObjectKey)
  | notification (packet : NotificationPacket)
  deriving DecidableEq, Repr

structure HookState where
  lastCheck : ObjectKey → Option Int
  tmpNotifData : Option NotificationPacket
  sent : List SentEvent

namespace HookState

variable (state : HookState)

/-- `send_generic`, with `net_sendto`. -/
def sendGeneric (event : SentEvent) : HookState :=
  { state with sent := state.sent ++ [event] }

def setLastCheck (object : ObjectKey) (time : Int) : HookState :=
  { state with lastCheck := Function.update state.lastCheck object (some time) }

/-- `hold_notification_packet`. -/
def holdNotificationPacket (packet : NotificationPacket) : HookState :=
  match state.tmpNotifData with
  | some _ => state
  | none => { state with tmpNotifData := some packet }

/-- `flush_notification`. -/
def flushNotification : HookState :=
  match state.tmpNotifData with
  | none => state
  | some packet => { state.sendGeneric (.notification packet) with tmpNotifData := none }

/-- `hook_notification` at the end. -/
def hookNotificationEnd (network : Option Nat) (data : NotificationData) :
    HookState :=
  let packet := notificationPacket (network.getD destPeersMasters) data
  if data.reasonType = .custom ∨ network.isSome then
    state.sendGeneric (.notification packet)
  else
    state.holdNotificationPacket packet

/-- `hook_host_result`, `hook_service_result`. -/
def hookResult (fromNetwork : Bool) (object : ObjectKey) (endTime : Timeval) :
    HookState :=
  let checked := state.setLastCheck object endTime.tvSec
  if fromNetwork then checked else (checked.sendGeneric (.status object)).flushNotification

end HookState

/-- `monitored_object_state`. -/
structure MonitoredObjectState where
  currentState : Int
  checkType : Int
  lastCheck : Int
  latency : ℚ
  executionTime : ℚ
  pluginOutput : Option Bytes
  longPluginOutput : Option Bytes
  perfData : Option Bytes
  deriving DecidableEq, Repr

structure CheckResult where
  object : ObjectKey
  source : String
  returnCode : Int
  checkType : Int
  latency : ℚ
  startTime : Timeval
  finishTime : Timeval
  output : Option Bytes
  deriving DecidableEq, Repr

def timeT (seconds : ℚ) : Int := seconds.num.tdiv seconds.den

/-- `handle_checkresult`. -/
def handleCheckresult (object : ObjectKey) (source : String) (returnCode : Int)
    (st : MonitoredObjectState) : CheckResult where
  object := object
  source := source
  returnCode := returnCode
  checkType := st.checkType
  latency := st.latency
  startTime := ⟨st.lastCheck, 0⟩
  finishTime :=
    ⟨st.lastCheck + timeT st.executionTime,
      timeT (1000000 * (st.executionTime - timeT st.executionTime))⟩
  output := concatenateOutput st.pluginOutput st.longPluginOutput st.perfData

def processCheckResult (state : HookState) (result : CheckResult) : HookState :=
  state.hookResult true result.object result.finishTime

inductive ResultType where
  | checkData
  | statusData
  deriving DecidableEq, Repr

def handleResult
    (returnCode : Int → Int) (source : String) (state : HookState) (object : ObjectKey)
    (type : ResultType) (st : MonitoredObjectState) : Int × HookState :=
  match state.lastCheck object with
  | none => (-1, state)
  | some lastCheck =>
    if st.lastCheck < lastCheck then
      (0, state)
    else
      match type with
      | .checkData =>
        (0, processCheckResult state
          (handleCheckresult object source (returnCode st.currentState) st))
      | .statusData => (0, state.setLastCheck object st.lastCheck)

def hostReturnCode (currentState : Int) : Int := if currentState = 0 then 0 else 2

/-- `handle_host_result`. -/
def handleHostResult
    (source : String) (state : HookState) (name : String) (type : ResultType)
    (st : MonitoredObjectState) : Int × HookState :=
  handleResult hostReturnCode source state (.host name) type st

/-- `handle_service_result`. -/
def handleServiceResult
    (source : String) (state : HookState) (hostName description : String) (type : ResultType)
    (st : MonitoredObjectState) : Int × HookState :=
  handleResult id source state (.service hostName description) type st

end MonitorMerlin
