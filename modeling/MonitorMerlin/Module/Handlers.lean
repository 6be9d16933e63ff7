import Mathlib.Logic.Function.Basic
import MonitorMerlin.Net.Receive

/-! # Handlers of events -/

namespace MonitorMerlin

open ByteImage MachineInt

inductive BadPointer where
  | wild
  | nullString
  | nullObject
  deriving DecidableEq, Repr

def useString : Option Bytes → Except BadPointer Bytes
  | none => .error .nullString
  | some text => .ok text

def useObject {Object : Type} : Option Object → Except BadPointer Object
  | none => .error .nullObject
  | some object => .ok object

/-- `!strcmp`. -/
def sameString (left right : Option Bytes) : Except BadPointer Bool := do
  let left ← useString left
  let right ← useString right
  return left = right

inductive StateField where
  | flapDetectionEnabled
  | checkFreshness
  | processPerformanceData
  | checksEnabled
  | eventHandlerEnabled
  | problemHasBeenAcknowledged
  | acknowledgementType
  | checkType
  | currentState
  | lastState
  | lastHardState
  | stateType
  | currentAttempt
  | currentEventId
  | lastEventId
  | currentProblemId
  | lastProblemId
  | latency
  | executionTime
  | notificationsEnabled
  | lastCheck
  | lastStateChange
  | lastHardStateChange
  | currentNotificationNumber
  | currentNotificationId
  | checkFlappingRecoveryNotification
  | scheduledDowntimeDepth
  | pendingFlexDowntime
  | isFlapping
  | stateHistory
  | stateHistoryIndex
  | percentStateChange
  | modifiedAttributes
  | obsess
  | lastNotification
  | nextNotification
  | acceptPassiveChecks
  | notifiedOn
  deriving DecidableEq, Repr

structure ReportedState where
  values : StateField → Int
  pluginOutput : Option Bytes
  longPluginOutput : Option Bytes
  perfData : Option Bytes

structure StoredComment where
  commentId : Int
  commentType : Int
  entryType : Int
  source : Int
  expires : Int
  expireTime : Int
  entryTime : Int
  persistent : Int
  author : Bytes
  commentData : Bytes
  hostName : Bytes
  serviceDescription : Option Bytes
  deriving DecidableEq, Repr

structure MonitoredObject where
  state : ReportedState
  noMoreNotifications : Int
  flappingCommentId : Int
  comments : List StoredComment

inductive LookupName where
  | host (name : Option Bytes)
  | service (hostName serviceDescription : Option Bytes)
  deriving DecidableEq, Repr

structure World (Rest : Type) where
  host : Bytes → Option MonitoredObject
  service : Bytes → Bytes → Option MonitoredObject
  rest : Rest

/-- `find_host` and `find_service`. -/
def World.find {Rest : Type} (world : World Rest) : LookupName → Option MonitoredObject
  | .host (some name) => world.host name
  | .service (some hostName) (some description) => world.service hostName description
  | _ => none

def World.update {Rest : Type} (world : World Rest) (name : LookupName)
    (change : MonitoredObject → MonitoredObject) : World Rest :=
  match name with
  | .host (some name) =>
    { world with host := Function.update world.host name ((world.host name).map change) }
  | .service (some hostName) (some description) =>
    { world with
      service := Function.update world.service hostName
        (Function.update (world.service hostName) description
          ((world.service hostName description).map change)) }
  | _ => world

inductive IntField where
  | state (field : StateField)
  | type
  | notificationType
  | objectPtr
  | startSec
  | startUsec
  | endSec
  | objectState
  | commandType
  | entryTime
  | commentType
  | entryType
  | source
  | expires
  | expireTime
  | persistent
  | startTime
  | flappingType
  | sd
  deriving DecidableEq, Repr

structure NaemonHeaders where
  readInt : IntField → Bytes → Int
  hostNotification : Int
  cmdRestartProcess : Int
  cmdShutdownProcess : Int
  cmdDelHostComment : Int
  cmdDelSvcComment : Int
  hostComment : Int
  serviceComment : Int
  acknowledgementComment : Int
  downtimeComment : Int
  nebtypeCommentDelete : Int
  nebtypeDowntimeDelete : Int
  nebtypeDowntimeStop : Int
  nebtypeFlappingStart : Int
  serviceFlapping : Int

structure ReportedResult where
  object : LookupName
  source : Bytes
  returnCode : Int
  checkType : Int
  latency : Int
  startTime : Int
  executionTime : Int
  output : Option Bytes
  deriving DecidableEq, Repr

structure CommentEvent where
  type : Int
  commentType : Int
  entryType : Int
  source : Int
  expires : Int
  expireTime : Int
  entryTime : Int
  persistent : Int
  hostName : Option Bytes
  serviceDescription : Option Bytes
  authorName : Option Bytes
  commentData : Option Bytes
  deriving DecidableEq, Repr

structure Naemon (Rest : Type) where
  processCheckResult : ReportedResult → World Rest → Int × World Rest
  processExternalCommand2 : Int → Int → Option Bytes → World Rest → World Rest
  addNewComment : CommentEvent → World Rest → World Rest
  deleteComment : Int → Int → World Rest → World Rest
  deleteDowntime : Option Bytes → Option Bytes → Int → Option Bytes → World Rest → World Rest
  addNotifiedOn : Int → Int → Int
  wprocRunCallback : Bytes → World Rest → World Rest
  nsockPrintfNul : Int → Option Bytes → World Rest → World Rest

def stringAt (base slot : Nat) (body : Bytes) : Except BadPointer (Option Bytes) :=
  match loadString body base slot with
  | none => .error .wild
  | some text => .ok text

variable {Rest : Type} (headers : NaemonHeaders) (naemon : Naemon Rest) (env : ReceiveEnv)

def bodyString (struct : NebStruct) (field : StringField) (body : Bytes) :
    Except BadPointer (Option Bytes) :=
  stringAt env.base (env.layout.offsetOf struct field) body

def readState (struct : NebStruct) (body : Bytes) : Except BadPointer ReportedState := do
  let pluginOutput ← bodyString env struct .statePluginOutput body
  let longPluginOutput ← bodyString env struct .stateLongPluginOutput body
  let perfData ← bodyString env struct .statePerfData body
  return {
    values := fun field => headers.readInt (.state field) body
    pluginOutput, longPluginOutput, perfData }

def readComment (body : Bytes) : Except BadPointer CommentEvent := do
  let hostName ← bodyString env .commentData .hostName body
  let serviceDescription ← bodyString env .commentData .serviceDescription body
  let authorName ← bodyString env .commentData .authorName body
  let commentData ← bodyString env .commentData .commentData body
  return {
    type := headers.readInt .type body
    commentType := headers.readInt .commentType body
    entryType := headers.readInt .entryType body
    source := headers.readInt .source body
    expires := headers.readInt .expires body
    expireTime := headers.readInt .expireTime body
    entryTime := headers.readInt .entryTime body
    persistent := headers.readInt .persistent body
    hostName, serviceDescription, authorName, commentData }

/-- `concatenate_output`. -/
def concatenateOutput (pluginOutput longPluginOutput perfData : Option Bytes) : Option Bytes :=
  if pluginOutput = none ∧ longPluginOutput = none ∧ perfData = none then
    none
  else
    some (pluginOutput.getD [] ++ longPluginOutput.elim [] (fun text => 10 :: text) ++
      perfData.elim [] fun text => 124 :: text)

def resultHandler (name : LookupName) (isCheck : Bool) (source : Bytes) (returnCode : Int → Int)
    (state : ReportedState) (world : World Rest) : Int × World Rest :=
  match world.find name with
  | none => (-1, world)
  | some object =>
    if state.values .lastCheck < object.state.values .lastCheck then
      (0, world)
    else if isCheck then
      naemon.processCheckResult
        { object := name
          source := source
          returnCode := returnCode (state.values .currentState)
          checkType := state.values .checkType
          latency := state.values .latency
          startTime := state.values .lastCheck
          executionTime := state.values .executionTime
          output := concatenateOutput state.pluginOutput state.longPluginOutput state.perfData }
        world
    else
      (0, world.update name fun object => { object with state := state })

/-- `handle_host_result`. -/
def hostResultHandler (type : Nat) (source body : Bytes) (world : World Rest) :
    Except BadPointer (Int × World Rest) := do
  let name ← bodyString env .merlinHostStatus .name body
  let state ← readState headers env .merlinHostStatus body
  return resultHandler naemon (.host name) (type = nebcallbackHostCheckData) source
    (fun current => if current = 0 then 0 else 2) state world

/-- `handle_service_result`. -/
def serviceResultHandler (type : Nat) (source body : Bytes) (world : World Rest) :
    Except BadPointer (Int × World Rest) := do
  let hostName ← bodyString env .merlinServiceStatus .hostName body
  let description ← bodyString env .merlinServiceStatus .serviceDescription body
  let state ← readState headers env .merlinServiceStatus body
  return resultHandler naemon (.service hostName description)
    (type = nebcallbackServiceCheckData) source (fun current => current) state world

section

variable (body : Bytes)

def notified (object : MonitoredObject) : MonitoredObject :=
  let number := truncateInt (headers.readInt .objectPtr body)
  let values := object.state.values
  let on := naemon.addNotifiedOn (values .notifiedOn) (headers.readInt .objectState body)
  { object with
    noMoreNotifications := headers.readInt .startUsec body
    state :=
      { object.state with
        values := Function.update (Function.update (Function.update (Function.update values
          .currentNotificationNumber number)
          .lastNotification (headers.readInt .startSec body))
          .nextNotification (headers.readInt .endSec body))
          .notifiedOn on } }

/-- `handle_notification_data`. -/
def handleNotificationData (world : World Rest) :
    Except BadPointer (Int × World Rest) := do
  let hostName ← bodyString env .notificationData .hostName body
  let description ← bodyString env .notificationData .serviceDescription body
  let name : LookupName :=
    if headers.readInt .notificationType body = headers.hostNotification then .host hostName
    else .service hostName description
  return match world.find name with
    | none => (-1, world)
    | some _ => (0, world.update name (notified headers naemon body))

/-- `handle_external_command`. -/
def handleExternalCommand (world : World Rest) :
    Except BadPointer (Int × World Rest) := do
  let commandArgs ← bodyString env .externalCommandData .commandArgs body
  let command := headers.readInt .commandType body
  return if command ∈ [headers.cmdRestartProcess, headers.cmdShutdownProcess,
      headers.cmdDelHostComment, headers.cmdDelSvcComment] then
    (0, world)
  else
    (1, naemon.processExternalCommand2 command (headers.readInt .entryTime body) commandArgs world)

/-- `handle_downtime_data`. -/
def handleDowntimeData (world : World Rest) :
    Except BadPointer (Int × World Rest) := do
  let hostName ← bodyString env .downtimeData .hostName body
  let description ← bodyString env .downtimeData .serviceDescription body
  let commentData ← bodyString env .downtimeData .commentData body
  let type := headers.readInt .type body
  return if type ≠ headers.nebtypeDowntimeDelete ∧ type ≠ headers.nebtypeDowntimeStop then
    (0, world)
  else
    (0, naemon.deleteDowntime hostName description (headers.readInt .startTime body) commentData
      world)

/-- `handle_flapping_data`. -/
def handleFlappingData (world : World Rest) :
    Except BadPointer (Int × World Rest) := do
  let hostName ← bodyString env .flappingData .hostName body
  let description ← bodyString env .flappingData .serviceDescription body
  let starting : Bool := headers.readInt .type body = headers.nebtypeFlappingStart
  let ofService : Bool := headers.readInt .flappingType body = headers.serviceFlapping
  let name : LookupName := if ofService then .service hostName description else .host hostName
  return match world.find name with
    | none => (0, world)
    | some object =>
      let marked := world.update name fun object =>
        { object with
          state :=
            { object.state with
              values := Function.update object.state.values .isFlapping
                (if starting then 1 else 0) } }
      if starting = false ∧ object.flappingCommentId ≠ 0 then
        (1, naemon.deleteComment
          (if ofService then headers.serviceComment else headers.hostComment)
          object.flappingCommentId marked)
      else
        (1, marked)

def SameNumbers (cmnt : StoredComment) (ds : CommentEvent) : Prop :=
  cmnt.commentType = ds.commentType ∧ cmnt.entryType = ds.entryType ∧ cmnt.source = ds.source ∧
    cmnt.expires = ds.expires ∧ cmnt.expireTime = ds.expireTime ∧
    cmnt.entryTime = ds.entryTime ∧ cmnt.persistent = ds.persistent

instance (cmnt : StoredComment) (ds : CommentEvent) : Decidable (SameNumbers cmnt ds) :=
  inferInstanceAs (Decidable (_ ∧ _))

def sameDescription (left right : Option Bytes) : Except BadPointer Bool :=
  if left = none ∧ right = none then
    .ok true
  else
    sameString left right

/-- `matching_comment`. -/
def matchingComment (cmnt : StoredComment) (ds : CommentEvent) : Except BadPointer Bool :=
  if SameNumbers cmnt ds then do
    if (← sameString (some cmnt.author) ds.authorName) = false then
      return false
    if (← sameString (some cmnt.commentData) ds.commentData) = false then
      return false
    if (← sameString (some cmnt.hostName) ds.hostName) = false then
      return false
    sameDescription cmnt.serviceDescription ds.serviceDescription
  else
    .ok false

def deleteMatching (ds : CommentEvent) :
    List StoredComment → World Rest → Except BadPointer (World Rest)
  | [], world => .ok world
  | cmnt :: rest, world => do
      let isMatching ← matchingComment cmnt ds
      deleteMatching ds rest
        (if isMatching then naemon.deleteComment cmnt.commentType cmnt.commentId world else world)

def CommentEvent.objectName (ds : CommentEvent) : LookupName :=
  if ds.serviceDescription = none then .host ds.hostName
  else .service ds.hostName ds.serviceDescription

/-- `handle_comment_data`. -/
def handleComment (ds : CommentEvent) (world : World Rest) : Except BadPointer (Int × World Rest) :=
  match world.find ds.objectName with
  | none => .ok (0, world)
  | some object =>
    let hs := if ds.serviceDescription = none then some object else none
    let sv := if ds.serviceDescription = none then none else some object
    if ds.type = headers.nebtypeCommentDelete then do
      let found ← useObject (if ds.commentType = headers.hostComment then hs else sv)
      let world ← deleteMatching naemon ds found.comments world
      return (0, world)
    else if ds.entryType = headers.acknowledgementComment ∨
        ds.entryType = headers.downtimeComment then
      .ok (0, world)
    else
      .ok (0, naemon.addNewComment ds world)

/-- `handle_comment_data`. -/
def handleCommentData (world : World Rest) :
    Except BadPointer (Int × World Rest) := do
  let ds ← readComment headers env body
  handleComment headers naemon ds world

def runcmdSlot : Nat := 4

def cmdPrefix : Bytes := "/usr/bin/mon qh query --single '@runcmd run ".toUTF8.toList

/-- `handle_runcmd_event` for a `RUNCMD_CMD`. -/
def runCommand (world : World Rest) : Except BadPointer (World Rest) := do
  let content ← useString (← stringAt env.base runcmdSlot body)
  return naemon.wprocRunCallback (cmdPrefix ++ content ++ [39]) world

/-- `runcmd_callback`. -/
def runcmdCallback (world : World Rest) : Except BadPointer (World Rest) := do
  let content ← stringAt env.base runcmdSlot body
  return naemon.nsockPrintfNul (headers.readInt .sd body) content world

end

def callHandler (type : Nat) (source : Bytes) (body : Bytes) (world : World Rest) :
    Handler → Except BadPointer (Int × World Rest)
  | .hostResult => hostResultHandler headers naemon env type source body world
  | .serviceResult => serviceResultHandler headers naemon env type source body world
  | .notificationData => handleNotificationData headers naemon env body world
  | .externalCommand => handleExternalCommand headers naemon env body world
  | .commentData => handleCommentData headers naemon env body world
  | .downtimeData => handleDowntimeData headers naemon env body world
  | .flappingData => handleFlappingData headers naemon env body world

def performEffect (type : Nat) (source : Bytes) (world : World Rest) :
    Effect → Except BadPointer (World Rest)
  | .handler which body => do
      let handled ← callHandler headers naemon env type source body world which
      return handled.2
  | .runCommand body => runCommand naemon env body world
  | .runcmdCallback body => runcmdCallback headers naemon env body world
  | .outOfBounds => .error .wild
  | _ => .ok world

/-- `handle_event` with its handlers. -/
def performEvent (node : RecvNode) (source pkt : Bytes) (world : World Rest) :
    Except BadPointer (World Rest) :=
  (handleEvent env node pkt).2.foldlM (performEffect headers naemon env (hdrType pkt) source) world

end MonitorMerlin
