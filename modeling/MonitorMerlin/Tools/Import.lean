import MonitorMerlin.Tools.Logutils

/-! # The import of a log -/

namespace MonitorMerlin

open List

inductive ImportCode where
  | ignoreLine
  | notification
  | externalCommand
  | hostCheck
  | serviceCheck
  | hostDowntime
  | serviceDowntime
  deriving DecidableEq, Repr

def importCodes : List (StringCode ImportCode) :=
  ["Error", "Warning", "LOG ROTATION", "HOST FLAPPING ALERT", "SERVICE FLAPPING ALERT",
      "SERVICE EVENT HANDLER", "HOST EVENT HANDLER", "SERVICE NOTIFICATION SUPPRESSED",
      "HOST NOTIFICATION SUPPRESSED", "SERVICE CONTACT NOTIFICATION SUPPRESSED",
      "HOST CONTACT NOTIFICATION SUPPRESSED", "LOG VERSION", "livestatus",
      "TIMEPERIOD TRANSITION", "wproc", "qh", "nerd"].map (⟨0, ·, .ignoreLine⟩) ++
    [⟨5, "HOST NOTIFICATION", .notification⟩,
      ⟨6, "SERVICE NOTIFICATION", .notification⟩,
      ⟨3, "PASSIVE HOST CHECK", .hostCheck⟩,
      ⟨4, "PASSIVE SERVICE CHECK", .serviceCheck⟩,
      ⟨0, "EXTERNAL COMMAND", .externalCommand⟩,
      ⟨5, "HOST ALERT", .hostCheck⟩,
      ⟨5, "INITIAL HOST STATE", .hostCheck⟩,
      ⟨5, "CURRENT HOST STATE", .hostCheck⟩,
      ⟨6, "SERVICE ALERT", .serviceCheck⟩,
      ⟨6, "INITIAL SERVICE STATE", .serviceCheck⟩,
      ⟨6, "CURRENT SERVICE STATE", .serviceCheck⟩,
      ⟨3, "HOST DOWNTIME ALERT", .hostDowntime⟩,
      ⟨4, "SERVICE DOWNTIME ALERT", .serviceDowntime⟩]

def restartProgram : Nat := 14

/-- `command_codes`. -/
def commandCodes : List (StringCode Nat) :=
  [⟨1, "DEL_HOST_DOWNTIME", 1⟩,
    ⟨1, "DEL_SVC_DOWNTIME", 2⟩,
    ⟨8, "SCHEDULE_AND_PROPAGATE_HOST_DOWNTIME", 3⟩,
    ⟨8, "SCHEDULE_AND_PROPAGATE_TRIGGERED_HOST_DOWNTIME", 4⟩,
    ⟨8, "SCHEDULE_HOSTGROUP_HOST_DOWNTIME", 5⟩,
    ⟨8, "SCHEDULE_HOSTGROUP_SVC_DOWNTIME", 6⟩,
    ⟨8, "SCHEDULE_HOST_DOWNTIME", 7⟩,
    ⟨8, "SCHEDULE_HOST_SVC_DOWNTIME", 8⟩,
    ⟨8, "SCHEDULE_SERVICEGROUP_HOST_DOWNTIME", 9⟩,
    ⟨8, "SCHEDULE_SERVICEGROUP_SVC_DOWNTIME", 10⟩,
    ⟨8, "SCHEDULE_SVC_DOWNTIME", 11⟩,
    ⟨6, "ACKNOWLEDGE_SVC_PROBLEM", 13⟩,
    ⟨5, "ACKNOWLEDGE_HOST_PROBLEM", 12⟩]

structure ImportSettings where
  incremental : Int
  interesting : InterestingObjects
  atoi : List Char → BitVec 32

structure LoggedResult where
  object : StateObject
  state : BitVec 32
  stateType : BitVec 32
  currentAttempt : BitVec 32
  output : List Char
  deriving DecidableEq, Repr

inductive ImportAction where
  | nothing
  | crash
  | restart
  | check (result : LoggedResult)
  | downtime (object : StateObject) (starts : Bool)
  deriving DecidableEq, Repr

inductive LogEvent where
  | nothing
  | start
  | stop
  | occurs (action : ImportAction)
  deriving DecidableEq, Repr

variable (settings : ImportSettings)

/-- `insert_host_check`, `insert_service_check`. -/
def checkAction (parseState : List Char → Option Nat) (passive : Bool) (object : StateObject)
    (strv : List (List Char)) : ImportAction :=
  let result : Option LoggedResult := do
    let str := strv.getD 0 []
    if passive then
      let state ← if str.head?.any Char.isDigit then some (settings.atoi str)
        else (parseState str).map (BitVec.ofNat 32)
      some ⟨object, state, 1, 1, strv.getD 1 []⟩
    else
      let state ← parseState str
      let stateType ← softHard (strv.getD 1 [])
      some ⟨object, BitVec.ofNat 32 state, BitVec.ofNat 32 stateType,
        settings.atoi (strv.getD 2 []), strv.getD 3 []⟩
  match result with
  | none => .crash
  | some result => .check result

/-- The `switch` over lines with fields. -/
def fieldsAction (sc : StringCode ImportCode) (strv : List (List Char)) : ImportAction :=
  let host := strv.getD 0 []
  let service := strv.getD 1 []
  let starts := decide (strv.getD (sc.nvecs - 2) [] = "STARTED".toList)
  match sc.code with
  | .hostCheck =>
    if isInterestingHost settings.interesting host then
      checkAction settings parseHostState (sc.nvecs == 3) (.host host) (strv.drop 1)
    else .nothing
  | .serviceCheck =>
    if isInterestingService settings.interesting host (some service) then
      checkAction settings parseServiceState (sc.nvecs == 4) (.service host service) (strv.drop 2)
    else .nothing
  | .hostDowntime =>
    if isInterestingService settings.interesting host none then .downtime (.host host) starts
    else .nothing
  | .serviceDowntime =>
    if isInterestingService settings.interesting host (some service) then
      .downtime (.service host service) starts
    else .nothing
  | _ => .nothing

def commandAction (text : List Char) : ImportAction :=
  match (strchr ';' text).bind fun parts => getStringCode commandCodes parts.1 with
  | none => .nothing
  | some sc => if sc.code = restartProgram then .restart else .nothing

def readAction (type text : List Char) : ImportAction :=
  match getStringCode importCodes type with
  | none => .nothing
  | some sc =>
    let strv := (vectorizeString sc.nvecs text).2
    if sc.code = .ignoreLine ∨ sc.code = .notification then .nothing
    else if sc.code = .externalCommand then commandAction text
    else if strv.length ≠ sc.nvecs then .nothing
    else fieldsAction settings sc strv

def readEvent (text : List Char) : LogEvent :=
  if isInteresting text = false then .nothing
  else
    match strchr ':' text with
    | none => if isStartEvent text then .start else if isStopEvent text then .stop else .nothing
    | some (type, rest) => .occurs (readAction settings type (rest.dropWhile (· == ' ')))

/-- A row that is inserted. -/
inductive ImportedRow where
  | process (timestamp : Int) (starts : Bool)
  | check (timestamp : Int) (object : StateObject) (state : BitVec 32) (hard : Bool)
      (retry : BitVec 32) (output : List Char)
  | downtime (timestamp : Int) (object : StateObject) (starts : Bool)
  deriving DecidableEq, Repr

def ImportedRow.timestamp : ImportedRow → Int
  | .process timestamp _ => timestamp
  | .check timestamp .. => timestamp
  | .downtime timestamp .. => timestamp

structure Importer where
  daemonIsRunning : Bool
  tables : StateTables
  crashed : Bool

def Importer.start : Importer := ⟨false, stateInit, false⟩

section

variable (importer : Importer)

/-- `handle_start_event`. -/
def handleStartEvent (ltime : Int) : Importer × List ImportedRow :=
  ({ importer with daemonIsRunning := true },
    if importer.daemonIsRunning then [] else [.process ltime true])

/-- `handle_stop_event`. -/
def handleStopEvent (ltime : Int) : Importer × List ImportedRow :=
  ({ importer with daemonIsRunning := false },
    if importer.daemonIsRunning then [.process ltime false] else [])

def LoggedResult.call (result : LoggedResult) : StateCall :=
  ⟨result.object, result.state, result.stateType⟩

def LoggedResult.row (result : LoggedResult) (ltime : Int) : ImportedRow :=
  .check ltime result.object result.state (result.stateType == 1 || result.state == 0)
    result.currentAttempt result.output

/-- `insert_host_result`, `insert_service_result`. -/
def insertResult (ltime : Int) (result : LoggedResult) :
    Importer × List ImportedRow :=
  let answer := importer.tables.answer result.call
  ({ importer with tables := answer.2 },
    if answer.1 then [result.row ltime] else [])

def handleAction (ltime : Int) : ImportAction → Importer × List ImportedRow
  | .nothing => (importer, [])
  | .crash => ({ importer with crashed := true }, [])
  | .restart => handleStopEvent importer ltime
  | .check result => insertResult importer ltime result
  | .downtime object starts => (importer, [.downtime ltime object starts])

def handleLogEvent (ltime : Int) : LogEvent → Importer × List ImportedRow
  | .nothing => (importer, [])
  | .start => handleStartEvent importer ltime
  | .stop => handleStopEvent importer ltime
  | .occurs action =>
    let started := handleStartEvent importer ltime
    let after := handleAction started.1 ltime action
    (after.1, started.2 ++ after.2)

def importEvent (event : Int × LogEvent) : Importer × List ImportedRow :=
  if importer.crashed then (importer, []) else handleLogEvent importer event.1 event.2

end

/-- `parse_line`, with `last_ltime`. -/
def importLine (state : Int × Importer) (line : List Char) : (Int × Importer) × List ImportedRow :=
  match lineStart line with
  | .timed ltime text =>
    let ltime := max ltime state.1
    if ltime < settings.incremental then ((ltime, state.2), [])
    else
      let after := importEvent state.2 (ltime, readEvent settings text)
      ((ltime, after.1), after.2)
  | _ => (state, [])

def importLines : Int × Importer → List (List Char) → (Int × Importer) × List ImportedRow
  | state, [] => (state, [])
  | state, line :: lines =>
    let next := importLine settings state line
    let final := importLines next.1 lines
    (final.1, next.2 ++ final.2)

def stampedEvents : Int → List (List Char) → List (Int × LogEvent)
  | _, [] => []
  | last, line :: lines =>
    match lineStart line with
    | .timed ltime text =>
      (max ltime last, readEvent settings text) :: stampedEvents (max ltime last) lines
    | _ => stampedEvents last lines

def importEvents : Importer → List (Int × LogEvent) → Importer × List ImportedRow
  | importer, [] => (importer, [])
  | importer, event :: events =>
    let next := importEvent importer event
    let final := importEvents next.1 events
    (final.1, next.2 ++ final.2)

variable {settings}

theorem importLines_rows (last : Int) (importer : Importer) (lines : List (List Char)) :
    (importLines settings (last, importer) lines).2 =
      (importEvents importer
        ((stampedEvents settings last lines).filter (settings.incremental ≤ ·.1))).2 := by
  induction lines generalizing last importer with
  | nil => rfl
  | cons line lines ih =>
    simp only [importLines, importLine, stampedEvents]
    cases lineStart line with
    | bogus | untimed => exact ih last importer
    | timed ltime text =>
      dsimp only
      by_cases early : max ltime last < settings.incremental
      · rw [if_pos early, filter_cons_of_neg (by simpa using early)]
        exact ih _ _
      · rw [if_neg early, filter_cons_of_pos (by exact decide_eq_true (not_lt.mp early)),
          importEvents]
        dsimp only
        rw [ih]

theorem stampedEvents_sorted (last : Int) (lines : List (List Char)) :
    (∀ event ∈ stampedEvents settings last lines, last ≤ event.1) ∧
      (stampedEvents settings last lines).Pairwise fun first second => first.1 ≤ second.1 := by
  induction lines generalizing last with
  | nil => exact ⟨fun _ member => absurd member not_mem_nil, List.Pairwise.nil⟩
  | cons line lines ih =>
    rw [stampedEvents]
    cases lineStart line with
    | bogus | untimed => exact ih last
    | timed ltime text =>
      obtain ⟨later, sorted⟩ := ih (max ltime last)
      have bound := le_max_right ltime last
      refine ⟨forall_mem_cons.mpr ⟨bound, fun event member => ?_⟩,
        pairwise_cons.mpr ⟨later, sorted⟩⟩
      exact le_trans bound (later event member)

section Times

variable (importer : Importer) (ltime : Int)

theorem timestamp_handleStartEvent :
    ∀ row ∈ (handleStartEvent importer ltime).2, row.timestamp = ltime := by
  unfold handleStartEvent
  split <;> simp [ImportedRow.timestamp]

theorem timestamp_handleStopEvent :
    ∀ row ∈ (handleStopEvent importer ltime).2, row.timestamp = ltime := by
  unfold handleStopEvent
  split <;> simp [ImportedRow.timestamp]

theorem timestamp_handleAction {action : ImportAction} :
    ∀ row ∈ (handleAction importer ltime action).2, row.timestamp = ltime := by
  cases action with
  | nothing | crash => exact fun _ member => absurd member not_mem_nil
  | restart => exact timestamp_handleStopEvent importer ltime
  | check result =>
    simp only [handleAction, insertResult]
    split <;> simp [LoggedResult.row, ImportedRow.timestamp]
  | downtime object starts => simp [handleAction, ImportedRow.timestamp]

end Times

variable {importer : Importer} {row : ImportedRow}

theorem timestamp_of_mem_importEvent {event : Int × LogEvent}
    (member : row ∈ (importEvent importer event).2) : row.timestamp = event.1 := by
  obtain ⟨ltime, event⟩ := event
  unfold importEvent at member
  split at member
  · cases member
  · cases event with
    | nothing => cases member
    | start => exact timestamp_handleStartEvent importer ltime row member
    | stop => exact timestamp_handleStopEvent importer ltime row member
    | occurs action =>
      rcases mem_append.mp member with first | later
      · exact timestamp_handleStartEvent importer ltime row first
      · exact timestamp_handleAction _ ltime row later

variable {events : List (Int × LogEvent)}

theorem exists_of_mem_importEvents (member : row ∈ (importEvents importer events).2) :
    ∃ event ∈ events, row.timestamp = event.1 := by
  induction events generalizing importer with
  | nil => cases member
  | cons event events ih =>
    rcases mem_append.mp member with first | later
    · exact ⟨event, mem_cons_self, timestamp_of_mem_importEvent first⟩
    · obtain ⟨other, isOther, same⟩ := ih later
      exact ⟨other, mem_cons_of_mem _ isOther, same⟩

theorem importEvents_sorted (importer : Importer)
    (sorted : events.Pairwise fun first second => first.1 ≤ second.1) :
    (importEvents importer events).2.Pairwise (·.timestamp ≤ ·.timestamp) := by
  induction events generalizing importer with
  | nil => exact List.Pairwise.nil
  | cons event events ih =>
    obtain ⟨later, sorted⟩ := pairwise_cons.mp sorted
    refine pairwise_append.mpr ⟨pairwise_of_forall_mem_list ?_, ih _ sorted, ?_⟩
    · intro first isFirst second isSecond
      rw [timestamp_of_mem_importEvent isFirst, timestamp_of_mem_importEvent isSecond]
    · intro first isFirst second isSecond
      obtain ⟨other, isOther, same⟩ := exists_of_mem_importEvents isSecond
      rw [timestamp_of_mem_importEvent isFirst, same]
      exact later other isOther

inductive Brackets : List ImportedRow → Bool → Prop
  | empty : Brackets [] false
  | start {rows : List ImportedRow} (timestamp : Int) :
    Brackets rows false → Brackets (rows ++ [.process timestamp true]) true
  | shutdown {rows : List ImportedRow} (timestamp : Int) :
    Brackets rows true → Brackets (rows ++ [.process timestamp false]) false
  | check {rows : List ImportedRow} (timestamp : Int) (object : StateObject) (state : BitVec 32)
      (hard : Bool) (retry : BitVec 32) (output : List Char) :
    Brackets rows true → Brackets (rows ++ [.check timestamp object state hard retry output]) true
  | downtime {rows : List ImportedRow} (timestamp : Int) (object : StateObject) (starts : Bool) :
    Brackets rows true → Brackets (rows ++ [.downtime timestamp object starts]) true

section Brackets

variable {rows : List ImportedRow} {ltime : Int}

section

variable (brackets : Brackets rows importer.daemonIsRunning)

include brackets

theorem Brackets.handleStartEvent :
    Brackets (rows ++ (handleStartEvent importer ltime).2) true := by
  unfold MonitorMerlin.handleStartEvent
  cases running : importer.daemonIsRunning with
  | true =>
    rw [running] at brackets
    rwa [if_pos rfl, append_nil]
  | false =>
    rw [running] at brackets
    exact brackets.start ltime

theorem Brackets.handleStopEvent : Brackets (rows ++ (handleStopEvent importer ltime).2) false := by
  unfold MonitorMerlin.handleStopEvent
  cases running : importer.daemonIsRunning with
  | true =>
    rw [running] at brackets
    exact brackets.shutdown ltime
  | false =>
    rw [running] at brackets
    rwa [if_neg (by decide), append_nil]

theorem Brackets.handleAction (running : importer.daemonIsRunning = true) (action : ImportAction) :
    Brackets (rows ++ (handleAction importer ltime action).2)
      (handleAction importer ltime action).1.daemonIsRunning := by
  cases action with
  | nothing | crash => rwa [MonitorMerlin.handleAction, append_nil]
  | restart => exact brackets.handleStopEvent
  | check result =>
    rw [running] at brackets
    simp only [MonitorMerlin.handleAction, insertResult, running]
    split
    · exact brackets.check ..
    · rwa [append_nil]
  | downtime object starts =>
    simp only [MonitorMerlin.handleAction, running] at brackets ⊢
    exact brackets.downtime ..

theorem Brackets.importEvent (event : Int × LogEvent) :
    Brackets (rows ++ (importEvent importer event).2)
      (importEvent importer event).1.daemonIsRunning := by
  obtain ⟨ltime, event⟩ := event
  unfold MonitorMerlin.importEvent
  split
  · rwa [append_nil]
  · cases event with
    | nothing => rwa [handleLogEvent, append_nil]
    | start => exact brackets.handleStartEvent
    | stop => exact brackets.handleStopEvent
    | occurs action =>
      simp only [handleLogEvent]
      rw [← append_assoc]
      exact Brackets.handleAction brackets.handleStartEvent rfl action

theorem Brackets.importEvents (events : List (Int × LogEvent)) :
    Brackets (rows ++ (importEvents importer events).2)
      (importEvents importer events).1.daemonIsRunning := by
  induction events generalizing rows importer with
  | nil => rwa [MonitorMerlin.importEvents, append_nil]
  | cons event events ih =>
    have next := ih (brackets.importEvent event)
    rwa [append_assoc] at next

end

end Brackets

/-- The rows of an import are well bracketed and in the order of time. -/
theorem importLines_wellBracketed (settings : ImportSettings) (lines : List (List Char)) :
    (∃ running, Brackets (importLines settings (0, Importer.start) lines).2 running) ∧
      (importLines settings (0, Importer.start) lines).2.Pairwise (·.timestamp ≤ ·.timestamp) := by
  rw [importLines_rows]
  constructor
  · have start : Brackets [] Importer.start.daemonIsRunning := Brackets.empty
    have brackets := start.importEvents
      ((stampedEvents settings 0 lines).filter (settings.incremental ≤ ·.1))
    rw [nil_append] at brackets
    exact ⟨_, brackets⟩
  · exact importEvents_sorted _ ((stampedEvents_sorted 0 lines).2.filter _)

end MonitorMerlin
