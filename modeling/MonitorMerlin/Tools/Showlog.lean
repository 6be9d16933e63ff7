import MonitorMerlin.Tools.Logutils

/-! # The lines that showlog prints -/

namespace MonitorMerlin

open List

def evtProcess : BitVec 32 := 1 <<< 0
def evtNotify : BitVec 32 := 1 <<< 1
def evtAlert : BitVec 32 := 1 <<< 2
def evtCommand : BitVec 32 := 1 <<< 3
def evtState : BitVec 32 := 1 <<< 4
def evtFlapping : BitVec 32 := 1 <<< 5
def evtDowntime : BitVec 32 := 1 <<< 6
def evtLrotate : BitVec 32 := 1 <<< 7
def evtEhandler : BitVec 32 := 1 <<< 8
def evtStart : BitVec 32 := 1 <<< 9
def evtStop : BitVec 32 := 1 <<< 10
def evtLivestatus : BitVec 32 := 1 <<< 11
def evtQh : BitVec 32 := 1 <<< 12
def evtNerd : BitVec 32 := 1 <<< 13
def evtWproc : BitVec 32 := 1 <<< 14
def evtNsr : BitVec 32 := 1 <<< 15
def evtContact : BitVec 32 := 1 <<< 16
def evtHost : BitVec 32 := 1 <<< 20
def evtService : BitVec 32 := 1 <<< 21

/-- `event_codes` of `showlog.c`. -/
def eventCodes : List (StringCode (BitVec 32)) :=
  [⟨0, "Error", evtProcess⟩,
    ⟨0, "Warning", evtProcess⟩,
    ⟨0, "LOG ROTATION", evtLrotate⟩,
    ⟨0, "LOG VERSION", evtProcess⟩,
    ⟨0, "EXTERNAL COMMAND", evtCommand⟩,
    ⟨0, "livestatus", evtLivestatus⟩,
    ⟨0, "qh", evtQh ||| evtProcess⟩,
    ⟨0, "nerd", evtNerd ||| evtProcess⟩,
    ⟨0, "NERD", evtNerd ||| evtProcess⟩,
    ⟨0, "wproc", evtWproc ||| evtProcess⟩,
    ⟨5, "HOST ALERT", evtAlert ||| evtHost⟩,
    ⟨5, "INITIAL HOST STATE", evtState ||| evtHost⟩,
    ⟨5, "CURRENT HOST STATE", evtState ||| evtHost⟩,
    ⟨5, "HOST EVENT HANDLER", evtEhandler ||| evtHost⟩,
    ⟨5, "HOST NOTIFICATION", evtNotify ||| evtHost⟩,
    ⟨2, "HOST NOTIFICATION SUPPRESSED", evtNsr ||| evtNotify ||| evtHost⟩,
    ⟨2, "HOST CONTACT NOTIFICATION SUPPRESSED", evtNsr ||| evtNotify ||| evtContact ||| evtHost⟩,
    ⟨6, "SERVICE ALERT", evtAlert ||| evtService⟩,
    ⟨6, "INITIAL SERVICE STATE", evtState ||| evtService⟩,
    ⟨6, "CURRENT SERVICE STATE", evtState ||| evtService⟩,
    ⟨6, "SERVICE EVENT HANDLER", evtEhandler ||| evtService⟩,
    ⟨6, "SERVICE NOTIFICATION", evtNotify ||| evtService⟩,
    ⟨2, "SERVICE NOTIFICATION SUPPRESSED", evtNsr ||| evtNotify ||| evtService⟩,
    ⟨3, "SERVICE CONTACT NOTIFICATION SUPPRESSED", evtNsr ||| evtNotify ||| evtContact ||| evtHost⟩,
    ⟨3, "HOST DOWNTIME ALERT", evtDowntime ||| evtHost⟩,
    ⟨3, "HOST FLAPPING ALERT", evtFlapping ||| evtHost⟩,
    ⟨4, "SERVICE DOWNTIME ALERT", evtDowntime ||| evtService⟩,
    ⟨4, "SERVICE FLAPPING ALERT", evtFlapping ||| evtService⟩]

def objectFields (code : BitVec 32) : Option (Nat × Option Nat) :=
  if code ∈ [evtAlert ||| evtHost, evtState ||| evtHost, evtFlapping ||| evtHost,
      evtDowntime ||| evtHost, evtEhandler ||| evtHost, evtNsr ||| evtNotify ||| evtHost] then
    some (0, none)
  else if code ∈ [evtAlert ||| evtService, evtState ||| evtService, evtFlapping ||| evtService,
      evtDowntime ||| evtService, evtEhandler ||| evtService,
      evtNsr ||| evtNotify ||| evtService] then
    some (0, some 1)
  else if code ∈ [evtNotify ||| evtHost, evtNsr ||| evtNotify ||| evtHost ||| evtContact] then
    some (1, none)
  else if code ∈ [evtNotify ||| evtService, evtNsr ||| evtNotify ||| evtService ||| evtContact] then
    some (1, some 2)
  else none

def objectIn (strv : List (List Char)) : Nat × Option Nat → StateObject
  | (host, none) => .host (strv.getD host [])
  | (host, some service) => .service (strv.getD host []) (strv.getD service [])

/-- The filters. -/
structure ShowlogSettings where
  firstTime : Int
  lastTime : Int
  eventFilter : BitVec 32
  hostStateFilter : BitVec 32
  serviceStateFilter : BitVec 32
  statetypeFilter : BitVec 32
  restrictObjects : Bool
  hideStateDupes : Bool
  auth : AuthTables (List Char)
  interesting : InterestingObjects

namespace ShowlogSettings

variable (settings : ShowlogSettings)

def authorises : StateObject → Bool
  | .host name => authHostOk settings.auth name
  | .service host desc => authServiceOk settings.auth host desc

/-- `is_interesting`. -/
def isInteresting : StateObject → Bool
  | .host name => isInterestingHost settings.interesting name
  | .service host desc => isInterestingService settings.interesting host (some desc)

def permits (object : StateObject) : Bool :=
  (!settings.restrictObjects || settings.authorises object) && settings.isInteresting object

def stateEventPasses (filter : BitVec 32) (parseState : List Char → Option Nat)
    (object : StateObject) (state type : List Char) (tables : StateTables) :
    Option (Bool × StateTables) := do
  let hard ← softHard type
  if settings.statetypeFilter.getLsbD hard = false then some (false, tables)
  else
    let severity ← parseState state
    if filter.getLsbD severity = false then some (false, tables)
    else if settings.permits object = false then some (false, tables)
    else if settings.hideStateDupes then
      some (tables.answer ⟨object, BitVec.ofNat 32 severity, BitVec.ofNat 32 hard⟩)
    else some (true, tables)

def eventPasses (code : BitVec 32) (strv : List (List Char)) (tables : StateTables) :
    Option (Bool × StateTables) :=
  match (objectFields code).map (objectIn strv) with
  | none => some (true, tables)
  | some object =>
    if code ∈ [evtAlert ||| evtHost, evtState ||| evtHost] then
      settings.stateEventPasses settings.hostStateFilter parseHostState object
        (strv.getD 1 []) (strv.getD 2 []) tables
    else if code ∈ [evtAlert ||| evtService, evtState ||| evtService] then
      settings.stateEventPasses settings.serviceStateFilter parseServiceState object
        (strv.getD 2 []) (strv.getD 3 []) tables
    else some (settings.permits object, tables)

end ShowlogSettings

inductive LineVerdict where
  | crashes
  | returns (tables : StateTables)
  | prints (tables : StateTables) (type : BitVec 32) (line : List Char)

section Filter

variable (vectorize : Nat → List Char → List Char × List (List Char)) (settings : ShowlogSettings)
  (tables : StateTables)

def filterMessage (line : List Char) : LineVerdict :=
  if settings.eventFilter &&& evtProcess = 0 then .returns tables
  else if isStartEvent line then
    if settings.restrictObjects then .returns tables else .prints tables evtStart line
  else if isStopEvent line then
    if settings.restrictObjects then .returns tables else .prints tables evtStop line
  else .returns tables

def filterFields (sc : StringCode (BitVec 32)) (front : List Char)
    (split : List Char × List (List Char)) : LineVerdict :=
  if split.2.length ≠ sc.nvecs then .returns tables
  else
    match settings.eventPasses sc.code split.2 tables with
    | none => .crashes
    | some (false, tables) => .returns tables
    | some (true, tables) => .prints tables sc.code (front ++ split.1)

def filterEvent (sc : StringCode (BitVec 32)) (front ptr : List Char) : LineVerdict :=
  if sc.code = 0 ∨ sc.code &&& settings.eventFilter ≠ sc.code then .returns tables
  else
    filterFields settings tables sc front
      (if sc.nvecs = 0 then (ptr, []) else vectorize sc.nvecs ptr)

/-- `parse_line` up to the call of `print_line`. -/
def filterLine (origLine : List Char) : LineVerdict :=
  match lineStart origLine with
  | .bogus => .returns tables
  | .untimed => .crashes
  | .timed ltime line =>
    if ltime < settings.firstTime ∨ settings.lastTime < ltime then .returns tables
    else if isInteresting line = false then .returns tables
    else
      match strchr ':' line with
      | none => filterMessage settings tables line
      | some (type, rest) =>
        match getStringCode eventCodes type with
        | none => .returns tables
        | some sc =>
          filterEvent vectorize settings tables sc (type ++ ':' :: rest.takeWhile (· == ' '))
            (rest.dropWhile (· == ' '))

end Filter

structure Showlog where
  skip : Nat
  limit : Nat
  tables : StateTables
  printed : List (BitVec 32 × List Char)
  exited : Bool

/-- `pre_print_mangle_line`. -/
def mangle (line : List Char) : List Char := line.map fun char => if char = nul then ';' else char

/-- `print_line`. -/
def printLine (state : Showlog) (type : BitVec 32) (line : List Char) : Showlog :=
  if 0 < state.skip then { state with skip := state.skip - 1 }
  else
    { state with
      printed := state.printed ++ [(type, mangle line)]
      limit := state.limit - 1
      exited := decide (state.limit = 1) }

/-- `parse_line` of `showlog.c`. -/
def showlogLine (settings : ShowlogSettings) (state : Showlog) (line : List Char) : Showlog :=
  if state.exited then state
  else
    match filterLine vectorizeString settings state.tables line with
    | .crashes => { state with exited := true }
    | .returns tables => { state with tables }
    | .prints tables type line => printLine { state with tables } type line

def showlog (settings : ShowlogSettings) (state : Showlog) (lines : List (List Char)) : Showlog :=
  lines.foldl (showlogLine settings) state

def plainFields (nvecs : Nat) (str : List Char) : List Char × List (List Char) :=
  (str, cutFields (nvecs - 1) str)

def lineText (line : List Char) : List Char :=
  match lineStart line with
  | .timed _ text => text
  | _ => []

def accepted (settings : ShowlogSettings) :
    StateTables → List (List Char) → List (BitVec 32 × List Char)
  | _, [] => []
  | tables, line :: lines =>
    match filterLine plainFields settings tables line with
    | .crashes => []
    | .returns tables => accepted settings tables lines
    | .prints tables type _ => (type, lineText line) :: accepted settings tables lines

def cutOff {α : Type} (limit : Nat) (list : List α) : List α :=
  if limit = 0 then list else list.take limit

def LineVerdict.mangled : LineVerdict → LineVerdict
  | .crashes => .crashes
  | .returns tables => .returns tables
  | .prints tables type line => .prints tables type (mangle line)

theorem mangle_eq_self {text : List Char} (noNul : nul ∉ text) : mangle text = text := by
  have same : ∀ char ∈ text, (if char = nul then ';' else char) = char :=
    fun char member => if_neg fun (isNul : char = nul) => noNul (isNul ▸ member)
  rw [mangle, map_congr_left same, map_id']

theorem mangle_vectorizeFrom (nvecs i : Nat) {str : List Char} (noNul : nul ∉ str) :
    mangle (vectorizeFrom nvecs i str).1 = str := by
  induction str generalizing i with
  | nil => rfl
  | cons char text ih =>
    have whole := mangle_eq_self noNul
    rw [mem_cons, not_or] at noNul
    rw [vectorizeFrom]
    split
    · exact whole
    · split
      · rename_i cut
        rw [mangle, map_cons, ← mangle, ih (i + 1) noNul.2, cut]
        rfl
      · rw [mangle, map_cons, ← mangle, ih i noNul.2, if_neg (Ne.symm noNul.1)]

variable {settings : ShowlogSettings} {tables : StateTables} {sc : StringCode (BitVec 32)}
  {front ptr line : List Char} {state : Showlog} {α : Type}

theorem filterFields_mangled (noNul : nul ∉ front) (str : List Char) (strv : List (List Char)) :
    (filterFields settings tables sc front (str, strv)).mangled =
      filterFields settings tables sc front (mangle str, strv) := by
  rw [filterFields, filterFields]
  split
  · rfl
  · dsimp only
    rcases settings.eventPasses sc.code strv tables with - | ⟨- | -, after⟩
    · rfl
    · rfl
    · rw [LineVerdict.mangled, mangle, map_append, ← mangle, ← mangle, mangle_eq_self noNul]

theorem filterEvent_mangled (noNul : nul ∉ front ++ ptr) :
    (filterEvent vectorizeString settings tables sc front ptr).mangled =
      filterEvent plainFields settings tables sc front ptr := by
  rw [mem_append, not_or] at noNul
  rw [filterEvent, filterEvent]
  split
  · rfl
  · rw [filterFields_mangled noNul.1]
    split
    · rw [mangle_eq_self noNul.2]
    · rw [vectorizeString_fields noNul.2, vectorizeString, mangle_vectorizeFrom _ _ noNul.2]
      rfl

theorem filterMessage_mangled (noNul : nul ∉ line) :
    (filterMessage settings tables line).mangled = filterMessage settings tables line := by
  have restored (type : BitVec 32) :
      (LineVerdict.prints tables type line).mangled = .prints tables type line := by
    rw [LineVerdict.mangled, mangle_eq_self noNul]
  unfold filterMessage
  repeat' split
  all_goals first | rfl | exact restored _

theorem event_parts {text type rest : List Char} (colon : strchr ':' text = some (type, rest)) :
    type ++ ':' :: rest.takeWhile (· == ' ') ++ rest.dropWhile (· == ' ') = text := by
  rw [append_assoc, cons_append, takeWhile_append_dropWhile, ← (strchr_eq_some colon).1]

theorem filterLine_mangled (noNul : nul ∉ line) :
    (filterLine vectorizeString settings tables line).mangled =
      filterLine plainFields settings tables line := by
  rw [filterLine, filterLine]
  cases start : lineStart line with
  | bogus | untimed => rfl
  | timed ltime text =>
    have noNulText : nul ∉ text := fun member => noNul ((lineStart_suffix start).mem member)
    dsimp only
    split
    · rfl
    · split
      · rfl
      · cases colon : strchr ':' text with
        | none => exact filterMessage_mangled noNulText
        | some parts =>
          dsimp only
          cases getStringCode eventCodes parts.1 with
          | none => rfl
          | some sc => exact filterEvent_mangled (by rwa [event_parts colon])

section Text

variable {after : StateTables} {type : BitVec 32} {text : List Char}

theorem filterMessage_text
    (prints : filterMessage settings tables line = .prints after type text) : text = line := by
  unfold filterMessage at prints
  repeat' split at prints
  all_goals cases prints
  all_goals rfl

theorem filterFields_text {split : List Char × List (List Char)}
    (prints : filterFields settings tables sc front split = .prints after type text) :
    text = front ++ split.1 := by
  rw [filterFields] at prints
  split at prints
  · cases prints
  · split at prints
    · cases prints
    · cases prints
    · cases prints
      rfl

theorem filterEvent_text
    (prints : filterEvent plainFields settings tables sc front ptr = .prints after type text) :
    text = front ++ ptr := by
  rw [filterEvent] at prints
  split at prints
  · cases prints
  · rw [filterFields_text prints]
    split <;> rfl

theorem filterLine_text
    (prints : filterLine plainFields settings tables line = .prints after type text) :
    text = lineText line := by
  rw [filterLine] at prints
  rw [lineText]
  cases start : lineStart line with
  | bogus | untimed =>
    rw [start] at prints
    cases prints
  | timed ltime rest =>
    rw [start] at prints
    dsimp only at prints ⊢
    split at prints
    · cases prints
    · split at prints
      · cases prints
      · cases colon : strchr ':' rest with
        | none =>
          rw [colon] at prints
          exact filterMessage_text prints
        | some parts =>
          rw [colon] at prints
          dsimp only at prints
          split at prints
          · cases prints
          · rw [filterEvent_text prints, event_parts colon]

end Text

theorem showlog_of_exited (exited : state.exited = true) (lines : List (List Char)) :
    showlog settings state lines = state := by
  induction lines with
  | nil => rfl
  | cons line lines ih =>
    rw [showlog, foldl_cons, showlogLine, if_pos exited]
    exact ih

theorem cutOff_nil (limit : Nat) : cutOff limit ([] : List α) = [] := by
  rw [cutOff, take_nil, ite_self]

theorem cutOff_cons (limit : Nat) (first : α) (rest : List α) :
    cutOff limit (first :: rest) = first :: if limit = 1 then [] else cutOff (limit - 1) rest := by
  rcases limit with - | - | limit
  · rfl
  · rfl
  · rfl

theorem printLine_printed (state : Showlog) (type : BitVec 32) (line : List Char)
    (rest : List (BitVec 32 × List Char)) (running : state.exited = false) :
    (printLine state type line).printed ++
        (if (printLine state type line).exited = true then []
          else cutOff (printLine state type line).limit
            (rest.drop (printLine state type line).skip)) =
      state.printed ++ cutOff state.limit (((type, mangle line) :: rest).drop state.skip) := by
  by_cases skipping : 0 < state.skip
  · obtain ⟨more, isSkip⟩ := Nat.exists_eq_succ_of_ne_zero (Nat.ne_of_gt skipping)
    rw [printLine, if_pos skipping]
    dsimp only
    rw [running, if_neg (by decide), isSkip, drop_succ_cons]
    rfl
  · rw [printLine, if_neg skipping]
    dsimp only
    rw [Nat.eq_zero_of_not_pos skipping, drop_zero, drop_zero, cutOff_cons,
      append_assoc, singleton_append]
    simp only [decide_eq_true_eq]

theorem printLine_tables (state : Showlog) (type : BitVec 32) (line : List Char) :
    (printLine state type line).tables = state.tables := by
  unfold printLine
  split <;> rfl

theorem showlog_printed_append (settings : ShowlogSettings) {lines : List (List Char)}
    (noNul : ∀ line ∈ lines, nul ∉ line) (running : state.exited = false) :
    (showlog settings state lines).printed = state.printed ++
      cutOff state.limit ((accepted settings state.tables lines).drop state.skip) := by
  induction lines generalizing state with
  | nil =>
    rw [accepted, drop_nil, cutOff_nil, append_nil]
    rfl
  | cons line lines ih =>
    obtain ⟨noNulLine, noNulLines⟩ := forall_mem_cons.mp noNul
    have verdict : (filterLine vectorizeString settings state.tables line).mangled =
        filterLine plainFields settings state.tables line :=
      filterLine_mangled noNulLine
    rw [showlog, foldl_cons, ← showlog, showlogLine, if_neg (by rw [running]; decide),
      accepted, ← verdict]
    cases isVerdict : filterLine vectorizeString settings state.tables line with
    | crashes =>
      dsimp only [LineVerdict.mangled]
      rw [showlog_of_exited rfl, drop_nil, cutOff_nil, append_nil]
    | returns tables => exact ih noNulLines running
    | prints tables type text =>
      rw [isVerdict] at verdict
      have isText := filterLine_text verdict.symm
      dsimp only [LineVerdict.mangled]
      rw [← isText, ← printLine_printed { state with tables } type text _ running]
      cases exited : (printLine { state with tables } type text).exited with
      | true => rw [showlog_of_exited exited, if_pos rfl, append_nil]
      | false => rw [ih noNulLines exited, if_neg (by decide), printLine_tables]

/-- A run prints what the filters accept, without the first lines and up to the limit. -/
theorem showlog_printed (settings : ShowlogSettings) (skip limit : Nat) {lines : List (List Char)}
    (noNul : ∀ line ∈ lines, nul ∉ line) :
    (showlog settings ⟨skip, limit, stateInit, [], false⟩ lines).printed =
      cutOff limit ((accepted settings stateInit lines).drop skip) :=
  showlog_printed_append settings noNul rfl

def showEverything : ShowlogSettings where
  firstTime := 0
  lastTime := 2000000000
  eventFilter := BitVec.allOnes 32
  hostStateFilter := BitVec.allOnes 32
  serviceStateFilter := BitVec.allOnes 32
  statetypeFilter := BitVec.allOnes 32
  restrictObjects := false
  hideStateDupes := false
  auth := ⟨[], []⟩
  interesting := ⟨none, none⟩

def errorLine : List Char := "[1234567890] Error: e".toList

theorem showlog_printed_errorLine :
    (showlog showEverything ⟨0, 1, stateInit, [], false⟩ [errorLine, errorLine]).printed =
      cutOff 1 ((accepted showEverything stateInit [errorLine, errorLine]).drop 0) :=
  showlog_printed showEverything 0 1 (by decide)

theorem not_printed_behind_untimed :
    (showlog showEverything ⟨0, 0, stateInit, [], false⟩ [errorLine]).printed =
        [(evtProcess, "Error: e".toList)] ∧
      (showlog showEverything ⟨0, 0, stateInit, [], false⟩
        ["[x234567890] Error: e".toList, errorLine]).printed = [] := by
  decide

end MonitorMerlin
