import MonitorMerlin.Tools.Import

/-! # Incremental imports -/

namespace MonitorMerlin

open List

def latest (rows : List ImportedRow) : Int := rows.foldl (fun time row => max time row.timestamp) 0

section

variable (settings : ImportSettings)

def importOf (incremental : Int) (lines : List (List Char)) :
    List ImportedRow :=
  (importLines { settings with incremental } (0, Importer.start) lines).2

/-- An incremental import adds what a full one would. -/
def IncrementalEqualsFull (old new : List (List Char)) : Prop :=
  let rows := importOf settings 0 old
  (rows ++ importOf settings (latest rows) (old ++ new)).Perm (importOf settings 0 (old ++ new))

def LogEvent.starts : LogEvent → Bool
  | .start => true
  | .occurs _ => true
  | _ => false

def checkCalls : List LogEvent → List StateCall
  | [] => []
  | .occurs .crash :: _ => []
  | .occurs (.check result) :: events => result.call :: checkCalls events
  | _ :: events => checkCalls events

def lineCalls (lines : List (List Char)) : List StateCall :=
  checkCalls ((stampedEvents settings 0 lines).map Prod.snd)

/-- Nothing from the last row on starts the daemon. -/
def EndsStopped (lines : List (List Char)) : Prop :=
  ∀ event ∈ stampedEvents settings 0 lines,
    latest (importOf settings 0 lines) ≤ event.1 → event.2.starts = false

/-- First results of new lines are for new states. -/
def StatesChange (old new : List (List Char)) : Prop :=
  ∀ object call, (lineCalls settings new).find? (fun call => call.object = object) = some call →
    (lastCall (lineCalls settings old) object).map StateCall.code ≠ some call.code

theorem importEvents_append (importer : Importer) (first second : List (Int × LogEvent)) :
    importEvents importer (first ++ second) =
      ((importEvents (importEvents importer first).1 second).1,
        (importEvents importer first).2 ++
          (importEvents (importEvents importer first).1 second).2) := by
  induction first generalizing importer with
  | nil => rfl
  | cons event first ih => simp only [cons_append, importEvents, ih, append_assoc]

theorem importEvents_idle {importer : Importer} {events : List (Int × LogEvent)}
    (idle : ∀ event ∈ events, importEvent importer event = (importer, [])) :
    importEvents importer events = (importer, []) := by
  induction events with
  | nil => rfl
  | cons event events ih =>
    obtain ⟨idleFirst, idleLater⟩ := forall_mem_cons.mp idle
    simp only [importEvents, idleFirst, ih idleLater, append_nil]

theorem importEvents_of_crashed {importer : Importer} (crashed : importer.crashed = true)
    (events : List (Int × LogEvent)) : importEvents importer events = (importer, []) :=
  importEvents_idle fun _ _ => if_pos crashed

theorem stampedEvents_append (last : Int)
    (first second : List (List Char)) :
    ∃ later, stampedEvents settings last (first ++ second) =
      stampedEvents settings last first ++ stampedEvents settings later second := by
  induction first generalizing last with
  | nil => exact ⟨last, rfl⟩
  | cons line first ih =>
    rw [cons_append, stampedEvents, stampedEvents]
    cases lineStart line with
    | bogus | untimed => exact ih last
    | timed ltime text =>
      obtain ⟨later, same⟩ := ih (max ltime last)
      exact ⟨later, congrArg (_ :: ·) same⟩

theorem stampedEvents_map (last other : Int)
    (lines : List (List Char)) :
    (stampedEvents settings last lines).map Prod.snd =
      (stampedEvents settings other lines).map Prod.snd := by
  induction lines generalizing last other with
  | nil => rfl
  | cons line lines ih =>
    rw [stampedEvents, stampedEvents]
    cases lineStart line with
    | bogus | untimed => exact ih last other
    | timed ltime text => exact congrArg (_ :: ·) (ih _ _)

end

theorem exists_append_filter {events : List (Int × LogEvent)} (time : Int)
    (sorted : events.Pairwise fun first second => first.1 ≤ second.1) :
    ∃ before, events = before ++ events.filter (time ≤ ·.1) ∧ ∀ event ∈ before, event.1 < time := by
  induction events with
  | nil => exact ⟨[], rfl, fun _ member => absurd member not_mem_nil⟩
  | cons event events ih =>
    obtain ⟨later, sorted⟩ := pairwise_cons.mp sorted
    by_cases late : time ≤ event.1
    · refine ⟨[], ?_, fun _ member => absurd member not_mem_nil⟩
      rw [nil_append, filter_eq_self.mpr]
      intro other member
      rcases mem_cons.mp member with rfl | member
      · exact decide_eq_true late
      · exact decide_eq_true (le_trans late (later other member))
    · obtain ⟨before, parts, early⟩ := ih sorted
      refine ⟨event :: before, ?_, forall_mem_cons.mpr ⟨not_le.mp late, early⟩⟩
      rw [filter_cons_of_neg (by simpa using late), cons_append, ← parts]

theorem latest_cases (rows : List ImportedRow) :
    (∀ row ∈ rows, row.timestamp ≤ latest rows) ∧
      (latest rows = 0 ∨ ∃ row ∈ rows, row.timestamp = latest rows) := by
  induction rows using reverseRecOn with
  | nil => exact ⟨fun _ member => absurd member not_mem_nil, .inl rfl⟩
  | append_singleton rows row held =>
    obtain ⟨bound, reached⟩ := held
    have isLatest : latest (rows ++ [row]) = max (latest rows) row.timestamp := by
      rw [latest, foldl_append]
      rfl
    rw [isLatest]
    constructor
    · intro other member
      rcases mem_append.mp member with earlier | last
      · exact le_trans (bound other earlier) (le_max_left _ _)
      · rw [mem_singleton.mp last]
        exact le_max_right _ _
    · rcases max_choice (latest rows) row.timestamp with isMax | isMax
      · rw [isMax]
        refine reached.imp_right fun ⟨other, member, same⟩ => ?_
        exact ⟨other, mem_append_left _ member, same⟩
      · exact .inr ⟨row, mem_append_right _ mem_cons_self, isMax.symm⟩

def Importer.flags (importer : Importer) : Bool × Bool :=
  (importer.daemonIsRunning, importer.crashed)

def countStarts (rows : List ImportedRow) : Nat :=
  rows.countP fun
    | .process _ true => true
    | _ => false

theorem countStarts_append (first second : List ImportedRow) :
    countStarts (first ++ second) = countStarts first + countStarts second := countP_append

theorem countStarts_insertResult (importer : Importer) (ltime : Int) (result : LoggedResult) :
    countStarts (insertResult importer ltime result).2 = 0 := by
  unfold insertResult
  dsimp only
  split <;> rfl

section Flags

variable {importer other : Importer}

theorem importEvent_flags (same : importer.flags = other.flags) (event : Int × LogEvent) :
    (importEvent importer event).1.flags = (importEvent other event).1.flags ∧
      countStarts (importEvent importer event).2 = countStarts (importEvent other event).2 := by
  obtain ⟨ltime, event⟩ := event
  obtain ⟨sameRunning, sameCrashed⟩ := Prod.mk.inj same
  unfold importEvent
  rw [← sameCrashed]
  split
  · exact ⟨same, rfl⟩
  · cases event with
    | nothing => exact ⟨same, rfl⟩
    | start => simp [handleLogEvent, handleStartEvent, Importer.flags, sameRunning, sameCrashed]
    | stop => simp [handleLogEvent, handleStopEvent, Importer.flags, sameRunning, sameCrashed]
    | occurs action =>
      cases action with
      | check result =>
        simp only [handleLogEvent, handleAction, countStarts_append, countStarts_insertResult,
          handleStartEvent, sameRunning]
        simp [insertResult, Importer.flags, sameCrashed]
      | nothing | crash | restart | downtime object starts =>
        simp [handleLogEvent, handleAction, handleStartEvent, handleStopEvent, Importer.flags,
          sameRunning, sameCrashed]

theorem importEvents_flags (same : importer.flags = other.flags) (events : List (Int × LogEvent)) :
    (importEvents importer events).1.flags = (importEvents other events).1.flags ∧
      countStarts (importEvents importer events).2 = countStarts (importEvents other events).2 := by
  induction events generalizing importer other with
  | nil => exact ⟨same, rfl⟩
  | cons event events ih =>
    obtain ⟨sameNext, sameStarts⟩ := importEvent_flags same event
    obtain ⟨sameFinal, sameLater⟩ := ih sameNext
    refine ⟨sameFinal, ?_⟩
    simp only [importEvents, countStarts_append, sameStarts, sameLater]

theorem importEvent_nothing (importer : Importer) (ltime : Int) :
    importEvent importer (ltime, .nothing) = (importer, []) := by
  unfold importEvent
  split <;> rfl

variable {event : Int × LogEvent}

theorem importEvent_forgets (going : importer.crashed = false)
    (otherGoing : other.crashed = false) (notNothing : event.2 ≠ .nothing) :
    (importEvent importer event).1.flags = (importEvent other event).1.flags := by
  obtain ⟨ltime, event⟩ := event
  unfold importEvent
  rw [going, otherGoing, if_neg (by decide), if_neg (by decide)]
  cases event with
  | nothing => exact absurd rfl notNothing
  | start | stop =>
    simp [handleLogEvent, handleStartEvent, handleStopEvent, Importer.flags, going, otherGoing]
  | occurs action =>
    cases action with
    | nothing | crash | restart | check result | downtime object starts =>
      simp [handleLogEvent, handleAction, handleStartEvent, handleStopEvent, insertResult,
        Importer.flags, going, otherGoing]

variable {events : List (Int × LogEvent)}

theorem importEvents_forgets (going : importer.crashed = false)
    (otherGoing : other.crashed = false) (starter : ∃ event ∈ events, event.2.starts = true) :
    (importEvents importer events).1.flags = (importEvents other events).1.flags := by
  induction events with
  | nil =>
    obtain ⟨event, member, _⟩ := starter
    cases member
  | cons event events ih =>
    obtain ⟨ltime, said⟩ := event
    by_cases nothing : said = .nothing
    · subst nothing
      simp only [importEvents, importEvent_nothing]
      apply ih
      obtain ⟨event, member, starts⟩ := starter
      rcases mem_cons.mp member with rfl | member
      · cases starts
      · exact ⟨event, member, starts⟩
    · exact (importEvents_flags (importEvent_forgets going otherGoing nothing) events).1

theorem importEvent_silent (stopped : importer.daemonIsRunning = false)
    (silent : event.2.starts = false) : importEvent importer event = (importer, []) := by
  obtain ⟨ltime, said⟩ := event
  cases said with
  | nothing => exact importEvent_nothing importer ltime
  | stop =>
    obtain ⟨running, tables, crashed⟩ := importer
    cases stopped
    unfold importEvent
    split <;> rfl
  | start | occurs action => cases silent

theorem importEvent_starts (stopped : importer.flags = (false, false))
    (starts : event.2.starts = true) : 0 < countStarts (importEvent importer event).2 := by
  obtain ⟨ltime, said⟩ := event
  obtain ⟨notRunning, going⟩ := Prod.mk.inj stopped
  have started : countStarts (handleStartEvent importer ltime).2 = 1 := by
    rw [handleStartEvent, notRunning]
    rfl
  rw [importEvent, going, if_neg (by decide)]
  cases said with
  | nothing | stop => cases starts
  | start =>
    rw [handleLogEvent, started]
    exact Nat.one_pos
  | occurs action =>
    simp only [handleLogEvent, countStarts_append, started]
    omega

theorem importEvents_stopped (stopped : importer.daemonIsRunning = false)
    (silent : ∀ event ∈ events, event.2.starts = false) :
    importEvents importer events = (importer, []) :=
  importEvents_idle fun event member => importEvent_silent stopped (silent event member)

theorem countStarts_pos (stopped : importer.flags = (false, false))
    (starter : ∃ event ∈ events, event.2.starts = true) :
    0 < countStarts (importEvents importer events).2 := by
  obtain ⟨event, found⟩ := Option.isSome_iff_exists.mp (find?_isSome.mpr starter)
  obtain ⟨starts, before, later, rfl, silent⟩ := find?_eq_some_iff_append.mp found
  rw [importEvents_append, importEvents_stopped (Prod.mk.inj stopped).1 (by simpa using silent)]
  simp only [importEvents, countStarts_append]
  have started := importEvent_starts stopped starts
  omega

theorem flags_of_stop (silent : ∀ event ∈ events, event.2.starts = false)
    (inserts : (importEvents importer events).2 ≠ []) :
    (importEvents importer events).1.flags = (false, false) := by
  induction events with
  | nil => exact absurd rfl inserts
  | cons event events ih =>
    obtain ⟨silentFirst, silentLater⟩ := forall_mem_cons.mp silent
    obtain ⟨ltime, said⟩ := event
    cases crashed : importer.crashed with
    | true =>
      rw [importEvents_of_crashed crashed] at inserts
      exact absurd rfl inserts
    | false =>
      cases said with
      | nothing =>
        simp only [importEvents, importEvent_nothing, nil_append] at inserts ⊢
        exact ih silentLater inserts
      | stop =>
        have stops : importEvent importer (ltime, .stop) = handleStopEvent importer ltime := by
          rw [importEvent, crashed, if_neg (by decide)]
          rfl
        have stopped : (handleStopEvent importer ltime).1.daemonIsRunning = false := rfl
        simp only [importEvents, stops, importEvents_stopped stopped silentLater]
        exact congrArg (Prod.mk false) crashed
      | start | occurs action => cases silentFirst

end Flags

section States

variable {importer other : Importer}

theorem tables_importEvents (going : importer.crashed = false) (events : List (Int × LogEvent)) :
    (importEvents importer events).1.tables =
      importer.tables.after (checkCalls (events.map Prod.snd)) := by
  induction events generalizing importer with
  | nil => rfl
  | cons event events ih =>
    obtain ⟨ltime, said⟩ := event
    have handled : importEvent importer (ltime, said) = handleLogEvent importer ltime said := by
      rw [importEvent, going, if_neg (by decide)]
    rw [importEvents, handled]
    cases said with
    | nothing | start | stop => exact ih going
    | occurs action =>
      cases action with
      | crash =>
        dsimp only
        rw [importEvents_of_crashed rfl]
        rfl
      | nothing | restart | check result | downtime object starts => exact ih going

def Known (tables new : StateTables) : Prop :=
  ∀ object, new.find object = none ∨ new.find object = tables.find object

variable {tables new : StateTables}

theorem Known.answer (known : Known tables new) (call : StateCall) :
    Known (tables.answer call).2 (new.answer call).2 := by
  intro object
  rw [StateTables.find_answer, StateTables.find_answer]
  split
  · exact .inr rfl
  · exact known object

def ChangesUnknown (tables new : StateTables) (calls : List StateCall) : Prop :=
  ∀ object call, new.find object = none →
    calls.find? (fun call => call.object = object) = some call → tables.find object ≠ some call.code

theorem changesUnknown_nil (tables new : StateTables) : ChangesUnknown tables new [] :=
  fun _ _ _ found => by cases found

theorem changesUnknown_cons (call : StateCall) (calls : List StateCall) :
    ChangesUnknown tables new (call :: calls) ↔
      (new.find call.object = none → tables.find call.object ≠ some call.code) ∧
        ChangesUnknown (tables.answer call).2 (new.answer call).2 calls := by
  constructor
  · refine fun changes => ⟨fun unknown => changes _ call unknown (by simp), ?_⟩
    intro object later unknown found
    rw [StateTables.find_answer] at unknown ⊢
    split_ifs at unknown ⊢ with same
    exact changes object later unknown (by simpa [same] using found)
  · rintro ⟨changesFirst, changesLater⟩ object first unknown found
    by_cases same : call.object = object
    · subst same
      have isFirst : call = first := by simpa using found
      exact isFirst ▸ changesFirst unknown
    · have later := changesLater object first
      rw [StateTables.find_answer, StateTables.find_answer, if_neg same, if_neg same] at later
      exact later unknown (by simpa [same] using found)

theorem insertResult_rows (importer : Importer) (ltime : Int) (result : LoggedResult) :
    (insertResult importer ltime result).2 =
      if importer.tables.find result.object = some result.call.code then []
      else [result.row ltime] := by
  have answer := importer.tables.answer_eq_true_iff result.call
  unfold insertResult
  dsimp only
  by_cases known : importer.tables.find result.object = some result.call.code
  · rw [if_pos known, if_neg fun changed => answer.mp changed known]
  · rw [if_neg known, if_pos (answer.mpr known)]

theorem insertResult_compare (known : Known other.tables importer.tables) (ltime : Int)
    (result : LoggedResult) :
    (insertResult other ltime result).2.Sublist (insertResult importer ltime result).2 ∧
      ((insertResult importer ltime result).2 = (insertResult other ltime result).2 ↔
        (importer.tables.find result.object = none →
          other.tables.find result.object ≠ some result.call.code)) := by
  rw [insertResult_rows, insertResult_rows]
  rcases known result.object with unknown | same
  · have differs : importer.tables.find result.object ≠ some result.call.code := by
      rw [unknown]
      exact Option.some_ne_none _ |>.symm
    rw [if_neg differs]
    by_cases repeated : other.tables.find result.object = some result.call.code
    · simp [unknown, repeated]
    · simp [repeated]
  · rw [same]
    refine ⟨List.Sublist.refl _, fun _ unknown => ?_, fun _ => rfl⟩
    simp [unknown]

theorem append_eq_append_iff_of_sublist {α : Type} {first second rest others : List α}
    (isFirst : second.Sublist first) (isRest : others.Sublist rest) :
    first ++ rest = second ++ others ↔ first = second ∧ rest = others := by
  constructor
  · intro same
    have lengths := congrArg List.length same
    rw [length_append, length_append] at lengths
    have shorter := isFirst.length_le
    have shorterRest := isRest.length_le
    exact ⟨(isFirst.eq_of_length (by omega)).symm, (isRest.eq_of_length (by omega)).symm⟩
  · rintro ⟨rfl, rfl⟩
    rfl

variable {said : LogEvent}

theorem importEvent_plain (same : importer.flags = other.flags) (going : importer.crashed = false)
    (ltime : Int) (noCheck : ∀ result, said ≠ .occurs (.check result))
    (noCrash : said ≠ .occurs .crash) :
    (importEvent importer (ltime, said)).2 = (importEvent other (ltime, said)).2 ∧
      (importEvent importer (ltime, said)).1.tables = importer.tables ∧
      (importEvent other (ltime, said)).1.tables = other.tables ∧
      (importEvent importer (ltime, said)).1.crashed = false := by
  obtain ⟨sameRunning, sameCrashed⟩ := Prod.mk.inj same
  unfold importEvent
  rw [← sameCrashed, going, if_neg (by decide), if_neg (by decide)]
  cases said with
  | nothing => exact ⟨rfl, rfl, rfl, going⟩
  | start | stop => simp [handleLogEvent, handleStartEvent, handleStopEvent, sameRunning, going]
  | occurs action =>
    cases action with
    | crash => exact absurd rfl noCrash
    | check result => exact absurd rfl (noCheck result)
    | nothing | restart | downtime object starts =>
      simp [handleLogEvent, handleAction, handleStartEvent, handleStopEvent, sameRunning, going]

theorem checkCalls_plain (noCheck : ∀ result, said ≠ .occurs (.check result))
    (noCrash : said ≠ .occurs .crash) (events : List LogEvent) :
    checkCalls (said :: events) = checkCalls events := by
  cases said with
  | nothing | start | stop => rfl
  | occurs action =>
    cases action with
    | crash => exact absurd rfl noCrash
    | check result => exact absurd rfl (noCheck result)
    | nothing | restart | downtime object starts => rfl

theorem importEvents_compare (same : importer.flags = other.flags)
    (going : importer.crashed = false) (known : Known other.tables importer.tables)
    (events : List (Int × LogEvent)) :
    (importEvents other events).2.Sublist (importEvents importer events).2 ∧
      ((importEvents importer events).2 = (importEvents other events).2 ↔
        ChangesUnknown other.tables importer.tables (checkCalls (events.map Prod.snd))) := by
  induction events generalizing importer other with
  | nil => exact ⟨List.Sublist.refl _, iff_of_true rfl (changesUnknown_nil _ _)⟩
  | cons event events ih =>
    obtain ⟨ltime, said⟩ := event
    have sameNext := (importEvent_flags same (ltime, said)).1
    obtain ⟨sameRunning, sameCrashed⟩ := Prod.mk.inj same
    have started : (handleStartEvent importer ltime).2 = (handleStartEvent other ltime).2 := by
      rw [handleStartEvent, handleStartEvent, sameRunning]
    have handled (this : Importer) (goesOn : this.crashed = false) :
        importEvent this (ltime, said) = handleLogEvent this ltime said := by
      rw [importEvent, goesOn, if_neg (by decide)]
    by_cases isCrash : said = .occurs .crash
    · subst isCrash
      have rows (this : Importer) (goesOn : this.crashed = false) :
          (importEvents this ((ltime, .occurs .crash) :: events)).2 =
            (handleStartEvent this ltime).2 := by
        rw [importEvents, handled this goesOn]
        dsimp only
        rw [importEvents_of_crashed rfl, append_nil]
        exact append_nil _
      rw [rows importer going, rows other (sameCrashed ▸ going), started]
      exact ⟨List.Sublist.refl _, iff_of_true rfl (changesUnknown_nil _ _)⟩
    · by_cases isCheck : ∃ result, said = .occurs (.check result)
      · obtain ⟨result, rfl⟩ := isCheck
        rw [handled importer going, handled other (sameCrashed ▸ going)] at sameNext
        obtain ⟨shorter, equal⟩ := ih sameNext going (known.answer result.call)
        have startedKnown : Known (handleStartEvent other ltime).1.tables
            (handleStartEvent importer ltime).1.tables := known
        obtain ⟨shorterFirst, equalFirst⟩ := insertResult_compare startedKnown ltime result
        rw [importEvents, importEvents, handled importer going,
          handled other (sameCrashed ▸ going), map_cons, checkCalls, changesUnknown_cons]
        dsimp only [handleLogEvent, handleAction]
        rw [started, append_assoc, append_assoc, append_right_inj]
        exact ⟨List.Sublist.append_left (shorterFirst.append shorter) _,
          (append_eq_append_iff_of_sublist shorterFirst shorter).trans (and_congr equalFirst equal)⟩
      · obtain ⟨sameRows, sameTables, sameOther, goesOn⟩ :=
          importEvent_plain same going ltime (fun result is => isCheck ⟨result, is⟩) isCrash
        have calls := checkCalls_plain (fun result is => isCheck ⟨result, is⟩) isCrash
          (events.map Prod.snd)
        obtain ⟨shorter, equal⟩ := ih sameNext goesOn (by rwa [sameTables, sameOther])
        rw [sameTables, sameOther] at equal
        rw [map_cons, calls, ← equal, importEvents, importEvents]
        dsimp only
        rw [sameRows]
        exact ⟨List.Sublist.append_left shorter _, append_right_inj _⟩

end States

variable {settings : ImportSettings} {old new : List (List Char)}

theorem stampedEvents_incremental (incremental last : Int) (lines : List (List Char)) :
    stampedEvents { settings with incremental } last lines = stampedEvents settings last lines := by
  induction lines generalizing last with
  | nil => rfl
  | cons line lines ih =>
    rw [stampedEvents, stampedEvents]
    cases lineStart line with
    | bogus | untimed => exact ih last
    | timed ltime text => exact congrArg (_ :: ·) (ih _)

theorem importOf_eq (incremental : Int) (lines : List (List Char)) :
    importOf settings incremental lines = (importEvents Importer.start
      ((stampedEvents settings 0 lines).filter (incremental ≤ ·.1))).2 := by
  rw [importOf, importLines_rows, stampedEvents_incremental]

theorem importOf_zero (lines : List (List Char)) :
    importOf settings 0 lines =
      (importEvents Importer.start (stampedEvents settings 0 lines)).2 := by
  rw [importOf_eq, filter_eq_self.mpr]
  intro event member
  exact decide_eq_true ((stampedEvents_sorted 0 lines).1 event member)

theorem find_stateInit (object : StateObject) : stateInit.find object = none :=
  find_after_stateInit [] object

theorem importEvents_perm_iff {importer : Importer} (stopped : importer.flags = (false, false))
    (events : List (Int × LogEvent)) :
    (importEvents Importer.start events).2.Perm (importEvents importer events).2 ↔
      ChangesUnknown importer.tables stateInit (checkCalls (events.map Prod.snd)) := by
  have same : Importer.start.flags = importer.flags := stopped.symm
  have known : Known importer.tables Importer.start.tables :=
    fun object => .inl (find_stateInit object)
  obtain ⟨shorter, equal⟩ := importEvents_compare same rfl known events
  rw [← show _ ↔ ChangesUnknown importer.tables stateInit _ from equal]
  exact ⟨fun perm => (shorter.eq_of_length perm.length_eq.symm).symm,
    fun rows => rows ▸ List.Perm.refl _⟩

theorem importEvents_twice_iff {before twice : List (Int × LogEvent)}
    (inserts : (importEvents (importEvents Importer.start before).1 twice).2 ≠ [])
    (later : List (Int × LogEvent)) :
    (importEvents Importer.start (twice ++ later)).2.Perm
        (importEvents (importEvents Importer.start (before ++ twice)).1 later).2 ↔
      (∀ event ∈ twice, event.2.starts = false) ∧
        ChangesUnknown (stateInit.after (checkCalls ((before ++ twice).map Prod.snd))) stateInit
          (checkCalls (later.map Prod.snd)) := by
  have goesOn : (importEvents Importer.start before).1.crashed = false := by
    rw [← Bool.not_eq_true]
    intro crashed
    rw [importEvents_of_crashed crashed] at inserts
    exact inserts rfl
  have after : (importEvents Importer.start (before ++ twice)).1 =
      (importEvents (importEvents Importer.start before).1 twice).1 := by
    rw [importEvents_append]
  rw [importEvents_append Importer.start twice later]
  by_cases silent : ∀ event ∈ twice, event.2.starts = false
  · have stopped : (importEvents Importer.start (before ++ twice)).1.flags = (false, false) :=
      after ▸ flags_of_stop silent inserts
    rw [importEvents_stopped rfl silent, nil_append, importEvents_perm_iff stopped,
      tables_importEvents rfl]
    exact (and_iff_right silent).symm
  · refine iff_of_false (fun perm => ?_) (fun held => silent held.1)
    have starter : ∃ event ∈ twice, event.2.starts = true := by simpa using silent
    have same : (importEvents Importer.start twice).1.flags =
        (importEvents Importer.start (before ++ twice)).1.flags :=
      after ▸ importEvents_forgets rfl goesOn starter
    have starts : countStarts (_ ++ _) = countStarts _ := perm.countP_eq _
    rw [countStarts_append, (importEvents_flags same later).2] at starts
    have more : 0 < countStarts (importEvents Importer.start twice).2 := countStarts_pos rfl starter
    omega

theorem exists_twice {events : List (Int × LogEvent)}
    (sorted : events.Pairwise fun first second => first.1 ≤ second.1)
    (natural : ∀ event ∈ events, 0 ≤ event.1)
    (inserts : (importEvents Importer.start events).2 ≠ []) :
    let time := latest (importEvents Importer.start events).2
    (∃ event ∈ events, event.1 = time) ∧
      ∃ before, events = before ++ events.filter (time ≤ ·.1) ∧
        (importEvents (importEvents Importer.start before).1
          (events.filter (time ≤ ·.1))).2 ≠ [] := by
  intro time
  obtain ⟨bound, reached⟩ := latest_cases (importEvents Importer.start events).2
  have isReached : ∃ row ∈ (importEvents Importer.start events).2, row.timestamp = time := by
    rcases reached with isZero | isReached
    · obtain ⟨row, member⟩ := exists_mem_of_ne_nil _ inserts
      obtain ⟨event, isEvent, same⟩ := exists_of_mem_importEvents member
      exact ⟨row, member, le_antisymm (bound row member)
        (isZero.trans_le (same ▸ natural event isEvent))⟩
    · exact isReached
  obtain ⟨row, member, isTime⟩ := isReached
  obtain ⟨event, isEvent, same⟩ := exists_of_mem_importEvents member
  obtain ⟨before, parts, early⟩ := exists_append_filter time sorted
  refine ⟨⟨event, isEvent, same.symm.trans isTime⟩, before, parts, fun nothing => ?_⟩
  rw [parts, importEvents_append, nothing, append_nil] at member
  obtain ⟨event, isEvent, same⟩ := exists_of_mem_importEvents member
  have isEarly := early event isEvent
  omega

/-- An incremental import is a full one if nothing has been imported before, or if the daemon
is left stopped and all first results of the new lines are for new states. -/
theorem incrementalEqualsFull_iff (settings : ImportSettings) (old new : List (List Char)) :
    IncrementalEqualsFull settings old new ↔
      importOf settings 0 old = [] ∨
        (EndsStopped settings old ∧ StatesChange settings old new) := by
  unfold IncrementalEqualsFull EndsStopped
  dsimp only
  by_cases empty : importOf settings 0 old = []
  · rw [empty, nil_append]
    exact iff_of_true (List.Perm.refl _) (.inl rfl)
  · obtain ⟨natural, sorted⟩ := @stampedEvents_sorted settings 0 old
    obtain ⟨last, parts⟩ := stampedEvents_append settings 0 old new
    have allSorted := (@stampedEvents_sorted settings 0 (old ++ new)).2
    rw [importOf_zero] at empty
    obtain ⟨⟨event, isEvent, isTime⟩, before, split, inserts⟩ := exists_twice sorted natural empty
    rw [importOf_eq (latest _), importOf_zero, importOf_zero, or_iff_right empty]
    rw [parts] at allSorted ⊢
    have late : ∀ other ∈ stampedEvents settings last new,
        latest (importEvents Importer.start (stampedEvents settings 0 old)).2 ≤ other.1 :=
      fun other member =>
        isTime ▸ (pairwise_append.mp allSorted).2.2 event isEvent other member
    rw [filter_append, filter_eq_self.mpr fun other member =>
      decide_eq_true (late other member), importEvents_append _ (stampedEvents settings 0 old),
      perm_append_left_iff]
    have twice := importEvents_twice_iff inserts (stampedEvents settings last new)
    rw [← split, stampedEvents_map settings last 0 new] at twice
    rw [twice, ChangesUnknown, StatesChange]
    simp only [mem_filter, decide_eq_true_eq, and_imp, find_stateInit, find_after_stateInit,
      forall_const]
    rfl

theorem not_incrementalEqualsFull_running :
    ¬ IncrementalEqualsFull ⟨0, ⟨none, none⟩, fun _ => 0⟩
      ["[1000000000] Nagios 3 starting... (PID=1)".toList] [] := by
  unfold IncrementalEqualsFull
  decide +kernel

end MonitorMerlin
