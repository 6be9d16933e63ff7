import MonitorMerlin.Tools.Import
import MonitorMerlin.Tools.Showlog

/-! # Files that are skipped -/

namespace MonitorMerlin

open List

/-- `struct naglog_file`. -/
structure LogFile where
  first : Int
  lines : List (List Char)

/-- The loop of `import`. -/
def importFiles (settings : ImportSettings) :
    Int × Importer → List LogFile → (Int × Importer) × List ImportedRow
  | state, [] => (state, [])
  | state, file :: files =>
    let next :=
      if files.head?.any (·.first < settings.incremental) then (state, [])
      else importLines settings state file.lines
    let final := importFiles settings next.1 files
    (final.1, next.2 ++ final.2)

def nextTimes (now : Int) (files : List LogFile) : List Int :=
  (files.map LogFile.first).tail ++ [now]

def lastTimes (reverse : Bool) (now : Int) (files : List LogFile) : List Int :=
  if reverse then now :: files.map LogFile.first else nextTimes now files

def showFile (settings : ShowlogSettings) (reverse : Bool) (state : Showlog)
    (file : LogFile × Int) : Showlog :=
  if file.2 < settings.firstTime ∨ settings.lastTime < file.1.first then state
  else showlog settings state (if reverse then file.1.lines.reverse else file.1.lines)

/-- The loop of `showlog`. -/
def showFiles (settings : ShowlogSettings) (reverse : Bool) (now : Int) (state : Showlog)
    (files : List LogFile) : Showlog :=
  (files.zip (lastTimes reverse now files)).foldl (showFile settings reverse) state

def lineWithin (first last : Int) (line : List Char) : Bool :=
  match lineStart line with
  | .bogus => true
  | .untimed => false
  | .timed ltime _ => first ≤ ltime && ltime ≤ last

def FileWithin (file : LogFile × Int) : Prop :=
  ∀ line ∈ file.1.lines, lineWithin file.1.first file.2 line = true

def LinesWithin (now : Int) (files : List LogFile) : Prop :=
  ∀ file ∈ files.zip (nextTimes now files), FileWithin file

theorem linesWithin_cons {now : Int} {file : LogFile} {files : List LogFile} :
    LinesWithin now (file :: files) ↔
      FileWithin (file, (files.head?.map LogFile.first).getD now) ∧ LinesWithin now files := by
  cases files with
  | nil | cons next files => simp [LinesWithin, nextTimes]

section Import

variable {settings : ImportSettings} {importer : Importer} {last other : Int}

theorem importLines_append (state : Int × Importer) (first second : List (List Char)) :
    importLines settings state (first ++ second) =
      ((importLines settings (importLines settings state first).1 second).1,
        (importLines settings state first).2 ++
          (importLines settings (importLines settings state first).1 second).2) := by
  induction first generalizing state with
  | nil => rfl
  | cons line first ih => simp only [cons_append, importLines, ih, append_assoc]

theorem importLines_early {lines : List (List Char)} (early : last < settings.incremental)
    (within : ∀ line ∈ lines, ∃ first bound, bound < settings.incremental ∧
      lineWithin first bound line = true) :
    ∃ later < settings.incremental,
      importLines settings (last, importer) lines = ((later, importer), []) := by
  induction lines generalizing last with
  | nil => exact ⟨last, early, rfl⟩
  | cons line lines ih =>
    obtain ⟨⟨first, bound, isEarly, isWithin⟩, within⟩ := forall_mem_cons.mp within
    unfold lineWithin at isWithin
    simp only [importLines, importLine]
    cases start : lineStart line with
    | bogus | untimed => exact ih early within
    | timed ltime text =>
      simp only [start, Bool.and_eq_true, decide_eq_true_eq] at isWithin
      have stillEarly := max_lt (lt_of_le_of_lt isWithin.2 isEarly) early
      dsimp only
      rw [if_pos stillEarly]
      exact ih stillEarly within

theorem filter_stampedEvents (early : last < settings.incremental)
    (otherEarly : other < settings.incremental) (lines : List (List Char)) :
    (stampedEvents settings last lines).filter (settings.incremental ≤ ·.1) =
      (stampedEvents settings other lines).filter (settings.incremental ≤ ·.1) := by
  induction lines generalizing last other with
  | nil => rfl
  | cons line lines ih =>
    rw [stampedEvents, stampedEvents]
    cases lineStart line with
    | bogus | untimed => exact ih early otherEarly
    | timed ltime text =>
      dsimp only
      by_cases isEarly : ltime < settings.incremental
      · have stillEarly := max_lt isEarly early
        have otherStillEarly := max_lt isEarly otherEarly
        rw [filter_cons_of_neg (by simpa using stillEarly),
          filter_cons_of_neg (by simpa using otherStillEarly)]
        exact ih stillEarly otherStillEarly
      · rw [max_eq_left (by omega), max_eq_left (by omega)]

variable {files : List LogFile}

theorem importFiles_of_late (state : Int × Importer)
    (late : ∀ file ∈ files.tail, settings.incremental ≤ file.first) :
    importFiles settings state files =
      importLines settings state (files.flatMap LogFile.lines) := by
  induction files generalizing state with
  | nil => rfl
  | cons file files ih =>
    have reads : files.head?.any (·.first < settings.incremental) = false := by
      cases files with
      | nil => rfl
      | cons next files => simpa using late next mem_cons_self
    have lateLater : ∀ file ∈ files.tail, settings.incremental ≤ file.first :=
      fun file member => late file (mem_of_mem_tail member)
    rw [flatMap_cons, importLines_append, importFiles, reads, if_neg (by decide), ih _ lateLater]

theorem importFiles_rows {now : Int} (sorted : files.Pairwise (·.first ≤ ·.first))
    (within : LinesWithin now files) (early : last < settings.incremental)
    (otherEarly : other < settings.incremental) :
    (importFiles settings (last, importer) files).2 =
      (importLines settings (other, importer) (files.flatMap LogFile.lines)).2 := by
  induction files generalizing other with
  | nil => rfl
  | cons file files ih =>
    obtain ⟨fileWithin, filesWithin⟩ := linesWithin_cons.mp within
    have filesSorted := (pairwise_cons.mp sorted).2
    cases skips : files.head?.any (·.first < settings.incremental) with
    | true =>
      obtain ⟨next, isNext, nextEarly⟩ := Option.any_eq_true _ _ |>.mp skips
      rw [isNext] at fileWithin
      obtain ⟨later, stillEarly, read⟩ := importLines_early otherEarly
        fun line member => ⟨_, _, of_decide_eq_true nextEarly, fileWithin line member⟩
      rw [flatMap_cons, importLines_append, read, importFiles, skips, if_pos rfl]
      exact ih filesSorted filesWithin stillEarly
    | false =>
      have late : ∀ later ∈ files, settings.incremental ≤ later.first := by
        cases files with
        | nil => exact fun _ member => absurd member not_mem_nil
        | cons next files =>
          have isLate : settings.incremental ≤ next.first := by simpa using skips
          refine forall_mem_cons.mpr ⟨isLate, fun later member => ?_⟩
          exact isLate.trans ((pairwise_cons.mp filesSorted).1 later member)
      have reads := @importFiles_of_late settings (file :: files) (last, importer) late
      rw [reads, importLines_rows, importLines_rows, filter_stampedEvents early otherEarly]

end Import

section Show

variable {settings : ShowlogSettings} {state : Showlog}

theorem showlog_outside {lines : List (List Char)} {first last : Int}
    (outside : last < settings.firstTime ∨ settings.lastTime < first)
    (within : ∀ line ∈ lines, lineWithin first last line = true) :
    showlog settings state lines = state := by
  induction lines with
  | nil => rfl
  | cons line lines ih =>
    obtain ⟨isWithin, within⟩ := forall_mem_cons.mp within
    have same : showlogLine settings state line = state := by
      unfold lineWithin at isWithin
      unfold showlogLine filterLine
      split
      · rfl
      · cases start : lineStart line with
        | bogus => rfl
        | untimed =>
          rw [start] at isWithin
          cases isWithin
        | timed ltime text =>
          simp only [start, Bool.and_eq_true, decide_eq_true_eq] at isWithin ⊢
          rw [if_pos (by omega)]
    rw [showlog, foldl_cons, same]
    exact ih within

theorem showFile_eq {file : LogFile × Int} (within : FileWithin file) (reverse : Bool) :
    showFile settings reverse state file =
      showlog settings state (if reverse then file.1.lines.reverse else file.1.lines) := by
  unfold showFile
  split
  · rename_i outside
    refine (showlog_outside outside fun line member => within line ?_).symm
    cases reverse with
    | true => exact mem_reverse.mp member
    | false => exact member
  · rfl

theorem foldl_showFile {files : List (LogFile × Int)} (within : ∀ file ∈ files, FileWithin file)
    (reverse : Bool) :
    files.foldl (showFile settings reverse) state = showlog settings state
      (files.flatMap fun file => if reverse then file.1.lines.reverse else file.1.lines) := by
  induction files generalizing state with
  | nil => rfl
  | cons file files ih =>
    obtain ⟨fileWithin, filesWithin⟩ := forall_mem_cons.mp within
    rw [foldl_cons, showFile_eq fileWithin, ih filesWithin, flatMap_cons, showlog,
      showlog, showlog, foldl_append]

theorem length_le_lastTimes (reverse : Bool) (now : Int) (files : List LogFile) :
    files.length ≤ (lastTimes reverse now files).length := by
  cases reverse with
  | true => simp [lastTimes]
  | false =>
    simp only [lastTimes, nextTimes, length_append, length_tail, length_map,
      length_singleton, Bool.false_eq_true, if_false]
    omega

theorem showFiles_eq {reverse : Bool} {now : Int} {files : List LogFile}
    (within : ∀ file ∈ files.zip (lastTimes reverse now files), FileWithin file) :
    showFiles settings reverse now state files = showlog settings state
      (files.flatMap fun file => if reverse then file.lines.reverse else file.lines) := by
  have firsts := map_fst_zip (length_le_lastTimes reverse now files)
  rw [showFiles, foldl_showFile within]
  conv_rhs => rw [← firsts, flatMap_map]

end Show

theorem zip_lastTimes_reverse (now : Int) (files : List LogFile) :
    files.reverse.zip (lastTimes true now files.reverse) =
      (files.zip (nextTimes now files)).reverse := by
  cases files with
  | nil => rfl
  | cons file files =>
    have times : lastTimes true now (file :: files).reverse =
        (nextTimes now (file :: files)).reverse ++ [file.first] := by
      simp [lastTimes, nextTimes]
    have sameLength : (file :: files).length = (nextTimes now (file :: files)).length := by
      simp [nextTimes]
    rw [times, ← append_nil (file :: files).reverse, zip_append (by simpa using sameLength),
      zip_nil_left, append_nil]
    exact (reverse_zipWith sameLength).symm

/-- What is imported and shown is the same as if no file were skipped. -/
theorem skipped_files_change_nothing {now : Int} {files : List LogFile}
    (sorted : files.Pairwise (·.first ≤ ·.first)) (within : LinesWithin now files)
    (importSettings : ImportSettings)
    (natural : 0 < importSettings.incremental ∨ ∀ file ∈ files, 0 ≤ file.first)
    (settings : ShowlogSettings) (state : Showlog) :
    (importFiles importSettings (0, Importer.start) files).2 =
        (importLines importSettings (0, Importer.start) (files.flatMap LogFile.lines)).2 ∧
      showFiles settings false now state files =
        showlog settings state (files.flatMap LogFile.lines) ∧
      showFiles settings true now state files.reverse =
        showlog settings state (files.flatMap LogFile.lines).reverse := by
  refine ⟨?_, showFiles_eq within, ?_⟩
  · by_cases early : 0 < importSettings.incremental
    · exact importFiles_rows sorted within early early
    · have late : ∀ file ∈ files.tail, importSettings.incremental ≤ file.first :=
        fun file member => (not_lt.mp early).trans
          (natural.resolve_left early file (mem_of_mem_tail member))
      rw [importFiles_of_late _ late]
  · rw [reverse_flatMap]
    apply showFiles_eq
    rw [zip_lastTimes_reverse]
    exact fun file member => within file (mem_reverse.mp member)

def oldFile : LogFile := ⟨1000000000, ["[1000000000] Caught SIGHUP".toList]⟩

def newFile : LogFile := ⟨1000000007, ["[1000000008] Error: e".toList]⟩

theorem skipped_files_oldFile :
    (importFiles ⟨1000000008, ⟨none, none⟩, fun _ => 0⟩ (0, Importer.start)
          [oldFile, newFile]).2 =
        (importLines ⟨1000000008, ⟨none, none⟩, fun _ => 0⟩ (0, Importer.start)
          ([oldFile, newFile].flatMap LogFile.lines)).2 ∧
      showFiles showEverything false 1000000009 ⟨0, 0, stateInit, [], false⟩ [oldFile, newFile] =
        showlog showEverything ⟨0, 0, stateInit, [], false⟩
          ([oldFile, newFile].flatMap LogFile.lines) ∧
      showFiles showEverything true 1000000009 ⟨0, 0, stateInit, [], false⟩
          [oldFile, newFile].reverse =
        showlog showEverything ⟨0, 0, stateInit, [], false⟩
          ([oldFile, newFile].flatMap LogFile.lines).reverse := by
  refine skipped_files_change_nothing (by decide) ?_ _ (.inl (by decide)) _ _
  unfold LinesWithin FileWithin
  decide +kernel

theorem not_same_rows_negative :
    ∃ (now : Int) (files : List LogFile) (settings : ImportSettings),
      files.Pairwise (·.first ≤ ·.first) ∧ LinesWithin now files ∧
        (importFiles settings (0, Importer.start) files).2 ≠
          (importLines settings (0, Importer.start) (files.flatMap LogFile.lines)).2 := by
  refine ⟨0, [⟨-9, ["[-9] Caught SIGHUP".toList]⟩, ⟨-5, ["[-5] Warning".toList]⟩],
    ⟨0, ⟨none, none⟩, fun _ => 0⟩, by decide, ?_, by decide +kernel⟩
  unfold LinesWithin FileWithin
  decide +kernel

end MonitorMerlin
