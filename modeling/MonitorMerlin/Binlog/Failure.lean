import Mathlib.Tactic.IntervalCases
import MonitorMerlin.Binlog.Unread

/-! # Adds whose writes fail -/

namespace MonitorMerlin

open ByteImage List

/-- `safe_write` reports success. -/
def WriteOutcome.Completes (outcome : WriteOutcome) (length : Nat) : Prop :=
  outcome.result length = length

instance (outcome : WriteOutcome) (length : Nat) : Decidable (outcome.Completes length) :=
  inferInstanceAs (Decidable (_ = _))

variable {state : BinlogState} {fd : Descriptor} {buf : Bytes} {outcome : WriteOutcome}

private theorem safeWrite_completes (someFd : state.bl.fd = some fd)
    (complete : outcome.Completes buf.length) :
    safeWrite state buf outcome = safeWrite state buf .full := by
  unfold WriteOutcome.Completes at complete
  have full : WriteOutcome.full.result buf.length = buf.length := rfl
  simp only [safeWrite, someFd, complete, full]
  simp

variable {written : Nat}

private theorem result_short (incomplete : written < buf.length) (seekBack : Bool) :
    (WriteOutcome.short written seekBack).result buf.length = written ∧
      ¬ (written : Int) = buf.length ∧ ¬ (written : Int) < 0 := by
  simp only [WriteOutcome.result]
  omega

theorem safeWrite_lost (someFd : state.bl.fd = some fd) (incomplete : written < buf.length) :
    (safeWrite state buf (.short written false)).1 = binlogEinvalid ∧
      (safeWrite state buf (.short written false)).2.bl.isValid = false := by
  obtain ⟨result, shorter, nonneg⟩ := result_short incomplete false
  simp [safeWrite, someFd, result, shorter, nonneg, binlogInvalidate]

variable {content : Bytes}

private theorem safeWrite_short (someFd : state.bl.fd = some fd) (appending : fd.appending = true)
    (found : state.disk.get fd.target = some content) (incomplete : written < buf.length) :
    safeWrite state buf (.short written true) =
      (binlogEincomplete,
        { state with
          disk := state.disk.set fd.target (some (content ++ buf.take written)) }) := by
  obtain ⟨result, shorter, nonneg⟩ := result_short incomplete true
  simp [safeWrite, someFd, result, shorter, nonneg, appending, found, patch_at_end]

private theorem safeWrite_error (buf : Bytes) (someFd : state.bl.fd = some fd) :
    ∃ position,
      safeWrite state buf .error =
        (-1,
          { state with bl := { state.bl with fd := some { fd with position := position } } }) := by
  have result : WriteOutcome.error.result buf.length = -1 := rfl
  have incomplete : ¬ (-1 : Int) = buf.length := by omega
  simp only [safeWrite, someFd, result, incomplete, if_false]
  exact ⟨_, rfl⟩

variable {mem file : List Bytes}

theorem Represents.opened {name : FileName} (represented : Represents state mem file)
    (named : state.bl.path = some name) :
    ∃ fd opened,
      binlogOpen state = (0, opened) ∧
        opened.bl = { state.bl with fd := some fd } ∧
        Represents opened mem file := by
  have memory := represented.memory
  cases represented.onFile with
  | opened fd consumed file someFd atPath appending content size readPos writePos entries =>
    refine ⟨fd, state, by simp [binlogOpen, someFd], ?_, represented⟩
    rw [← someFd]
  | closed noFd size readPos writePos entries absent =>
    refine ⟨⟨name, 0, true⟩,
      { bl := { state.bl with fd := some ⟨name, 0, true⟩ }
        disk := state.disk.set name (some []) }, ?_, rfl, ?_⟩
    · simp [binlogOpen, noFd, named, represented.valid, absent name named]
    · refine ⟨represented.valid, ?_, ?_, represented.memoryFirst, represented.fits⟩
      · exact memory.congr rfl rfl rfl rfl
      · exact .opened ⟨name, 0, true⟩ [] [] rfl named rfl (by simp) (by simpa using size)
          (by simpa using readPos) (by simpa using writePos) (by simpa [uint] using entries)

theorem FileHolds.of_fd (onFile : FileHolds state file) (someFd : state.bl.fd = some fd) :
    ∃ consumed,
      state.bl.path = some fd.target ∧ fd.appending = true ∧
        state.disk.get fd.target = some (consumed ++ frames file) ∧
        state.bl.fileSize = (consumed ++ frames file).length ∧
        state.bl.fileReadPos = consumed.length ∧
        state.bl.fileWritePos = (consumed ++ frames file).length ∧
        state.bl.fileEntries = uint file.length := by
  cases onFile with
  | closed noFd =>
    rw [noFd] at someFd
    cases someFd
  | opened other consumed file otherFd atPath appending content size readPos writePos entries =>
    obtain rfl : other = fd := Option.some.inj (otherFd.symm.trans someFd)
    exact ⟨consumed, atPath, appending, content, size, readPos, writePos, entries⟩

theorem Represents.seek (position : Nat) (represented : Represents state mem file)
    (someFd : state.bl.fd = some fd) :
    Represents { state with bl := { state.bl with fd := some { fd with position := position } } }
      mem file := by
  have memory := represented.memory
  refine ⟨represented.valid, ?_, ?_, represented.memoryFirst, represented.fits⟩
  · exact memory.congr rfl rfl rfl rfl
  · obtain ⟨consumed, atPath, appending, content, size, readPos, writePos, entries⟩ :=
      represented.onFile.of_fd someFd
    exact .opened { fd with position := position } consumed file rfl atPath appending content size
      readPos writePos entries

structure ReadableUpTo
    (state : BinlogState) (fd : Descriptor) (consumed : Bytes)
    (mem file : List Bytes) (tail : Bytes) : Prop where
  valid : state.bl.isValid = true
  memory : MemoryHolds state.bl mem
  someFd : state.bl.fd = some fd
  content : state.disk.get fd.target = some (consumed ++ (frames file ++ tail))
  readPos : state.bl.fileReadPos = consumed.length
  size : ((consumed ++ frames file).length : Int) < state.bl.fileSize
  fits : ∀ buf ∈ file, EntryFits buf

variable {consumed tail : Bytes}

theorem ReadableUpTo.read_memory {rest file : List Bytes}
    (readable : ReadableUpTo state fd consumed (buf :: rest) file tail) :
    (binlogRead state).1 = .ok buf ∧
      ReadableUpTo (binlogRead state).2 fd consumed rest file tail := by
  have same := binlogMemRead_sameFile state.bl
  rw [binlogRead_memory readable.valid readable.memory]
  exact ⟨rfl,
    { valid := same.isValid.trans readable.valid
      memory := readable.memory.memRead_cons
      someFd := same.fd.trans readable.someFd
      content := readable.content
      readPos := same.fileReadPos.trans readable.readPos
      size := readable.size.trans_eq same.fileSize.symm
      fits := readable.fits }⟩

theorem ReadableUpTo.read_file {rest : List Bytes}
    (readable : ReadableUpTo state fd consumed [] (buf :: rest) tail) :
    (binlogRead state).1 = .ok buf ∧
      ∃ fd', ReadableUpTo (binlogRead state).2 fd' (consumed ++ frame buf) [] rest tail := by
  have memory := readable.memory.reset
  have content := readable.content
  have size := readable.size
  rw [frames_cons, append_assoc] at content
  rw [frames_cons, ← append_assoc] at size
  have unread : state.bl.fileReadPos < state.bl.fileSize := by
    rw [readable.readPos]
    rw [length_append, length_append] at size
    omega
  rw [binlogRead_frame readable.valid readable.memory readable.someFd content readable.readPos
    unread (readable.fits buf (by simp))]
  refine ⟨rfl, { fd with position := (consumed ++ frame buf).length }, readable.valid, ?_,
    rfl, ?_, rfl, size, fun other member => readable.fits other (mem_cons_of_mem buf member)⟩
  · exact memory.congr rfl rfl rfl rfl
  · rw [append_assoc]
    exact content

theorem ReadableUpTo.reads (history : FifoQueue.History Bytes)
    (readable : ReadableUpTo state fd consumed mem file tail) :
    ∃ final fd' consumed',
      binlogObject.runFrom (history, state)
          (replicate (mem.length + file.length) .read) =
          (⟨history.accepted, history.delivered ++ (mem ++ file)⟩, final) ∧
        ReadableUpTo final fd' consumed' [] [] tail := by
  induction mem generalizing history state with
  | cons buf rest ih =>
    obtain ⟨delivered, next⟩ := readable.read_memory
    obtain ⟨final, fd', consumed', run, reached⟩ :=
      ih ⟨history.accepted, history.delivered ++ [buf]⟩ next
    refine ⟨final, fd', consumed', ?_, reached⟩
    rw [length_cons, Nat.add_right_comm, replicate_succ, FifoQueue.Object.runFrom]
    simp only [FifoQueue.Object.step, binlogObject, delivered, FifoQueue.Object.recordRead] at run ⊢
    rw [run]
    simp
  | nil =>
    induction file generalizing history state fd consumed with
    | nil => exact ⟨state, fd, consumed, by simp [FifoQueue.Object.runFrom], readable⟩
    | cons buf rest ih =>
      obtain ⟨delivered, fdNext, next⟩ := readable.read_file
      obtain ⟨final, fd', consumed', run, reached⟩ :=
        ih ⟨history.accepted, history.delivered ++ [buf]⟩ next
      refine ⟨final, fd', consumed', ?_, reached⟩
      rw [length_cons, ← Nat.add_assoc, replicate_succ, FifoQueue.Object.runFrom]
      simp only [FifoQueue.Object.step, binlogObject, delivered,
        FifoQueue.Object.recordRead] at run ⊢
      rw [run]
      simp

theorem ReadableUpTo.read_tail (readable : ReadableUpTo state fd consumed [] [] tail) :
    ∃ item, (binlogRead state).1 = .ok item ∧ item.length = leValue (tail.take 4) := by
  have unread : ¬ state.bl.fileSize ≤ state.bl.fileReadPos := by
    have size := readable.size
    rw [readable.readPos]
    simp only [frames_nil, append_nil] at size
    omega
  have start : state.bl.fileReadPos.toNat = consumed.length := by
    rw [readable.readPos, Int.toNat_natCast]
  have content : state.disk.get fd.target = some (consumed ++ tail) := by
    simpa using readable.content
  have header : slice (consumed ++ tail) consumed.length 4 = tail.take 4 := by
    simp [slice]
  rw [binlogRead_file readable.valid readable.memory]
  unfold binlogFileRead
  simp only [unread, if_false, readable.someFd, content, Option.getD_some, start, header]
  refine ⟨_, rfl, ?_⟩
  have bodyLength :
      (slice (consumed ++ tail) (consumed.length + (tail.take 4).length)
        (leValue (tail.take 4))).length ≤ leValue (tail.take 4) := by
    simp [slice]
  rw [length_append, length_replicate]
  omega

private theorem allowedRun_reads (state : BinlogState) (count : Nat) :
    binlogObject.AllowedRun BinlogAllowed state (replicate count .read) := by
  induction count generalizing state with
  | zero => trivial
  | succ count ih => exact ⟨trivial, ih _⟩

private theorem leValue_torn_header (buf : Bytes) (begun : 0 < written) (torn : written < 4) :
    256 ≤ leValue ((((leBytes 4 buf.length).take written) ++ frame [0]).take 4) := by
  have garbage : ((leBytes 4 buf.length).take written).length = written := by
    rw [length_take, length_leBytes]
    omega
  rw [take_append, garbage, take_of_length_le (by omega), leValue_append, garbage]
  have shifted : 256 ^ 1 ≤ 256 ^ written := Nat.pow_le_pow_right (by decide) begun
  have one : 1 ≤ leValue ((frame [0]).take (4 - written)) := by
    interval_cases written <;> decide
  calc
    256 ≤ 256 ^ written * 1 := by simpa using shifted
    _ ≤ 256 ^ written * leValue ((frame [0]).take (4 - written)) := Nat.mul_le_mul_left _ one
    _ ≤ _ := Nat.le_add_left _ _

theorem ReadableUpTo.not_holds {dirty : BinlogState} (added : (binlogAdd dirty [0]).1 = 0)
    (readable : ReadableUpTo (binlogAdd dirty [0]).2 fd consumed mem file tail)
    (grows : GrowFits dirty.bl) (misleading : leValue (tail.take 4) ≠ 1) :
    ¬ binlogObject.Holds BinlogAllowed binlogEmpty dirty (mem ++ file) := by
  intro holds
  obtain ⟨final, fd', consumed', run, reached⟩ := readable.reads ⟨[[0]], []⟩
  have stepped :
      binlogObject.step (.add [0]) (⟨[], []⟩, dirty) = (⟨[[0]], []⟩, (binlogAdd dirty [0]).2) := by
    simp [FifoQueue.Object.step, FifoQueue.Object.recordAdd, binlogObject, added]
  obtain ⟨pending, account, answer⟩ :=
    holds (.add [0] :: replicate (mem.length + file.length) .read)
      ⟨⟨by decide, grows⟩, allowedRun_reads _ _⟩
  rw [FifoQueue.Object.run, FifoQueue.Object.runFrom, stepped, run] at account answer
  simp only [nil_append, append_cancel_left_eq] at account
  subst account
  obtain ⟨item, misread, itemLength⟩ := reached.read_tail
  change (binlogRead final).1 = .ok [0] at answer
  rw [misread] at answer
  cases answer
  exact misleading itemLength.symm

theorem Represents.add_behind_foreign {content foreign : Bytes} (dirty : BinlogState)
    (represented : Represents state mem file) (someFd : state.bl.fd = some fd)
    (found : state.disk.get fd.target = some content)
    (room : state.bl.fileSize + 1 ≤ state.bl.maxFileSize) (sameBl : dirty.bl = state.bl)
    (dirtyFound : dirty.disk.get fd.target = some (content ++ foreign)) :
    (binlogAdd dirty [0]).1 = 0 ∧
      ∃ fd' consumed,
        ReadableUpTo (binlogAdd dirty [0]).2 fd' consumed mem file (foreign ++ frame [0]) := by
  obtain ⟨consumed, path, appending, isContent, size, readPos, -, -⟩ :=
    represented.onFile.of_fd someFd
  obtain rfl : content = consumed ++ frames file := Option.some.inj (found.symm.trans isContent)
  have memory := represented.memory
  have valid := represented.valid
  rw [← sameBl] at someFd path room size readPos memory valid
  have toFile : ¬ KeepsInMemory dirty.bl [0] := by
    simp [KeepsInMemory, someFd]
  have attached : FileAttached dirty := by
    intro other isOpen
    obtain rfl := Option.some.inj (someFd.symm.trans isOpen)
    exact ⟨path, appending, _, dirtyFound⟩
  have added := (binlogAddWrites_toFile valid toFile).trans (attached.fileAdd valid path room)
  rw [dirtyFound] at added
  rw [binlogAdd, added]
  refine ⟨rfl, _, consumed, valid, ?_, rfl, ?_, readPos, ?_, ?_⟩
  · exact memory.congr rfl rfl rfl rfl
  · simp [BinlogState.appended]
  · simp [BinlogState.appended, size]
  · intro item member
    exact represented.fits item (mem_append_right mem member)

theorem Represents.not_holds_torn_header (represented : Represents state mem file)
    (someFd : state.bl.fd = some fd) (found : state.disk.get fd.target = some content)
    (grows : GrowFits state.bl) (room : state.bl.fileSize + 1 ≤ state.bl.maxFileSize)
    (begun : 0 < written) (torn : written < 4) :
    ¬ binlogObject.Holds BinlogAllowed binlogEmpty
      { state with
        disk := state.disk.set fd.target (some (content ++ (leBytes 4 buf.length).take written)) }
      (mem ++ file) := by
  have long := leValue_torn_header buf begun torn
  generalize (leBytes 4 buf.length).take written = foreign at long ⊢
  obtain ⟨added, fd', consumed, readable⟩ :=
    represented.add_behind_foreign
      ⟨state.bl, state.disk.set fd.target (some (content ++ foreign))⟩
      someFd found room rfl (state.disk.get_set_same _ _)
  exact readable.not_holds added grows (by omega)

private theorem safeWrite_kept (someFd : state.bl.fd = some fd) (appending : fd.appending = true)
    (found : state.disk.get fd.target = some content)
    (kept : outcome.Completes buf.length ∨ ∀ written, outcome ≠ .short written false) :
    ((safeWrite state buf outcome).1 = 0 ↔ outcome.Completes buf.length) ∧
      ∃ writePos fd',
        (safeWrite state buf outcome).2.bl =
          { state.bl with fileWritePos := writePos, fd := some fd' } := by
  by_cases complete : outcome.Completes buf.length
  · rw [safeWrite_completes someFd complete, safeWrite_full buf someFd appending found]
    exact ⟨by simp [complete], _, _, rfl⟩
  · have notLost := kept.resolve_left complete
    cases outcome with
    | full => exact absurd rfl complete
    | error =>
      obtain ⟨position, result⟩ := safeWrite_error buf someFd
      rw [result]
      exact ⟨by simp [complete], state.bl.fileWritePos, _, rfl⟩
    | short written seekBack =>
      cases seekBack with
      | false => exact absurd rfl (notLost written)
      | true =>
        have incomplete : written < buf.length := by
          simp only [WriteOutcome.Completes, WriteOutcome.result] at complete
          omega
        rw [safeWrite_short someFd appending found incomplete]
        refine ⟨by simp [complete, binlogEincomplete], state.bl.fileWritePos, fd, ?_⟩
        rw [← someFd]

variable {header body : WriteOutcome}

private theorem binlogFileAdd_header_complete {state opened : BinlogState}
    (opening : binlogOpen state = (0, opened))
    (room : state.bl.fileSize + buf.length ≤ state.bl.maxFileSize)
    (someFd : opened.bl.fd = some fd) (appending : fd.appending = true) {content : Bytes}
    (found : opened.disk.get fd.target = some content) (complete : header.Completes 4) :
    ∃ headed fd' content' writePos,
      headed.bl = { opened.bl with fileWritePos := writePos, fd := some fd' } ∧
        fd'.appending = true ∧
        headed.disk.get fd'.target = some content' ∧
        binlogFileAdd state buf header body =
          ((safeWrite headed buf body).1,
            { (safeWrite headed buf body).2 with
              bl :=
                { (safeWrite headed buf body).2.bl with
                  fileSize := (safeWrite headed buf body).2.bl.fileSize + (buf.length + 4 : Nat)
                  fileEntries :=
                    uint ((safeWrite headed buf body).2.bl.fileEntries + 1) } }) := by
  have headerWritten :
      safeWrite opened (leBytes 4 buf.length) header =
        safeWrite opened (leBytes 4 buf.length) .full :=
    safeWrite_completes someFd (by rw [length_leBytes]; exact complete)
  have headed := safeWrite_full (leBytes 4 buf.length) someFd appending found
  refine ⟨(safeWrite opened (leBytes 4 buf.length) .full).2,
    { fd with position := content.length + (leBytes 4 buf.length).length },
    content ++ leBytes 4 buf.length, _, by rw [headed], appending, ?_, ?_⟩
  · rw [headed]
    exact opened.disk.get_set_same _ _
  · unfold binlogFileAdd
    rw [if_neg (by omega), opening]
    simp only [headerWritten]
    simp [headed]

/-- A failing `binlog_add` invalidates the backlog or keeps its entries. -/
def AddFailureIntact (state : BinlogState) (buf : Bytes) (header body : WriteOutcome) : Prop :=
  (binlogAddWrites state buf header body).1 ≠ 0 →
    (binlogAddWrites state buf header body).2.bl.isValid = false ∨
      ∃ entries,
        binlogObject.Drains binlogEmpty state entries ∧
          binlogObject.Holds BinlogAllowed binlogEmpty
            (binlogAddWrites state buf header body).2 entries ∧
          binlogNumEntries (binlogAddWrites state buf header body).2.bl = binlogNumEntries state.bl

/-- The writes leave a part of an entry in the file. -/
def WritesDamage (buf : Bytes) (header body : WriteOutcome) : Prop :=
  (∃ written, header = .short written true ∧ 0 < written ∧ written < 4) ∨
    (header.Completes 4 ∧ ¬ body.Completes buf.length ∧ ∀ written, body ≠ .short written false)

theorem Represents.addFailureIntact (before : Represents state mem file)
    (after : Represents (binlogAddWrites state buf header body).2 mem file) :
    AddFailureIntact state buf header body :=
  fun _ => .inr ⟨mem ++ file, before.drains,
    binlogSimulation.holds ⟨mem, file, rfl, after⟩,
    after.numEntries.trans before.numEntries.symm⟩

theorem Represents.numEntries_grown (before : Represents state mem file) (length : Nat)
    (writePos : Int) (fd : Option Descriptor) :
    binlogNumEntries
        { state.bl with
          fileSize := state.bl.fileSize + (length + 4 : Nat)
          fileWritePos := writePos
          fileEntries := uint (state.bl.fileEntries + 1)
          fd := fd } =
      uint (mem.length + (file.length + 1)) := by
  have memory := before.memory
  obtain ⟨nonneg, size, entries⟩ := before.onFile.bounds
  refine MemoryHolds.numEntries (memory.congr rfl rfl rfl rfl) ?_
  rw [if_pos (by simp only; omega)]
  simp only [entries, uint]
  omega

section ToFile

variable {opened : BinlogState} (before : Represents state mem file)
  (room : state.bl.fileSize + buf.length ≤ state.bl.maxFileSize)
  (fields : opened.bl = { state.bl with fd := some fd })
  (found : opened.disk.get fd.target = some content) (nonempty : buf ≠ [])
  (grows : GrowFits state.bl) (after : Represents opened mem file)
  (toFile : ¬ KeepsInMemory state.bl buf) (opening : binlogOpen state = (0, opened))
  (appending : fd.appending = true)

include before room fields found

include toFile opening appending in
theorem Represents.addFailureIntact_iff_body (complete : header.Completes 4) :
    AddFailureIntact state buf header body ↔
      (body.Completes buf.length ∨ ∃ written, body = .short written false) := by
  obtain ⟨headed, fd', content', writePos, headedBl, headedAppending, headedFound, result⟩ :=
    binlogFileAdd_header_complete opening room (by rw [fields]) appending found complete
  rw [← binlogAddWrites_toFile before.valid toFile] at result
  have headedFd : headed.bl.fd = some fd' := by rw [headedBl]
  unfold AddFailureIntact
  rw [result]
  by_cases kept : body.Completes buf.length ∨ ∀ written, body ≠ .short written false
  · obtain ⟨succeeds, writePos', fd'', bodiedBl⟩ :=
      safeWrite_kept headedFd headedAppending headedFound kept
    by_cases bodyComplete : body.Completes buf.length
    · exact iff_of_true (fun failed => absurd (succeeds.mpr bodyComplete) failed)
        (.inl bodyComplete)
    · refine iff_of_false (fun intact => ?_) ?_
      · rcases intact (fun code => bodyComplete (succeeds.mp code)) with
          invalid | ⟨_, _, _, counted⟩
        · rw [bodiedBl, headedBl, fields] at invalid
          simp only [before.valid, Bool.true_eq_false] at invalid
        · rw [before.numEntries, bodiedBl, headedBl, fields] at counted
          have grown := before.numEntries_grown buf.length writePos' (some fd'')
          have differs := grown.symm.trans counted
          simp only [uint] at differs
          omega
      · rintro (complete' | ⟨written, lost⟩)
        · exact bodyComplete complete'
        · exact kept.elim bodyComplete (fun notLost => notLost written lost)
  · obtain ⟨incomplete, written, lost⟩ :
        ¬ body.Completes buf.length ∧ ∃ written, body = .short written false := by
      simpa [not_or] using kept
    subst lost
    have shorter : written < buf.length := by
      simp only [WriteOutcome.Completes, WriteOutcome.result] at incomplete
      omega
    exact iff_of_true (fun _ => .inl (safeWrite_lost headedFd shorter).2) (.inr ⟨written, rfl⟩)

include nonempty grows after

theorem Represents.not_addFailureIntact_of_torn {written : Nat} (begun : 0 < written)
    (torn : written < 4)
    (added : binlogAddWrites state buf header body =
      (binlogEincomplete,
        { opened with
          disk := opened.disk.set fd.target
            (some (content ++ (leBytes 4 buf.length).take written)) })) :
    ¬ AddFailureIntact state buf header body := by
  intro intact
  have someFd : opened.bl.fd = some fd := by rw [fields]
  have lengthPos : 0 < buf.length := length_pos_iff.mpr nonempty
  have laterRoom : opened.bl.fileSize + 1 ≤ opened.bl.maxFileSize := by
    rw [fields]
    simp only
    omega
  rcases intact (by simp [added, binlogEincomplete]) with invalid | ⟨entries, drains, holds, _⟩
  · rw [added, after.valid] at invalid
    cases invalid
  · have sameEntries := FifoQueue.Object.drains_unique drains before.drains
    subst sameEntries
    rw [added] at holds
    exact after.not_holds_torn_header someFd found (by rw [fields]; exact grows) laterRoom
      begun torn holds

include toFile opening appending

theorem Represents.addFailureIntact_iff_header (incomplete : ¬ header.Completes 4) :
    AddFailureIntact state buf header body ↔
      ¬ ∃ written, header = .short written true ∧ 0 < written ∧ written < 4 := by
  have someFd : opened.bl.fd = some fd := by rw [fields]
  have result :
      (safeWrite opened (leBytes 4 buf.length) header).1 ≠ 0 →
        binlogAddWrites state buf header body = safeWrite opened (leBytes 4 buf.length) header := by
    intro failed
    rw [binlogAddWrites_toFile before.valid toFile]
    unfold binlogFileAdd
    rw [if_neg (by omega), opening]
    simp [failed]
  cases header with
  | full => exact absurd rfl incomplete
  | error =>
    obtain ⟨position, headed⟩ := safeWrite_error (leBytes 4 buf.length) someFd
    have added := (result (by simp [headed])).trans headed
    refine iff_of_true (before.addFailureIntact ?_) (by simp)
    rw [added]
    exact after.seek position someFd
  | short written seekBack =>
    have torn : written < (leBytes 4 buf.length).length := by
      rw [length_leBytes]
      simp only [WriteOutcome.Completes, WriteOutcome.result] at incomplete
      omega
    cases seekBack with
    | false =>
      obtain ⟨code, invalid⟩ := safeWrite_lost someFd torn
      have added := result (by rw [code]; decide)
      refine iff_of_true (fun _ => .inl ?_) (by simp)
      rw [added]
      exact invalid
    | true =>
      have headed := safeWrite_short someFd appending found torn
      have added := (result (by simp [headed, binlogEincomplete])).trans headed
      rw [length_leBytes] at torn
      by_cases begun : 0 < written
      · refine iff_of_false ?_ (by simp [begun, torn])
        exact before.not_addFailureIntact_of_torn room fields found nonempty grows after begun torn
          added
      · have nothing : written = 0 := by omega
        subst nothing
        refine iff_of_true (before.addFailureIntact ?_) (by simp)
        rw [added, take_zero, append_nil, ← found, Disk.set_get]
        exact after

end ToFile

/-- From every reachable backlog, a failing add leaves the backlog intact
exactly when it goes to memory, is refused, or its writes do no damage. -/
theorem binlogAdd_failure_intact_iff
    {path : Option Bytes} {msize fsize : Nat} {disk : Disk}
    {start state : BinlogState} {buf : Bytes} {header body : WriteOutcome}
    (created : binlogCreate path msize fsize true disk = some start)
    (reached : ReachableFrom start state)
    (nonempty : buf ≠ [])
    (grows : GrowFits state.bl) :
    AddFailureIntact state buf header body ↔
      (KeepsInMemory state.bl buf ∨ ¬ FileHasRoom state.bl buf ∨
        ¬ WritesDamage buf header body) := by
  obtain ⟨mem, file, before⟩ := reached.represents (represents_create created)
  by_cases inMemory : KeepsInMemory state.bl buf
  · refine iff_of_true (fun failed => absurd ?_ failed) (.inl inMemory)
    rw [binlogAddWrites_memory before.valid inMemory]
  · by_cases room : FileHasRoom state.bl buf
    · obtain ⟨name, named⟩ := Option.ne_none_iff_exists'.mp room.1
      obtain ⟨fd, opened, opening, fields, after⟩ := before.opened named
      obtain ⟨appending, content, found⟩ :
          fd.appending = true ∧ ∃ content, opened.disk.get fd.target = some content := by
        obtain ⟨consumed, -, appending, found, -⟩ := after.onFile.of_fd (by rw [fields])
        exact ⟨appending, _, found⟩
      unfold WritesDamage
      by_cases complete : header.Completes 4
      · rw [before.addFailureIntact_iff_body room.2 fields found inMemory opening appending
          complete]
        have notTorn : ¬ ∃ written, header = .short written true ∧ 0 < written ∧ written < 4 := by
          rintro ⟨written, rfl, _, torn⟩
          simp only [WriteOutcome.Completes, WriteOutcome.result] at complete
          omega
        simp only [inMemory, room, notTorn, complete, false_or, true_and, not_and_or, not_not,
          not_true_eq_false, ne_eq, not_forall]
      · rw [before.addFailureIntact_iff_header room.2 fields found nonempty grows after inMemory
          opening appending complete]
        simp [inMemory, room, complete]
    · refine iff_of_true (before.addFailureIntact ?_) (.inr (.inl room))
      rw [(before.addWrites_refused inMemory room).2]
      exact before

theorem binlogAdd_failure_intact_error : AddFailureIntact (sampleBinlog 0 64) [7] .error .full :=
  (binlogAdd_failure_intact_iff (sampleBinlog_created 0 64) .start (by decide)
    (by decide)).mpr (.inr (.inr (by
      rintro (⟨written, header, _⟩ | ⟨complete, _⟩)
      · cases header
      · exact absurd complete (by decide))))

theorem binlogAdd_torn_header_corrupts :
    (binlogAddWrites (sampleBinlog 0 64) [7] (.short 1 true) .full).1 = binlogEincomplete ∧
      (binlogAdd (binlogAddWrites (sampleBinlog 0 64) [7] (.short 1 true) .full).2 [9]).1 = 0 ∧
      (binlogRead (binlogAdd
        (binlogAddWrites (sampleBinlog 0 64) [7] (.short 1 true) .full).2 [9]).2).1 =
          .ok (0 :: 9 :: List.replicate 255 0) ∧
      ¬ AddFailureIntact (sampleBinlog 0 64) [7] (.short 1 true) .full := by
  refine ⟨by decide, by decide, by decide +kernel, fun intact => ?_⟩
  rcases intact (by decide) with invalid | ⟨entries, drains, holds, _⟩
  · exact absurd invalid (by decide)
  · have noEntries : entries = [] :=
      FifoQueue.Object.drains_unique drains
        (show (binlogRead (sampleBinlog 0 64)).1 = .error binlogEmpty by decide)
    subst noEntries
    obtain ⟨pending, account, answer⟩ := holds [.add [9]] ⟨⟨by decide, by decide⟩, trivial⟩
    have pendingEq : pending = [[9]] := account.symm.trans (by decide)
    subst pendingEq
    exact absurd answer (by decide)

example :
    (binlogAddWrites (sampleBinlog 0 64) [7] .full .error).1 = -1 ∧
      binlogNumEntries (binlogAddWrites (sampleBinlog 0 64) [7] .full .error).2.bl = 1 := by
  decide

end MonitorMerlin
