import MonitorMerlin.Binlog.Fifo
import MonitorMerlin.Library.Run

/-! # The size of the backlog file -/

namespace MonitorMerlin

open ByteImage

inductive BinlogCall where
  | add (buf : Bytes)
  | read
  | flush
  deriving DecidableEq, Repr

def binlogStep (state : BinlogState) : BinlogCall → BinlogState
  | .add buf => (binlogAdd state buf).2
  | .read => (binlogRead state).2
  | .flush => binlogFlush state

def backlogFileSize (state : BinlogState) : Nat :=
  match state.bl.path with
  | none => 0
  | some name => ((state.disk.get name).getD []).length

def slotEntries (slots : List (Option Bytes)) : Nat → Nat → List Bytes
  | _, 0 => []
  | index, count + 1 => (slots[index]?).join.toList ++ slotEntries slots (index + 1) count

def unreadEntries (bl : Binlog) : List Bytes :=
  slotEntries (bl.cache.getD []) bl.readIndex (bl.writeIndex - bl.readIndex)

def grownSize (limit size : Int) (buf : Bytes) : Int :=
  if limit < size + buf.length then size else size + (buf.length + 4 : Nat)

def FrameFits (limit size : Int) (buf : Bytes) : Prop :=
  size + buf.length ≤ limit → size + (buf.length + 4 : Nat) ≤ limit

instance (limit size : Int) (buf : Bytes) : Decidable (FrameFits limit size buf) :=
  inferInstanceAs (Decidable (_ → _))

def FramesFit (limit : Int) : Int → List Bytes → Prop
  | _, [] => True
  | size, buf :: rest => FrameFits limit size buf ∧ FramesFit limit (grownSize limit size buf) rest

instance decidableFramesFit (limit : Int) :
    ∀ (size : Int) (entries : List Bytes), Decidable (FramesFit limit size entries)
  | _, [] => .isTrue trivial
  | size, buf :: rest =>
    have := decidableFramesFit limit (grownSize limit size buf) rest
    inferInstanceAs (Decidable (_ ∧ _))

theorem le_grownSize (limit size : Int) (buf : Bytes) : size ≤ grownSize limit size buf := by
  unfold grownSize
  split <;> omega

private theorem le_foldl_grownSize (limit : Int) (entries : List Bytes) (size : Int) :
    size ≤ entries.foldl (grownSize limit) size := by
  induction entries generalizing size with
  | nil => exact Int.le_refl size
  | cons buf rest ih => exact Int.le_trans (le_grownSize limit size buf) (ih _)

variable {limit size : Int}

private theorem foldl_grownSize_of_negative (entries : List Bytes) (negative : limit < size) :
    entries.foldl (grownSize limit) size = size := by
  induction entries with
  | nil => rfl
  | cons buf rest ih =>
    have refused : grownSize limit size buf = size := if_pos (by omega)
    rw [List.foldl_cons, refused, ih]

private theorem framesFit_of_negative (entries : List Bytes) (negative : limit < size) :
    FramesFit limit size entries := by
  induction entries with
  | nil => trivial
  | cons buf rest ih =>
    have refused : grownSize limit size buf = size := if_pos (by omega)
    refine ⟨fun taken => absurd taken (by omega), ?_⟩
    rw [refused]
    exact ih

private theorem grownSize_le_iff (buf : Bytes) (within : size ≤ limit) :
    grownSize limit size buf ≤ limit ↔ FrameFits limit size buf := by
  unfold grownSize FrameFits
  split <;> omega

private theorem foldl_grownSize_le_iff (entries : List Bytes) (within : size ≤ limit) :
    entries.foldl (grownSize limit) size ≤ limit ↔ FramesFit limit size entries := by
  induction entries generalizing size with
  | nil => simpa [FramesFit] using within
  | cons buf rest ih =>
    rw [List.foldl_cons, FramesFit]
    by_cases fits : FrameFits limit size buf
    · have grownWithin := (grownSize_le_iff buf within).mpr fits
      rw [ih grownWithin]
      exact ⟨fun framesFit => ⟨fits, framesFit⟩, fun both => both.2⟩
    · have beyond := mt (grownSize_le_iff buf within).mp fits
      have later := le_foldl_grownSize limit rest (grownSize limit size buf)
      constructor
      · intro small
        omega
      · exact fun both => absurd both.1 fits

structure FileMeasured (state : BinlogState) : Prop where
  attached : FileAttached state
  size : (backlogFileSize state : Int) = state.bl.fileSize

variable {state : BinlogState}

theorem FileMeasured.congr {bl : Binlog} (measured : FileMeasured state)
    (fd : bl.fd = state.bl.fd) (path : bl.path = state.bl.path)
    (fileSize : bl.fileSize = state.bl.fileSize) : FileMeasured { state with bl := bl } := by
  have same : backlogFileSize { state with bl := bl } = backlogFileSize state := by
    unfold backlogFileSize
    rw [path]
  refine ⟨measured.attached.congr fd path, ?_⟩
  rw [same, fileSize]
  exact measured.size

variable {name : FileName}

theorem FileMeasured.fileAdd (buf : Bytes) (measured : FileMeasured state)
    (valid : state.bl.isValid = true) (named : state.bl.path = some name) :
    FileMeasured (binlogFileAdd state buf .full .full).2 ∧
      ∃ fd writePos entries,
        (binlogFileAdd state buf .full .full).2.bl =
          { state.bl with
            fileSize := grownSize state.bl.maxFileSize state.bl.fileSize buf
            fileWritePos := writePos
            fileEntries := entries
            fd := fd } := by
  by_cases full : state.bl.maxFileSize < state.bl.fileSize + buf.length
  · rw [(measured.attached.fileAdd_refused (.inr full)).2, grownSize, if_pos full]
    exact ⟨measured, state.bl.fd, state.bl.fileWritePos, state.bl.fileEntries, rfl⟩
  · rw [measured.attached.fileAdd valid named (by omega), grownSize, if_neg full]
    refine ⟨⟨attached_appended named, ?_⟩, _, _, _, rfl⟩
    have size := measured.size
    simp only [backlogFileSize, BinlogState.appended, named, Disk.get_set_same, Option.getD_some,
      List.length_append, length_frame] at size ⊢
    omega

theorem FileMeasured.flushEntries (count : Nat) (measured : FileMeasured state)
    (valid : state.bl.isValid = true) (named : state.bl.path = some name) :
    FileMeasured (flushEntries count state) ∧
      (flushEntries count state).bl.fileSize =
        (slotEntries (state.bl.cache.getD []) state.bl.readIndex count).foldl
          (grownSize state.bl.maxFileSize) state.bl.fileSize ∧
      (flushEntries count state).bl.path = state.bl.path ∧
      (flushEntries count state).bl.isValid = state.bl.isValid ∧
      (flushEntries count state).bl.maxFileSize = state.bl.maxFileSize := by
  induction count generalizing state with
  | zero => exact ⟨measured, rfl, rfl, rfl, rfl⟩
  | succ count ih =>
    have advanced :
        FileMeasured { state with bl := { state.bl with readIndex := state.bl.readIndex + 1 } } :=
      measured.congr rfl rfl rfl
    cases slot : ((state.bl.cache.getD [])[state.bl.readIndex]?).join with
    | none =>
      simp only [MonitorMerlin.flushEntries, slot, slotEntries, Option.toList_none, List.nil_append]
      exact ih advanced valid named
    | some buf =>
      obtain ⟨added, fd, writePos, entries, fields⟩ := advanced.fileAdd buf valid named
      have flushed := ih added (by rw [fields]; exact valid) (by rw [fields]; exact named)
      simp only [MonitorMerlin.flushEntries, slot, slotEntries, Option.toList_some,
        List.singleton_append, List.foldl_cons]
      simpa only [fields] using flushed

theorem binlogRead_cases (valid : state.bl.isValid = true) :
    (∃ buf,
        (binlogMemRead state.bl).1 = .ok buf ∧
          binlogRead state = (.ok buf, { state with bl := (binlogMemRead state.bl).2 })) ∨
      (∃ code, (binlogMemRead state.bl).1 = .error code) ∧
        binlogRead state = binlogFileRead { state with bl := (binlogMemRead state.bl).2 } := by
  unfold binlogRead
  rw [if_neg (by simp [valid])]
  rcases binlogMemRead state.bl with ⟨outcome, bl⟩
  cases outcome with
  | ok buf => exact .inl ⟨buf, rfl, rfl⟩
  | error code => exact .inr ⟨⟨code, rfl⟩, rfl⟩

theorem binlogFileRead_cases (state : BinlogState) :
    (state.bl.fileSize ≤ state.bl.fileReadPos ∧
        binlogFileRead state =
          (.error binlogEmpty,
            { bl :=
                { state.bl with
                  fileReadPos := 0
                  fileWritePos := 0
                  fileSize := 0
                  fileEntries := 0
                  fd := none }
              disk := state.disk.unlink state.bl.path })) ∨
      (state.bl.fileReadPos < state.bl.fileSize ∧ state.bl.fd = none ∧
        binlogFileRead state = (.error (-1), state)) ∨
      ∃ fd buf position entries,
        state.bl.fileReadPos < state.bl.fileSize ∧ state.bl.fd = some fd ∧
          binlogFileRead state =
            (.ok buf,
              { state with
                bl :=
                  { state.bl with
                    fileReadPos := position
                    fileEntries := entries
                    fd := some { fd with position := position.toNat } } }) := by
  unfold binlogFileRead
  split
  · next atEnd =>
      exact .inl ⟨atEnd, rfl⟩
  · next unread =>
      refine .inr ?_
      cases state.bl.fd with
      | none => exact .inl ⟨Int.not_le.mp unread, rfl, rfl⟩
      | some fd => exact .inr ⟨fd, _, _, _, Int.not_le.mp unread, rfl, rfl⟩

theorem binlogFileRead_isValid (state : BinlogState) :
    (binlogFileRead state).2.bl.isValid = state.bl.isValid := by
  rcases binlogFileRead_cases state with
    ⟨_, result⟩ | ⟨_, _, result⟩ | ⟨fd, buf, position, entries, _, _, result⟩ <;> rw [result]

theorem FileAttached.fileRead (attached : FileAttached state) :
    FileAttached (binlogFileRead state).2 := by
  rcases binlogFileRead_cases state with
    ⟨_, result⟩ | ⟨_, _, result⟩ | ⟨fd, buf, position, entries, _, someFd, result⟩
  · rw [result]
    exact nofun
  · rw [result]
    exact attached
  · rw [result]
    intro moved movedFd
    cases movedFd
    exact attached fd someFd

private theorem backlogFileSize_unlink (bl : Binlog) (disk : Disk) :
    backlogFileSize ⟨bl, disk.unlink bl.path⟩ = 0 := by
  unfold backlogFileSize
  cases named : bl.path with
  | none => rfl
  | some name =>
    dsimp only
    rw [disk.get_unlink rfl]
    rfl

theorem FileMeasured.fileRead (measured : FileMeasured state) :
    FileMeasured (binlogFileRead state).2 ∧
      (binlogFileRead state).2.bl.fileSize ≤ state.bl.fileSize ∧
      SameSettings (binlogFileRead state).2 state := by
  have attached := measured.attached.fileRead
  rcases binlogFileRead_cases state with
    ⟨atEnd, result⟩ | ⟨unread, noFd, result⟩ | ⟨fd, buf, position, entries, unread, someFd, result⟩
  · have size := measured.size
    rw [result] at attached ⊢
    exact ⟨⟨attached, congrArg Int.ofNat (backlogFileSize_unlink _ _)⟩, by simp only; omega,
      ⟨rfl, rfl, rfl, rfl, rfl, state.disk.metadata_unlink _⟩⟩
  · rw [result]
    exact ⟨measured, Int.le_refl _, .refl state⟩
  · rw [result] at attached ⊢
    exact ⟨⟨attached, measured.size⟩, Int.le_refl _, ⟨rfl, rfl, rfl, rfl, rfl, rfl⟩⟩

structure Metered (fsize : Nat) (state : BinlogState) : Prop where
  valid : state.bl.isValid = true
  limit : state.bl.maxFileSize = offT fsize
  measured : FileMeasured state

def offeredToFile (bl : Binlog) : BinlogCall → List Bytes
  | .add buf => if KeepsInMemory bl buf then [] else [buf]
  | .read => []
  | .flush => unreadEntries bl

/-- What a call offers to the file fits, lengths included. -/
def OfferFits (state : BinlogState) (call : BinlogCall) : Prop :=
  state.bl.path = none ∨
    FramesFit state.bl.maxFileSize state.bl.fileSize (offeredToFile state.bl call)

instance (state : BinlogState) (call : BinlogCall) : Decidable (OfferFits state call) :=
  inferInstanceAs (Decidable (_ ∨ _))

variable {fsize : Nat}

theorem Metered.add (metered : Metered fsize state) (buf : Bytes) :
    Metered fsize (binlogAdd state buf).2 ∧
      (binlogAdd state buf).2.bl.path = state.bl.path ∧
      (state.bl.path ≠ none →
        (binlogAdd state buf).2.bl.fileSize =
          (offeredToFile state.bl (.add buf)).foldl
            (grownSize state.bl.maxFileSize) state.bl.fileSize) := by
  rw [binlogAdd, offeredToFile]
  by_cases inMemory : KeepsInMemory state.bl buf
  · obtain ⟨cache, alloc, fields⟩ := binlogMemAdd_fields state.bl buf
    rw [binlogAddWrites_memory metered.valid inMemory, if_pos inMemory, fields]
    exact ⟨⟨metered.valid, metered.limit, metered.measured.congr rfl rfl rfl⟩, rfl, fun _ => rfl⟩
  · rw [binlogAddWrites_toFile metered.valid inMemory, if_neg inMemory]
    cases named : state.bl.path with
    | none =>
      rw [(metered.measured.attached.fileAdd_refused (.inl named)).2]
      exact ⟨metered, named, fun isNamed => absurd rfl isNamed⟩
    | some name =>
      obtain ⟨measured, fd, writePos, entries, fields⟩ :=
        metered.measured.fileAdd buf metered.valid named
      refine ⟨⟨?_, ?_, measured⟩, ?_, ?_⟩
      · rw [fields]
        exact metered.valid
      · rw [fields]
        exact metered.limit
      · rw [fields]
        exact named
      · intro _
        rw [fields]
        rfl

theorem Metered.read (metered : Metered fsize state) :
    Metered fsize (binlogRead state).2 ∧
      (binlogRead state).2.bl.path = state.bl.path ∧
      (binlogRead state).2.bl.fileSize ≤ state.bl.fileSize := by
  have sameFile := binlogMemRead_sameFile state.bl
  have inMemory : Metered fsize { state with bl := (binlogMemRead state.bl).2 } := by
    obtain ⟨cache, readIndex, writeIndex, memAvail, fields⟩ := binlogMemRead_fields state.bl
    rw [fields]
    exact ⟨metered.valid, metered.limit, metered.measured.congr rfl rfl rfl⟩
  rcases binlogRead_cases metered.valid with ⟨buf, _, result⟩ | ⟨_, result⟩
  · rw [result]
    exact ⟨inMemory, sameFile.path, sameFile.fileSize.le⟩
  · obtain ⟨measured, smaller, settings⟩ := inMemory.measured.fileRead
    rw [result]
    exact ⟨⟨(binlogFileRead_isValid _).trans inMemory.valid,
      settings.maxFileSize.trans inMemory.limit, measured⟩,
      settings.path.trans sameFile.path, smaller.trans sameFile.fileSize.le⟩

theorem Metered.flushEntries_without_path (count : Nat) (metered : Metered fsize state)
    (noPath : state.bl.path = none) :
    Metered fsize (flushEntries count state) ∧ (flushEntries count state).bl.path = none := by
  induction count generalizing state with
  | zero => exact ⟨metered, noPath⟩
  | succ count ih =>
    have advanced : Metered fsize
        { state with bl := { state.bl with readIndex := state.bl.readIndex + 1 } } :=
      ⟨metered.valid, metered.limit, metered.measured.congr rfl rfl rfl⟩
    unfold flushEntries
    cases ((state.bl.cache.getD [])[state.bl.readIndex]?).join with
    | none => exact ih advanced noPath
    | some buf =>
      simp only [(advanced.measured.attached.fileAdd_refused (.inl noPath)).2]
      exact ih advanced noPath

private theorem slotEntries_nil (index count : Nat) : slotEntries [] index count = [] := by
  induction count generalizing index with
  | zero => rfl
  | succ count ih => simp [slotEntries, ih]

theorem Metered.dropMemory (metered : Metered fsize state) :
    Metered fsize
      { state with
        bl :=
          { state.bl with
            cache := none
            memSize := 0
            writeIndex := 0
            readIndex := 0
            alloc := 0 } } :=
  ⟨metered.valid, metered.limit, metered.measured.congr rfl rfl rfl⟩

theorem Metered.flush (metered : Metered fsize state) :
    Metered fsize (binlogFlush state) ∧
      (binlogFlush state).bl.path = state.bl.path ∧
      (state.bl.path ≠ none →
        (binlogFlush state).bl.fileSize =
          (offeredToFile state.bl .flush).foldl
            (grownSize state.bl.maxFileSize) state.bl.fileSize) := by
  rw [binlogFlush, offeredToFile, unreadEntries]
  cases cached : state.bl.cache with
  | none =>
    simp only [Option.isSome_none, Option.getD_none, slotEntries_nil]
    exact ⟨metered.dropMemory, rfl, fun _ => rfl⟩
  | some slots =>
    simp only [Option.isSome_some, if_true, Option.getD_some]
    cases named : state.bl.path with
    | none =>
      obtain ⟨flushed, stillNone⟩ := metered.flushEntries_without_path
        (state.bl.writeIndex - state.bl.readIndex) named
      exact ⟨flushed.dropMemory, stillNone, fun isNamed => absurd rfl isNamed⟩
    | some name =>
      obtain ⟨measured, size, path, valid, limit⟩ := metered.measured.flushEntries
        (state.bl.writeIndex - state.bl.readIndex) metered.valid named
      have flushed : Metered fsize
          (flushEntries (state.bl.writeIndex - state.bl.readIndex) state) :=
        ⟨valid.trans metered.valid, limit.trans metered.limit, measured⟩
      rw [cached, Option.getD_some] at size
      exact ⟨flushed.dropMemory, path.trans named, fun _ => size⟩

theorem Metered.step (metered : Metered fsize state) (call : BinlogCall) :
    Metered fsize (binlogStep state call) := by
  cases call with
  | add buf => exact (metered.add buf).1
  | read => exact metered.read.1
  | flush => exact metered.flush.1

private theorem backlogFileSize_of_path_none (noPath : state.bl.path = none) :
    backlogFileSize state = 0 := by
  simp [backlogFileSize, noPath]

theorem offT_cases (value : Nat) : offT value = (value % 2 ^ 64 : Nat) ∨ offT value < 0 := by
  unfold offT
  split
  · exact .inl rfl
  · right
    omega

theorem Metered.offer_within_iff {state next : BinlogState} {entries : List Bytes}
    (metered : Metered fsize state) (meteredNext : Metered fsize next)
    (path : next.bl.path = state.bl.path) (grown : state.bl.path ≠ none →
      next.bl.fileSize = entries.foldl (grownSize state.bl.maxFileSize) state.bl.fileSize)
    (within : backlogFileSize state ≤ fsize % 2 ^ 64) :
    (state.bl.path = none ∨ FramesFit state.bl.maxFileSize state.bl.fileSize entries) ↔
      backlogFileSize next ≤ fsize % 2 ^ 64 := by
  by_cases noPath : state.bl.path = none
  · rw [backlogFileSize_of_path_none (path.trans noPath)]
    exact ⟨fun _ => Nat.zero_le _, fun _ => .inl noPath⟩
  · have size := metered.measured.size
    have sizeNext := meteredNext.measured.size
    rw [grown noPath, metered.limit] at sizeNext
    rw [metered.limit]
    rcases offT_cases fsize with asked | negative
    · have withinLimit : state.bl.fileSize ≤ offT fsize := by omega
      rw [or_iff_right noPath, ← foldl_grownSize_le_iff entries withinLimit]
      omega
    · have beyondLimit : offT fsize < state.bl.fileSize := by omega
      have unchanged := foldl_grownSize_of_negative entries beyondLimit
      have fits := framesFit_of_negative entries beyondLimit
      constructor
      · intro _
        omega
      · exact fun _ => .inr fits

theorem Metered.step_within_iff (metered : Metered fsize state) (call : BinlogCall)
    (within : backlogFileSize state ≤ fsize % 2 ^ 64) :
    OfferFits state call ↔ backlogFileSize (binlogStep state call) ≤ fsize % 2 ^ 64 := by
  cases call with
  | add buf =>
    obtain ⟨meteredNext, path, grown⟩ := metered.add buf
    exact metered.offer_within_iff meteredNext path grown within
  | flush =>
    obtain ⟨meteredNext, path, grown⟩ := metered.flush
    exact metered.offer_within_iff meteredNext path grown within
  | read =>
    obtain ⟨meteredNext, path, smaller⟩ := metered.read
    have size := metered.measured.size
    have sizeNext := meteredNext.measured.size
    constructor
    · intro _
      rw [binlogStep]
      omega
    · exact fun _ => .inr trivial

theorem metered_create {path : Option Bytes} {msize fsize : Nat} {disk : Disk} {start : BinlogState}
    (created : binlogCreate path msize fsize true disk = some start) :
    Metered fsize start ∧ backlogFileSize start = 0 := by
  obtain rfl := binlogCreate_eq created
  have empty := backlogFileSize_unlink (freshBinlog msize fsize) disk
  exact ⟨⟨rfl, rfl, nofun, congrArg Int.ofNat empty⟩, empty⟩

/-- The file stays within its limit exactly as long as no entry is taken that
fits only without its length. -/
theorem backlogFile_within_limit_iff
    {path : Option Bytes} {msize fsize : Nat} {disk : Disk} {start : BinlogState}
    (created : binlogCreate path msize fsize true disk = some start)
    (calls : List BinlogCall) :
    Run.Always (fun state call => some (binlogStep state call))
        (fun state => backlogFileSize state ≤ fsize % 2 ^ 64) start calls ↔
      Run.Permits (fun state call => some (binlogStep state call)) OfferFits start calls := by
  obtain ⟨metered, empty⟩ := metered_create created
  rw [Run.always_and_iff _ metered]
  · apply Run.always_iff_permits
    · intro state call ⟨meteredState, within⟩
      rw [meteredState.step_within_iff call within]
      simp [meteredState.step call]
    · exact ⟨metered, by omega⟩
  · intro state call next meteredState _ stepped _
    cases stepped
    exact meteredState.step call

theorem backlogFile_within_limit_eight :
    Run.Always (fun state call => some (binlogStep state call))
        (fun state => backlogFileSize state ≤ 8 % 2 ^ 64) (sampleBinlog 0 8)
        [.add [1, 2, 3, 4], .add [5], .read, .flush] := by
  rw [backlogFile_within_limit_iff (sampleBinlog_created 0 8)]
  decide

theorem backlogFile_beyond_limit :
    ¬ Run.Always (fun state call => some (binlogStep state call))
        (fun state => backlogFileSize state ≤ 8 % 2 ^ 64) (sampleBinlog 0 8)
        [.add [1, 2, 3, 4, 5, 6, 7, 8]] := by
  intro always
  obtain ⟨state, reached, within⟩ := always _ List.prefix_rfl
  cases reached
  revert within
  decide

end MonitorMerlin
