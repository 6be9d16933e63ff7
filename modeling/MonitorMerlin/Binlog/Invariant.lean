import MonitorMerlin.Binlog.Basic
import MonitorMerlin.Library.FifoQueue

/-! # What a backlog represents -/

namespace MonitorMerlin

open ByteImage List

theorem patch_at_end (content data : Bytes) :
    patch content content.length data = content ++ data := by
  simp [patch]

@[simp]
theorem length_frame (buf : Bytes) : (frame buf).length = buf.length + 4 := by
  simp [frame, Nat.add_comm]

@[simp]
theorem frames_nil : frames [] = [] := rfl

@[simp]
theorem frames_cons (buf : Bytes) (rest : List Bytes) :
    frames (buf :: rest) = frame buf ++ frames rest := rfl

@[simp]
theorem frames_append (first second : List Bytes) :
    frames (first ++ second) = frames first ++ frames second := by
  simp [frames]

/-- The unread slots of memory hold `mem`. -/
structure MemoryHolds (bl : Binlog) (mem : List Bytes) : Prop where
  capacity : (bl.cache.getD []).length = bl.alloc
  count : bl.writeIndex = bl.readIndex + mem.length
  room : bl.writeIndex ≤ bl.alloc
  bound : bl.alloc < 2 ^ 32
  contents : ∀ index, index < mem.length →
    (bl.cache.getD [])[bl.readIndex + index]? = some mem[index]?

inductive FileHolds (state : BinlogState) : List Bytes → Prop
  | closed :
      state.bl.fd = none →
      state.bl.fileSize = 0 →
      state.bl.fileReadPos = 0 →
      state.bl.fileWritePos = 0 →
      state.bl.fileEntries = 0 →
      (∀ name, state.bl.path = some name → state.disk.get name = none) →
      FileHolds state []
  | opened (fd : Descriptor) (consumed : Bytes) (file : List Bytes) :
      state.bl.fd = some fd →
      state.bl.path = some fd.target →
      fd.appending = true →
      state.disk.get fd.target = some (consumed ++ frames file) →
      state.bl.fileSize = (consumed ++ frames file).length →
      state.bl.fileReadPos = consumed.length →
      state.bl.fileWritePos = (consumed ++ frames file).length →
      state.bl.fileEntries = uint file.length →
      FileHolds state file

/-- `safe_write` takes the length as an `int`. -/
def EntryFits (buf : Bytes) : Prop := buf.length < 2 ^ 31

instance (buf : Bytes) : Decidable (EntryFits buf) := inferInstanceAs (Decidable (_ < _))

/-- The backlog holds `mem` in memory and `file` in its file. -/
structure Represents (state : BinlogState) (mem file : List Bytes) : Prop where
  valid : state.bl.isValid = true
  memory : MemoryHolds state.bl mem
  onFile : FileHolds state file
  memoryFirst : mem ≠ [] → state.bl.fileReadPos = 0
  fits : ∀ buf ∈ mem ++ file, EntryFits buf

def GrowFits (bl : Binlog) : Prop := bl.writeIndex < bl.alloc ∨ (bl.alloc + 16) * 3 < 2 ^ 32

instance (bl : Binlog) : Decidable (GrowFits bl) := inferInstanceAs (Decidable (_ ∨ _))

def slotLimit : Nat := 1431655749

variable {bl : Binlog} {mem : List Bytes}

theorem growFits_of_slots (slots : bl.writeIndex ≤ slotLimit) : GrowFits bl := by
  unfold slotLimit at slots
  unfold GrowFits
  omega

theorem MemoryHolds.congr {bl other : Binlog} (holds : MemoryHolds bl mem)
    (cache : other.cache = bl.cache) (alloc : other.alloc = bl.alloc)
    (readIndex : other.readIndex = bl.readIndex) (writeIndex : other.writeIndex = bl.writeIndex) :
    MemoryHolds other mem := by
  constructor
  · rw [cache, alloc, holds.capacity]
  · rw [writeIndex, readIndex, holds.count]
  · rw [writeIndex, alloc]
    exact holds.room
  · rw [alloc]
    exact holds.bound
  · rw [cache, readIndex]
    exact holds.contents

theorem MemoryHolds.cache_eq (holds : MemoryHolds bl mem) (allocated : 0 < bl.alloc) :
    bl.cache = some (bl.cache.getD []) := by
  have capacity := holds.capacity
  cases cacheShape : bl.cache with
  | none =>
    simp only [cacheShape, Option.getD_none, length_nil] at capacity
    omega
  | some slots => rfl

theorem MemoryHolds.grow (holds : MemoryHolds bl mem) (fits : (bl.alloc + 16) * 3 < 2 ^ 32) :
    MemoryHolds (binlogGrow bl) mem ∧ (binlogGrow bl).writeIndex < (binlogGrow bl).alloc := by
  have newAlloc : (bl.alloc + 16) * 3 % 2 ^ 32 / 2 = (bl.alloc + 16) * 3 / 2 := by
    rw [Nat.mod_eq_of_lt fits]
  have capacity := holds.capacity
  have room := holds.room
  refine ⟨⟨?_, holds.count, ?_, ?_, ?_⟩, ?_⟩
  · simp only [binlogGrow, Option.getD_some, length_append, length_take, length_replicate, newAlloc]
    omega
  · simp only [binlogGrow, newAlloc]
    omega
  · simp only [binlogGrow, newAlloc]
    omega
  · intro index indexBound
    have count := holds.count
    have slotBound : bl.readIndex + index < (bl.cache.getD []).length := by
      omega
    simp only [binlogGrow, Option.getD_some, newAlloc]
    rw [take_of_length_le (by omega), getElem?_append_left slotBound]
    exact holds.contents index indexBound
  · simp only [binlogGrow, newAlloc]
    omega

theorem MemoryHolds.store (buf : Bytes) (memSize memAvail : Nat) (holds : MemoryHolds bl mem)
    (free : bl.writeIndex < bl.alloc) :
    MemoryHolds
      { bl with
        cache := bl.cache.map fun slots => slots.set bl.writeIndex (some buf)
        writeIndex := uint (bl.writeIndex + 1)
        memSize := memSize
        memAvail := memAvail }
      (mem ++ [buf]) := by
  have capacity := holds.capacity
  have count := holds.count
  have bound := holds.bound
  have nextIndex : uint (bl.writeIndex + 1) = bl.writeIndex + 1 := by
    unfold uint
    omega
  have cacheSome := holds.cache_eq (by omega)
  have stored :
      (bl.cache.map fun slots => slots.set bl.writeIndex (some buf)).getD [] =
        (bl.cache.getD []).set bl.writeIndex (some buf) := by
    rw [cacheSome]
    rfl
  refine ⟨?_, ?_, ?_, bound, ?_⟩
  · simpa [stored] using capacity
  · simp only [nextIndex, length_append, length_singleton]
    omega
  · simp only [nextIndex]
    omega
  · intro index indexBound
    simp only [stored]
    rw [length_append, length_singleton] at indexBound
    by_cases last : index = mem.length
    · subst index
      rw [← count, getElem?_set_self (by omega)]
      simp
    · have earlier : index < mem.length := by omega
      rw [getElem?_set_ne (by omega), holds.contents index earlier,
        getElem?_append_left earlier]

theorem MemoryHolds.memAdd (buf : Bytes) (holds : MemoryHolds bl mem) (fits : GrowFits bl) :
    MemoryHolds (binlogMemAdd bl buf) (mem ++ [buf]) := by
  unfold binlogMemAdd
  by_cases full : bl.alloc ≤ bl.writeIndex
  · have product : (bl.alloc + 16) * 3 < 2 ^ 32 := by
      rcases fits with free | product
      · omega
      · exact product
    obtain ⟨grown, free⟩ := holds.grow product
    simp only [full, if_true]
    exact grown.store buf _ _ free
  · simp only [full, if_false]
    exact holds.store buf _ _ (by omega)

theorem MemoryHolds.memRead_nil (holds : MemoryHolds bl []) :
    binlogMemRead bl = (.error binlogEmpty, { bl with readIndex := 0, writeIndex := 0 }) := by
  have drained : bl.writeIndex ≤ bl.readIndex := by
    simpa using holds.count.le
  unfold binlogMemRead
  cases bl.cache with
  | none => rfl
  | some slots => simp [drained]

theorem MemoryHolds.reset (holds : MemoryHolds bl []) :
    MemoryHolds { bl with readIndex := 0, writeIndex := 0 } [] :=
  ⟨holds.capacity, rfl, Nat.zero_le _, holds.bound, by simp⟩

variable {buf : Bytes} {rest : List Bytes}

theorem MemoryHolds.alloc_pos (holds : MemoryHolds bl (buf :: rest)) : 0 < bl.alloc := by
  have count := holds.count
  have room := holds.room
  rw [length_cons] at count
  omega

theorem MemoryHolds.memRead_eq (holds : MemoryHolds bl (buf :: rest)) :
    binlogMemRead bl = (.ok buf, if rest = [] then
          { bl with
            cache := some ((bl.cache.getD []).set bl.readIndex none)
            readIndex := 0
            writeIndex := 0
            memAvail := 0 }
        else
          { bl with
            cache := some ((bl.cache.getD []).set bl.readIndex none)
            readIndex := bl.readIndex + 1
            memAvail := uint (bl.memAvail + 2 ^ 32 - uint buf.length) }) := by
  have cacheSome := holds.cache_eq holds.alloc_pos
  have count := holds.count
  have first := holds.contents 0 (by simp)
  simp only [Nat.add_zero, getElem?_cons_zero] at first
  rw [length_cons] at count
  have unread : ¬ bl.writeIndex ≤ bl.readIndex := by omega
  have last : bl.writeIndex ≤ bl.readIndex + 1 ↔ rest = [] := by
    rw [← length_eq_zero_iff]
    omega
  unfold binlogMemRead
  rw [cacheSome]
  simp only [unread, if_false, first, Option.join_some, last]
  by_cases restNil : rest = []
  · simp [restNil]
  · simp [restNil]

theorem MemoryHolds.memRead_cons (holds : MemoryHolds bl (buf :: rest)) :
    MemoryHolds (binlogMemRead bl).2 rest := by
  have capacity := holds.capacity
  have count := holds.count
  have room := holds.room
  rw [length_cons] at count
  rw [holds.memRead_eq]
  by_cases restNil : rest = []
  · subst restNil
    refine ⟨?_, rfl, Nat.zero_le _, holds.bound, by simp⟩
    simpa using capacity
  · simp only [restNil, if_false]
    refine ⟨by simpa using capacity, by simp only; omega, room, holds.bound, ?_⟩
    intro index indexBound
    have kept := holds.contents (index + 1) (by simpa using indexBound)
    simp only [Option.getD_some, getElem?_cons_succ] at kept ⊢
    rw [getElem?_set_ne (by omega),
      show bl.readIndex + 1 + index = bl.readIndex + (index + 1) by omega]
    exact kept

structure SameFile (bl other : Binlog) : Prop where
  fd : bl.fd = other.fd
  path : bl.path = other.path
  fileSize : bl.fileSize = other.fileSize
  fileReadPos : bl.fileReadPos = other.fileReadPos
  fileWritePos : bl.fileWritePos = other.fileWritePos
  fileEntries : bl.fileEntries = other.fileEntries
  isValid : bl.isValid = other.isValid

theorem binlogMemRead_fields (bl : Binlog) :
    ∃ cache readIndex writeIndex memAvail, (binlogMemRead bl).2 =
      { bl with
        cache := cache, readIndex := readIndex, writeIndex := writeIndex,
        memAvail := memAvail } := by
  unfold binlogMemRead
  cases bl.cache with
  | none => exact ⟨_, _, _, _, rfl⟩
  | some slots =>
    dsimp only
    split
    · exact ⟨_, _, _, _, rfl⟩
    · split
      · exact ⟨_, _, _, _, rfl⟩
      · split <;> exact ⟨_, _, _, _, rfl⟩

theorem binlogMemAdd_fields (bl : Binlog) (buf : Bytes) :
    ∃ cache alloc, binlogMemAdd bl buf =
      { bl with
        cache := cache
        alloc := alloc
        writeIndex := uint (bl.writeIndex + 1)
        memSize := uint (bl.memSize + (buf.length + entryOverhead))
        memAvail := uint (bl.memAvail + buf.length) } := by
  unfold binlogMemAdd
  dsimp only
  split <;> exact ⟨_, _, rfl⟩

theorem binlogMemRead_sameFile (bl : Binlog) : SameFile (binlogMemRead bl).2 bl := by
  obtain ⟨cache, readIndex, writeIndex, memAvail, fields⟩ := binlogMemRead_fields bl
  rw [fields]
  constructor <;> rfl

theorem binlogMemAdd_sameFile (bl : Binlog) (buf : Bytes) : SameFile (binlogMemAdd bl buf) bl := by
  obtain ⟨cache, alloc, fields⟩ := binlogMemAdd_fields bl buf
  rw [fields]
  constructor <;> rfl

variable {state : BinlogState}

theorem FileHolds.congr {file : List Bytes} (holds : FileHolds state file)
    (same : SameFile bl state.bl) : FileHolds { state with bl := bl } file := by
  cases holds with
  | closed noFd size readPos writePos entries absent =>
    exact .closed (same.fd.trans noFd) (same.fileSize.trans size)
      (same.fileReadPos.trans readPos) (same.fileWritePos.trans writePos)
      (same.fileEntries.trans entries)
      (fun name named => absent name (same.path.symm.trans named))
  | opened descriptor consumed file someFd named appending content size readPos writePos entries =>
    exact .opened descriptor consumed file (same.fd.trans someFd) (same.path.trans named)
      appending content (same.fileSize.trans size) (same.fileReadPos.trans readPos)
      (same.fileWritePos.trans writePos) (same.fileEntries.trans entries)

variable {fd : Descriptor}

theorem safeWrite_full {content : Bytes} (buf : Bytes) (someFd : state.bl.fd = some fd)
    (appending : fd.appending = true) (found : state.disk.get fd.target = some content) :
    safeWrite state buf .full =
      (0,
        { bl :=
            { state.bl with
              fileWritePos := (content.length + buf.length : Nat)
              fd := some { fd with position := content.length + buf.length } }
          disk := state.disk.set fd.target (some (content ++ buf)) }) := by
  simp [safeWrite, someFd, appending, found, WriteOutcome.result, patch_at_end]

def FileAttached (state : BinlogState) : Prop :=
  ∀ fd, state.bl.fd = some fd → state.bl.path = some fd.target ∧ fd.appending = true ∧
    ∃ content, state.disk.get fd.target = some content

def BinlogState.appended (state : BinlogState) (name : FileName) (content buf : Bytes) :
    BinlogState where
  bl :=
    { state.bl with
      fileSize := state.bl.fileSize + (buf.length + 4 : Nat)
      fileWritePos := (content ++ frame buf).length
      fileEntries := uint (state.bl.fileEntries + 1)
      fd := some ⟨name, (content ++ frame buf).length, true⟩ }
  disk := state.disk.set name (some (content ++ frame buf))

variable {name : FileName} {file : List Bytes}

theorem FileHolds.attached (holds : FileHolds state file) : FileAttached state := by
  intro other isOpen
  cases holds with
  | closed noFd =>
    rw [noFd] at isOpen
    cases isOpen
  | opened fd consumed file someFd atPath appending content =>
    obtain rfl := Option.some.inj (someFd.symm.trans isOpen)
    exact ⟨atPath, appending, _, content⟩

theorem attached_appended {content : Bytes} (named : state.bl.path = some name) :
    FileAttached (state.appended name content buf) := by
  intro fd someFd
  cases someFd
  exact ⟨named, rfl, _, Disk.get_set_same _ _ _⟩

variable (attached : FileAttached state)

include attached

theorem FileAttached.congr (fd : bl.fd = state.bl.fd) (path : bl.path = state.bl.path) :
    FileAttached { state with bl := bl } := by
  intro other isOpen
  rw [path]
  exact attached other (fd.symm.trans isOpen)

theorem FileAttached.opened (valid : state.bl.isValid = true) (named : state.bl.path = some name) :
    ∃ position, binlogOpen state =
      (0,
        { bl := { state.bl with fd := some ⟨name, position, true⟩ }
          disk := state.disk.set name (some ((state.disk.get name).getD [])) }) := by
  cases someFd : state.bl.fd with
  | none => exact ⟨0, by simp [binlogOpen, someFd, named, valid]⟩
  | some fd =>
    obtain ⟨atPath, appending, content, found⟩ := attached fd someFd
    obtain rfl : fd.target = name := Option.some.inj (atPath.symm.trans named)
    have same : state.disk.set fd.target (some content) = state.disk := by
      rw [← found, Disk.set_get]
    have isOpen : binlogOpen state = (0, state) := by simp [binlogOpen, someFd]
    have isFd : (some ⟨fd.target, fd.position, true⟩ : Option Descriptor) = state.bl.fd := by
      rw [someFd, ← appending]
    exact ⟨fd.position, by rw [isOpen, found, Option.getD_some, same, isFd]⟩

theorem FileAttached.fileAdd (valid : state.bl.isValid = true) (named : state.bl.path = some name)
    (room : state.bl.fileSize + buf.length ≤ state.bl.maxFileSize) :
    binlogFileAdd state buf .full .full =
      (0, state.appended name ((state.disk.get name).getD []) buf) := by
  obtain ⟨position, opened⟩ := attached.opened valid named
  generalize (state.disk.get name).getD [] = content at opened ⊢
  have headed := @safeWrite_full (binlogOpen state).2 ⟨name, position, true⟩ content
    (leBytes 4 buf.length) (by rw [opened]) rfl (by rw [opened]; simp)
  have bodied := @safeWrite_full (safeWrite (binlogOpen state).2 (leBytes 4 buf.length) .full).2
    ⟨name, content.length + (leBytes 4 buf.length).length, true⟩ (content ++ leBytes 4 buf.length)
    buf (by rw [headed]) rfl (by rw [headed]; simp)
  unfold binlogFileAdd
  rw [if_neg (by omega)]
  simp only [bodied]
  simp only [headed]
  simp [opened, BinlogState.appended, frame, Nat.add_assoc]

theorem FileAttached.fileAdd_refused {header body : WriteOutcome}
    (refused : state.bl.path = none ∨ state.bl.maxFileSize < state.bl.fileSize + buf.length) :
    (binlogFileAdd state buf header body).1 ≠ 0 ∧
      (binlogFileAdd state buf header body).2 = state := by
  by_cases full : state.bl.maxFileSize < state.bl.fileSize + buf.length
  · simp [binlogFileAdd, full, binlogEnospc]
  · have noPath : state.bl.path = none := refused.resolve_right full
    have noFd : state.bl.fd = none := by
      by_contra isOpen
      obtain ⟨fd, someFd⟩ := Option.ne_none_iff_exists'.mp isOpen
      have atPath := (attached fd someFd).1
      rw [noPath] at atPath
      cases atPath
    simp [binlogFileAdd, full, binlogOpen, noFd, noPath, binlogEnopath]

end MonitorMerlin
