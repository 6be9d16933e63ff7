import MonitorMerlin.Binlog.Invariant

/-! # The backlog simulates a queue -/

namespace MonitorMerlin

open ByteImage List

variable {state : BinlogState} {file : List Bytes}

theorem FileHolds.fileAdd {name : FileName} (buf : Bytes) (holds : FileHolds state file)
    (valid : state.bl.isValid = true) (named : state.bl.path = some name)
    (room : state.bl.fileSize + buf.length ≤ state.bl.maxFileSize) :
    ∃ content, binlogFileAdd state buf .full .full = (0, state.appended name content buf) ∧
      FileHolds (state.appended name content buf) (file ++ [buf]) := by
  refine ⟨_, holds.attached.fileAdd valid named room, ?_⟩
  cases holds with
  | closed noFd size readPos writePos entries absent =>
    rw [absent name named]
    exact .opened ⟨name, (frame buf).length, true⟩ [] [buf] rfl named rfl
      (by simp [BinlogState.appended]) (by simp [BinlogState.appended, size]) readPos
      (by simp [BinlogState.appended]) (by simp [BinlogState.appended, entries])
  | opened fd consumed file someFd atPath appending content size readPos writePos entries =>
    obtain rfl : fd.target = name := Option.some.inj (atPath.symm.trans named)
    rw [content]
    refine .opened ⟨fd.target, _, true⟩ consumed (file ++ [buf]) rfl atPath rfl
      (by simp [BinlogState.appended]) ?_ readPos (by simp [BinlogState.appended]) ?_
    · simp only [BinlogState.appended, size, frames_append, frames_cons, frames_nil, append_nil,
        length_append, length_frame]
      omega
    · simp only [BinlogState.appended, entries, uint, length_append, length_singleton]
      omega

variable {buf : Bytes} {header body : WriteOutcome}

def KeepsInMemory (bl : Binlog) (buf : Bytes) : Prop :=
  bl.fd = none ∧ uint (bl.memSize + buf.length) < bl.maxMemSize

instance (bl : Binlog) (buf : Bytes) : Decidable (KeepsInMemory bl buf) :=
  inferInstanceAs (Decidable (_ ∧ _))

/-- The limit of the file leaves room for the entry. -/
def FileHasRoom (bl : Binlog) (buf : Bytes) : Prop :=
  bl.path ≠ none ∧ bl.fileSize + buf.length ≤ bl.maxFileSize

instance (bl : Binlog) (buf : Bytes) : Decidable (FileHasRoom bl buf) :=
  inferInstanceAs (Decidable (_ ∧ _))

theorem FileHolds.eq_nil_of_closed (holds : FileHolds state file) (noFd : state.bl.fd = none) :
    file = [] ∧ state.bl.fileReadPos = 0 := by
  cases holds with
  | closed _ _ readPos _ _ _ => exact ⟨rfl, readPos⟩
  | opened fd consumed file someFd _ _ _ _ _ _ _ =>
    rw [noFd] at someFd
    cases someFd

variable {mem : List Bytes}

theorem Represents.fits_append (represented : Represents state mem file) (fits : EntryFits buf) :
    ∀ other ∈ mem ++ file ++ [buf], EntryFits other := by
  intro other member
  rcases mem_append.mp member with earlier | last
  · exact represented.fits other earlier
  · rw [mem_singleton.mp last]
    exact fits

theorem binlogAddWrites_memory (valid : state.bl.isValid = true)
    (inMemory : KeepsInMemory state.bl buf) :
    binlogAddWrites state buf header body =
      (0, { state with bl := binlogMemAdd state.bl buf }) := by
  unfold binlogAddWrites
  rw [if_neg (by simp [valid])]
  exact if_pos inMemory

theorem Represents.add_memory (represented : Represents state mem file) (fits : EntryFits buf)
    (grows : GrowFits state.bl) (inMemory : KeepsInMemory state.bl buf) :
    (binlogAdd state buf).1 = 0 ∧
      file = [] ∧ Represents (binlogAdd state buf).2 (mem ++ [buf]) [] := by
  obtain ⟨fileNil, readPos⟩ := represented.onFile.eq_nil_of_closed inMemory.1
  subst fileNil
  have same := binlogMemAdd_sameFile state.bl buf
  unfold binlogAdd
  rw [binlogAddWrites_memory represented.valid inMemory]
  exact ⟨rfl, rfl,
    { valid := same.isValid.trans represented.valid
      memory := represented.memory.memAdd buf grows
      onFile := represented.onFile.congr same
      memoryFirst := fun _ => same.fileReadPos.trans readPos
      fits := by simpa using represented.fits_append fits }⟩

theorem binlogAddWrites_toFile (valid : state.bl.isValid = true)
    (toFile : ¬ KeepsInMemory state.bl buf) :
    binlogAddWrites state buf header body = binlogFileAdd state buf header body := by
  unfold binlogAddWrites
  rw [if_neg (by simp [valid])]
  exact if_neg toFile

theorem FileAttached.add_cases (attached : FileAttached state) (valid : state.bl.isValid = true)
    (buf : Bytes) :
    binlogAdd state buf = (0, { state with bl := binlogMemAdd state.bl buf }) ∨
      (∃ name, state.bl.path = some name ∧
        binlogAdd state buf = (0, state.appended name ((state.disk.get name).getD []) buf)) ∨
      (binlogAdd state buf).1 ≠ 0 ∧ (binlogAdd state buf).2 = state := by
  unfold binlogAdd
  by_cases inMemory : KeepsInMemory state.bl buf
  · exact .inl (binlogAddWrites_memory valid inMemory)
  · rw [binlogAddWrites_toFile valid inMemory]
    by_cases full : state.bl.maxFileSize < state.bl.fileSize + buf.length
    · exact .inr (.inr (attached.fileAdd_refused (.inr full)))
    · cases named : state.bl.path with
      | none => exact .inr (.inr (attached.fileAdd_refused (.inl named)))
      | some name => exact .inr (.inl ⟨name, rfl, attached.fileAdd valid named (by omega)⟩)

section

variable (represented : Represents state mem file)

include represented

theorem Represents.add_file (fits : EntryFits buf) (toFile : ¬ KeepsInMemory state.bl buf)
    (room : FileHasRoom state.bl buf) :
    ∃ name content, state.bl.path = some name ∧
      binlogAdd state buf = (0, state.appended name content buf) ∧
      Represents (binlogAdd state buf).2 mem (file ++ [buf]) := by
  obtain ⟨name, named⟩ := Option.ne_none_iff_exists'.mp room.1
  obtain ⟨content, added, onFile⟩ :=
    represented.onFile.fileAdd buf represented.valid named room.2
  rw [← binlogAddWrites_toFile represented.valid toFile] at added
  have memory := represented.memory
  refine ⟨name, content, named, added, ?_⟩
  rw [binlogAdd, added]
  exact ⟨represented.valid, memory.congr rfl rfl rfl rfl, onFile, represented.memoryFirst,
    by simpa using represented.fits_append fits⟩

theorem Represents.addWrites_refused (toFile : ¬ KeepsInMemory state.bl buf)
    (noRoom : ¬ FileHasRoom state.bl buf) :
    (binlogAddWrites state buf header body).1 ≠ 0 ∧
      (binlogAddWrites state buf header body).2 = state := by
  rw [binlogAddWrites_toFile represented.valid toFile]
  apply represented.onFile.attached.fileAdd_refused
  by_cases noPath : state.bl.path = none
  · exact .inl noPath
  · exact .inr (Int.not_le.mp fun inside => noRoom ⟨noPath, inside⟩)

theorem Represents.add_refused (toFile : ¬ KeepsInMemory state.bl buf)
    (noRoom : ¬ FileHasRoom state.bl buf) :
    (binlogAdd state buf).1 ≠ 0 ∧ (binlogAdd state buf).2 = state :=
  represented.addWrites_refused toFile noRoom

theorem Represents.add (fits : EntryFits buf)
    (grows : KeepsInMemory state.bl buf → GrowFits state.bl) :
    ((binlogAdd state buf).1 = 0 ∧
        ∃ mem' file', mem' ++ file' = mem ++ file ++ [buf] ∧
          Represents (binlogAdd state buf).2 mem' file') ∨
      ((binlogAdd state buf).1 ≠ 0 ∧ (binlogAdd state buf).2 = state) := by
  by_cases inMemory : KeepsInMemory state.bl buf
  · obtain ⟨accepted, fileNil, after⟩ := represented.add_memory fits (grows inMemory) inMemory
    exact .inl ⟨accepted, mem ++ [buf], [], by simp [fileNil], after⟩
  · by_cases room : FileHasRoom state.bl buf
    · obtain ⟨name, content, -, added, after⟩ := represented.add_file fits inMemory room
      exact .inl ⟨by rw [added], mem, file ++ [buf], by simp, after⟩
    · exact .inr (represented.add_refused inMemory room)

end

variable {rest : List Bytes}

theorem binlogRead_memory (valid : state.bl.isValid = true)
    (memory : MemoryHolds state.bl (buf :: rest)) :
    binlogRead state = (.ok buf, { state with bl := (binlogMemRead state.bl).2 }) := by
  have delivered : (binlogMemRead state.bl).1 = .ok buf := by
    rw [memory.memRead_eq]
  unfold binlogRead
  rw [if_neg (by simp [valid])]
  rcases memResult : binlogMemRead state.bl with ⟨outcome, bl⟩
  rw [memResult] at delivered
  simp only at delivered
  subst delivered
  rfl

theorem binlogRead_file (valid : state.bl.isValid = true) (memory : MemoryHolds state.bl []) :
    binlogRead state =
      binlogFileRead
        { state with bl := { state.bl with readIndex := 0, writeIndex := 0 } } := by
  unfold binlogRead
  rw [if_neg (by simp [valid]), memory.memRead_nil]

theorem Represents.read_memory {rest file : List Bytes}
    (represented : Represents state (buf :: rest) file) :
    binlogRead state = (.ok buf, { state with bl := (binlogMemRead state.bl).2 }) ∧
      Represents (binlogRead state).2 rest file := by
  have same := binlogMemRead_sameFile state.bl
  have result := binlogRead_memory represented.valid represented.memory
  refine ⟨result, ?_⟩
  rw [result]
  exact
    { valid := same.isValid.trans represented.valid
      memory := represented.memory.memRead_cons
      onFile := represented.onFile.congr same
      memoryFirst := fun _ => same.fileReadPos.trans (represented.memoryFirst (by simp))
      fits := fun other member => represented.fits other (mem_cons_of_mem buf member) }

private theorem slice_frame (consumed rest : Bytes) (fits : EntryFits buf) :
    slice (consumed ++ (frame buf ++ rest)) consumed.length 4 = leBytes 4 buf.length ∧
      leValue (leBytes 4 buf.length) = buf.length ∧
      slice (consumed ++ (frame buf ++ rest)) (consumed.length + 4) buf.length = buf := by
  refine ⟨?_, leValue_leBytes (fits.trans (by decide)), ?_⟩
  · simp [slice, frame]
  · have skipped : (consumed ++ (frame buf ++ rest)).drop (consumed.length + 4) = buf ++ rest := by
      rw [← drop_drop, drop_append_of_le_length (Nat.le_refl _)]
      simp [frame]
    unfold slice
    rw [skipped]
    simp

theorem binlogRead_frame {fd : Descriptor} {consumed buf tail : Bytes}
    (valid : state.bl.isValid = true) (memory : MemoryHolds state.bl [])
    (someFd : state.bl.fd = some fd)
    (content : state.disk.get fd.target = some (consumed ++ (frame buf ++ tail)))
    (readPos : state.bl.fileReadPos = consumed.length)
    (unread : state.bl.fileReadPos < state.bl.fileSize) (fits : EntryFits buf) :
    binlogRead state =
      (.ok buf,
        { state with
          bl :=
            { state.bl with
              readIndex := 0
              writeIndex := 0
              fileReadPos := (consumed ++ frame buf).length
              fileEntries := uint (state.bl.fileEntries + (2 ^ 32 - 1))
              fd := some { fd with position := (consumed ++ frame buf).length } } }) := by
  have start : state.bl.fileReadPos.toNat = consumed.length := by
    rw [readPos, Int.toNat_natCast]
  have position : (consumed ++ frame buf).length = consumed.length + 4 + buf.length := by
    rw [length_append, length_frame]
    omega
  obtain ⟨header, length, body⟩ := slice_frame consumed tail fits
  rw [binlogRead_file valid memory]
  unfold binlogFileRead
  simp only [Int.not_le.mpr unread, if_false, someFd, content, Option.getD_some, start, header,
    length_leBytes, length, body, Nat.sub_self, replicate_zero, append_nil, position]

theorem Represents.read_file (represented : Represents state [] (buf :: rest)) :
    (binlogRead state).1 = .ok buf ∧
      Represents (binlogRead state).2 [] rest ∧
      ∃ fd,
        (binlogRead state).2 =
          { state with
            bl :=
              { state.bl with
                readIndex := 0
                writeIndex := 0
                fileReadPos := state.bl.fileReadPos + (buf.length + 4 : Nat)
                fileEntries := uint (state.bl.fileEntries + (2 ^ 32 - 1))
                fd := some fd } } := by
  have fits := represented.fits buf (by simp)
  have memory := represented.memory.reset
  cases represented.onFile with
  | opened fd consumed file someFd atPath appending content size readPos writePos entries =>
    have unread : state.bl.fileReadPos < state.bl.fileSize := by
      rw [size, readPos]
      simp only [length_append, frames_cons, length_frame]
      omega
    rw [frames_cons] at content size writePos
    rw [← append_assoc] at size writePos
    have moved :
        ((consumed ++ frame buf).length : Int) = state.bl.fileReadPos + (buf.length + 4 : Nat) := by
      rw [readPos, length_append, length_frame]
      omega
    rw [binlogRead_frame represented.valid represented.memory someFd content readPos unread fits]
    refine ⟨rfl, ⟨represented.valid, ?_, ?_, by simp, ?_⟩, _, by rw [moved]⟩
    · exact memory.congr rfl rfl rfl rfl
    · refine .opened { fd with position := (consumed ++ frame buf).length }
        (consumed ++ frame buf) rest rfl atPath appending ?_ size rfl writePos ?_
      · rw [append_assoc]
        exact content
      · simp only [entries, uint, length_cons]
        omega
    · intro other member
      exact represented.fits other (mem_cons_of_mem buf member)

theorem FileHolds.bounds (holds : FileHolds state file) :
    0 ≤ state.bl.fileReadPos ∧
      state.bl.fileSize = state.bl.fileReadPos + (frames file).length ∧
      state.bl.fileEntries = uint file.length := by
  cases holds with
  | closed noFd size readPos writePos entries absent => simp [size, readPos, entries, uint]
  | opened fd consumed file someFd atPath appending content size readPos writePos entries =>
    simp [size, readPos, entries]

theorem Represents.read_empty_eq (represented : Represents state [] []) :
    binlogRead state =
      (.error binlogEmpty,
        { bl :=
            { state.bl with
              readIndex := 0
              writeIndex := 0
              fileEntries := 0
              fileSize := 0
              fileReadPos := 0
              fileWritePos := 0
              fd := none }
          disk := state.disk.unlink state.bl.path }) := by
  have drained : state.bl.fileSize ≤ state.bl.fileReadPos := by
    simpa using represented.onFile.bounds.2.1.le
  rw [binlogRead_file represented.valid represented.memory]
  unfold binlogFileRead
  rw [if_pos (by exact drained)]
  rfl

theorem Represents.read_empty (represented : Represents state [] []) :
    (binlogRead state).1 = .error binlogEmpty ∧ Represents (binlogRead state).2 [] [] := by
  rw [represented.read_empty_eq]
  refine ⟨rfl, represented.valid, ?_, ?_, by simp, by simp⟩
  · exact represented.memory.reset.congr rfl rfl rfl rfl
  · exact .closed rfl rfl rfl rfl rfl fun name named => state.disk.get_unlink named

theorem MemoryHolds.numEntries {bl : Binlog} {mem : List Bytes} {entries : Nat}
    (holds : MemoryHolds bl mem)
    (onFile :
      (if bl.fileSize ≠ 0 ∧ bl.fileReadPos < bl.fileSize then bl.fileEntries else 0) =
        uint entries) : binlogNumEntries bl = uint (mem.length + entries) := by
  have count := holds.count
  unfold binlogNumEntries
  simp only [onFile]
  cases mem with
  | nil =>
    rw [length_nil] at count
    rw [if_neg (by omega), length_nil, Nat.zero_add]
  | cons buf rest =>
    have cacheSome := holds.cache_eq holds.alloc_pos
    rw [length_cons] at count
    rw [if_pos ⟨by rw [cacheSome]; rfl, by omega⟩]
    simp only [uint, length_cons]
    omega

theorem FileHolds.counted (holds : FileHolds state file) :
    (if state.bl.fileSize ≠ 0 ∧ state.bl.fileReadPos < state.bl.fileSize then
      state.bl.fileEntries else 0) = uint file.length := by
  obtain ⟨nonneg, size, entries⟩ := holds.bounds
  cases file with
  | nil =>
    rw [if_neg (by simp [size])]
    rfl
  | cons buf rest =>
    rw [frames_cons, length_append, length_frame] at size
    rw [if_pos (by omega), entries]

theorem Represents.numEntries (represented : Represents state mem file) :
    binlogNumEntries state.bl = uint (mem.length + file.length) :=
  represented.memory.numEntries represented.onFile.counted

variable {path : Option Bytes} {msize fsize : Nat} {disk : Disk}

def freshBinlog (msize fsize : Nat) : Binlog :=
  { zeroedBinlog (if fsize % 2 ^ 64 ≠ 0 then some .log else none) (msize % 2 ^ 64) (offT fsize) with
    shouldWarnIfFull := true
    fileMetadataPath := true
    fileSavePath := true }

theorem binlogCreate_eq {unlinkFile : Bool}
    (created : binlogCreate path msize fsize unlinkFile disk = some state) :
    state =
      ⟨freshBinlog msize fsize,
        if unlinkFile then disk.unlink (freshBinlog msize fsize).path else disk⟩ := by
  unfold binlogCreate at created
  split at created
  · cases created
  · split at created
    · cases created
    · exact (Option.some.inj created).symm

theorem represents_fresh
    (absent : ∀ name, (freshBinlog msize fsize).path = some name → disk.get name = none) :
    Represents ⟨freshBinlog msize fsize, disk⟩ [] [] := by
  refine ⟨rfl, ⟨rfl, rfl, Nat.le_refl _, Nat.two_pow_pos 32, by simp⟩, ?_, by simp, by simp⟩
  exact .closed rfl rfl rfl rfl rfl absent

theorem represents_create (created : binlogCreate path msize fsize true disk = some state) :
    Represents state [] [] := by
  rw [binlogCreate_eq created]
  exact represents_fresh fun _ => disk.get_unlink

def binlogObject : FifoQueue.Object BinlogState Bytes Int where
  add state buf := (decide ((binlogAdd state buf).1 = 0), (binlogAdd state buf).2)
  read := binlogRead

def BinlogAllowed (state : BinlogState) : FifoQueue.Op Bytes → Prop
  | .add buf => EntryFits buf ∧ GrowFits state.bl
  | .read => True

instance (state : BinlogState) (op : FifoQueue.Op Bytes) : Decidable (BinlogAllowed state op) :=
  match op with
  | .add _ => inferInstanceAs (Decidable (_ ∧ _))
  | .read => inferInstanceAs (Decidable True)

/-- The queue that a backlog stands for. -/
def Queues (state : BinlogState) (entries : List Bytes) : Prop :=
  ∃ mem file, entries = mem ++ file ∧ Represents state mem file

theorem binlogSimulation : FifoQueue.Simulation binlogObject BinlogAllowed binlogEmpty Queues where
  add_accepted := by
    rintro state items buf ⟨mem, file, rfl, represented⟩ ⟨fits, grows⟩ accepted
    rcases represented.add fits fun _ => grows with
      ⟨_, mem', file', same, after⟩ | ⟨refused, _⟩
    · exact ⟨mem', file', same.symm, after⟩
    · exact absurd (of_decide_eq_true accepted) refused
  add_refused := by
    rintro state items buf ⟨mem, file, rfl, represented⟩ ⟨fits, grows⟩ refused
    rcases represented.add fits fun _ => grows with ⟨accepted, _⟩ | ⟨_, same⟩
    · exact absurd accepted (of_decide_eq_false refused)
    · refine ⟨mem, file, rfl, ?_⟩
      change Represents (binlogAdd state buf).2 mem file
      rw [same]
      exact represented
  read_next := by
    rintro state items buf ⟨mem, file, shape, represented⟩
    cases mem with
    | nil =>
      rw [nil_append] at shape
      subst shape
      obtain ⟨delivered, after, _⟩ := represented.read_file
      exact ⟨delivered, [], items, rfl, after⟩
    | cons first rest =>
      injection shape with sameFirst sameRest
      subst sameFirst
      obtain ⟨delivered, after⟩ := represented.read_memory
      exact ⟨by simp [binlogObject, delivered], rest, file, sameRest, after⟩
  read_empty := by
    rintro state ⟨mem, file, shape, represented⟩
    obtain ⟨memNil, fileNil⟩ := append_eq_nil_iff.mp shape.symm
    subst memNil fileNil
    obtain ⟨failed, after⟩ := represented.read_empty
    exact ⟨failed, [], [], rfl, after⟩

end MonitorMerlin
