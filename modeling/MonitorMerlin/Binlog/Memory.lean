import MonitorMerlin.Binlog.Limit

/-! # The memory counters of the backlog -/

namespace MonitorMerlin

open ByteImage

/-- `binlog_msize`. -/
def binlogMsize (bl : Binlog) : Nat := bl.memSize

/-- `entry_size` summed over entries. -/
def entriesSize (entries : List Bytes) : Nat :=
  (entries.map fun buf => buf.length + entryOverhead).sum

def entriesLength (entries : List Bytes) : Nat := (entries.map List.length).sum

structure MemoryAccounted (state : BinlogState) : Prop where
  msize : binlogMsize state.bl = entriesSize (unreadEntries state.bl)
  avail : state.bl.memAvail = entriesLength (unreadEntries state.bl)
  limited : entriesSize (unreadEntries state.bl) ≤ state.bl.maxMemSize + entryOverhead
  returns : ∀ buf : Bytes, (binlogRead state).1 = .error binlogEmpty →
    buf.length < state.bl.maxMemSize →
      (binlogAdd (binlogRead state).2 buf).1 = 0 ∧
        unreadEntries (binlogAdd (binlogRead state).2 buf).2.bl = [buf]

def CountersFollow (state : BinlogState) : BinlogCall → Prop
  | .add buf => KeepsInMemory state.bl buf → entriesSize (unreadEntries state.bl ++ [buf]) < 2 ^ 32
  | .read => unreadEntries state.bl = []
  | .flush => entriesLength (unreadEntries state.bl) = 0

instance (state : BinlogState) (call : BinlogCall) : Decidable (CountersFollow state call) :=
  match call with
  | .add _ => inferInstanceAs (Decidable (_ → _))
  | .read => inferInstanceAs (Decidable (_ = _))
  | .flush => inferInstanceAs (Decidable (_ = _))

@[simp]
theorem entriesSize_nil : entriesSize [] = 0 := rfl

@[simp]
theorem entriesSize_cons (buf : Bytes) (rest : List Bytes) :
    entriesSize (buf :: rest) = buf.length + entryOverhead + entriesSize rest := by
  simp [entriesSize]

@[simp]
theorem entriesSize_append (first second : List Bytes) :
    entriesSize (first ++ second) = entriesSize first + entriesSize second := by
  simp [entriesSize]

@[simp]
theorem entriesLength_append (first second : List Bytes) :
    entriesLength (first ++ second) = entriesLength first + entriesLength second := by
  simp [entriesLength]

private theorem entriesSize_eq (entries : List Bytes) :
    entriesSize entries = entriesLength entries + 16 * entries.length := by
  induction entries with
  | nil => rfl
  | cons buf rest ih =>
    simp only [entriesSize_cons, entryOverhead, ih, entriesLength,
      List.map_cons, List.sum_cons, List.length_cons]
    omega

structure SameMemory (bl other : Binlog) : Prop where
  cache : bl.cache = other.cache
  alloc : bl.alloc = other.alloc
  readIndex : bl.readIndex = other.readIndex
  writeIndex : bl.writeIndex = other.writeIndex
  memSize : bl.memSize = other.memSize
  memAvail : bl.memAvail = other.memAvail
  maxMemSize : bl.maxMemSize = other.maxMemSize
  isValid : bl.isValid = other.isValid

theorem SameMemory.refl (bl : Binlog) : SameMemory bl bl := ⟨rfl, rfl, rfl, rfl, rfl, rfl, rfl, rfl⟩

theorem SameMemory.trans {first second third : Binlog}
    (left : SameMemory first second) (right : SameMemory second third) : SameMemory first third :=
  ⟨left.cache.trans right.cache, left.alloc.trans right.alloc,
    left.readIndex.trans right.readIndex, left.writeIndex.trans right.writeIndex,
    left.memSize.trans right.memSize, left.memAvail.trans right.memAvail,
    left.maxMemSize.trans right.maxMemSize, left.isValid.trans right.isValid⟩

theorem SameMemory.unreadEntries {bl other : Binlog} (same : SameMemory bl other) :
    unreadEntries bl = unreadEntries other := by
  unfold MonitorMerlin.unreadEntries
  rw [same.cache, same.readIndex, same.writeIndex]

private theorem safeWrite_full_sameMemory (state : BinlogState) (buf : Bytes) :
    SameMemory (safeWrite state buf .full).2.bl state.bl := by
  unfold safeWrite
  cases state.bl.fd with
  | none => exact SameMemory.refl state.bl
  | some fd =>
    simp only [WriteOutcome.result, if_true]
    exact ⟨rfl, rfl, rfl, rfl, rfl, rfl, rfl, rfl⟩

private theorem binlogOpen_sameMemory (state : BinlogState) :
    SameMemory (binlogOpen state).2.bl state.bl := by
  unfold binlogOpen
  split
  · exact SameMemory.refl state.bl
  · split
    · exact SameMemory.refl state.bl
    · split
      · exact ⟨rfl, rfl, rfl, rfl, rfl, rfl, rfl, rfl⟩
      · exact ⟨rfl, rfl, rfl, rfl, rfl, rfl, rfl, rfl⟩

private theorem binlogFileAdd_sameMemory (state : BinlogState) (buf : Bytes) :
    SameMemory (binlogFileAdd state buf .full .full).2.bl state.bl := by
  have opened := binlogOpen_sameMemory state
  have headed := safeWrite_full_sameMemory (binlogOpen state).2 (leBytes 4 buf.length)
  have bodied := safeWrite_full_sameMemory
    (safeWrite (binlogOpen state).2 (leBytes 4 buf.length) .full).2 buf
  have written := bodied.trans (headed.trans opened)
  unfold binlogFileAdd
  split
  · exact SameMemory.refl state.bl
  · simp only
    split
    · exact opened
    · split
      · exact headed.trans opened
      · exact ⟨written.cache, written.alloc, written.readIndex, written.writeIndex,
          written.memSize, written.memAvail, written.maxMemSize, written.isValid⟩

private theorem binlogFileRead_sameMemory (state : BinlogState) :
    SameMemory (binlogFileRead state).2.bl state.bl := by
  rcases binlogFileRead_cases state with
    ⟨_, result⟩ | ⟨_, _, result⟩ | ⟨fd, buf, position, entries, _, _, result⟩
  · rw [result]
    exact ⟨rfl, rfl, rfl, rfl, rfl, rfl, rfl, rfl⟩
  · rw [result]
    exact SameMemory.refl state.bl
  · rw [result]
    exact ⟨rfl, rfl, rfl, rfl, rfl, rfl, rfl, rfl⟩

private theorem flushEntries_kept (count : Nat) (state : BinlogState) :
    (flushEntries count state).bl.memAvail = state.bl.memAvail ∧
      (flushEntries count state).bl.isValid = state.bl.isValid := by
  induction count generalizing state with
  | zero => exact ⟨rfl, rfl⟩
  | succ count ih =>
    unfold flushEntries
    cases ((state.bl.cache.getD [])[state.bl.readIndex]?).join with
    | none => exact ih _
    | some buf =>
      have added := binlogFileAdd_sameMemory
        { state with bl := { state.bl with readIndex := state.bl.readIndex + 1 } } buf
      obtain ⟨avail, valid⟩ := ih (binlogFileAdd
        { state with bl := { state.bl with readIndex := state.bl.readIndex + 1 } }
        buf .full .full).2
      exact ⟨avail.trans added.memAvail, valid.trans added.isValid⟩

private theorem binlogFlush_kept (state : BinlogState) :
    (binlogFlush state).bl.memAvail = state.bl.memAvail ∧
      (binlogFlush state).bl.isValid = state.bl.isValid := by
  unfold binlogFlush
  cases state.bl.cache with
  | none => exact ⟨rfl, rfl⟩
  | some slots => exact flushEntries_kept (state.bl.writeIndex - state.bl.readIndex) state

variable {mem : List Bytes}

private theorem slotEntries_eq {slots : List (Option Bytes)} {index : Nat}
    (contents : ∀ offset, offset < mem.length → slots[index + offset]? = some mem[offset]?) :
    slotEntries slots index mem.length = mem := by
  induction mem generalizing index with
  | nil => rfl
  | cons buf rest ih =>
    have first := contents 0 (by simp)
    simp only [Nat.add_zero, List.getElem?_cons_zero] at first
    have others : slotEntries slots (index + 1) rest.length = rest := by
      apply ih
      intro offset offsetBound
      have other := contents (offset + 1) (by simpa using offsetBound)
      rw [show index + 1 + offset = index + (offset + 1) by omega]
      simpa using other
    rw [List.length_cons, slotEntries, first, others]
    rfl

theorem MemoryHolds.unreadEntries_eq {bl : Binlog} (holds : MemoryHolds bl mem) :
    unreadEntries bl = mem := by
  have count := holds.count
  unfold unreadEntries
  rw [show bl.writeIndex - bl.readIndex = mem.length by omega]
  exact slotEntries_eq holds.contents

structure MemoryUntouched (state : BinlogState) : Prop where
  valid : state.bl.isValid = true
  memory : MemoryHolds state.bl (unreadEntries state.bl)
  unread : state.bl.readIndex = 0
  sizeBound : state.bl.memSize < 2 ^ 32

theorem MemoryUntouched.congr {state next : BinlogState}
    (untouched : MemoryUntouched state) (same : SameMemory next.bl state.bl) :
    MemoryUntouched next := by
  constructor
  · exact same.isValid.trans untouched.valid
  · rw [same.unreadEntries]
    exact untouched.memory.congr same.cache same.alloc same.readIndex same.writeIndex
  · exact same.readIndex.trans untouched.unread
  · rw [same.memSize]
    exact untouched.sizeBound

variable {state : BinlogState}

theorem MemoryUntouched.growFits (untouched : MemoryUntouched state)
    (msize : binlogMsize state.bl = entriesSize (unreadEntries state.bl)) : GrowFits state.bl := by
  apply growFits_of_slots
  have count := untouched.memory.count
  have unread := untouched.unread
  have sizeBound := untouched.sizeBound
  have size := entriesSize_eq (unreadEntries state.bl)
  unfold binlogMsize at msize
  unfold slotLimit
  omega

variable {buf : Bytes}

theorem MemoryUntouched.add_memory (untouched : MemoryUntouched state)
    (msize : binlogMsize state.bl = entriesSize (unreadEntries state.bl))
    (inMemory : KeepsInMemory state.bl buf) :
    binlogAdd state buf = (0, { state with bl := binlogMemAdd state.bl buf }) ∧
      unreadEntries (binlogAdd state buf).2.bl = unreadEntries state.bl ++ [buf] ∧
      MemoryUntouched (binlogAdd state buf).2 := by
  have added : binlogAdd state buf = (0, { state with bl := binlogMemAdd state.bl buf }) :=
    binlogAddWrites_memory untouched.valid inMemory
  have memory := untouched.memory.memAdd buf (untouched.growFits msize)
  have entries := memory.unreadEntries_eq
  obtain ⟨cache, alloc, fields⟩ := binlogMemAdd_fields state.bl buf
  rw [added]
  refine ⟨rfl, entries, ?_, ?_, ?_, ?_⟩
  · exact (binlogMemAdd_sameFile state.bl buf).isValid.trans untouched.valid
  · rw [entries]
    exact memory
  · rw [fields]
    exact untouched.unread
  · rw [fields]
    exact Nat.mod_lt _ (Nat.two_pow_pos 32)

theorem MemoryUntouched.read_nil (untouched : MemoryUntouched state)
    (nothing : unreadEntries state.bl = []) :
    MemoryUntouched (binlogRead state).2 ∧
      unreadEntries (binlogRead state).2.bl = [] ∧
      (binlogRead state).2.bl.memSize = state.bl.memSize ∧
      (binlogRead state).2.bl.memAvail = state.bl.memAvail ∧
      (binlogRead state).2.bl.maxMemSize = state.bl.maxMemSize := by
  have memory := untouched.memory
  rw [nothing] at memory
  have same := binlogFileRead_sameMemory
    { state with bl := { state.bl with readIndex := 0, writeIndex := 0 } }
  have emptied := memory.reset.unreadEntries_eq
  have resetUntouched : MemoryUntouched
      { state with bl := { state.bl with readIndex := 0, writeIndex := 0 } } := by
    refine ⟨untouched.valid, ?_, rfl, untouched.sizeBound⟩
    rw [emptied]
    exact memory.reset
  rw [binlogRead_file untouched.valid memory]
  exact ⟨resetUntouched.congr same, same.unreadEntries.trans emptied, same.memSize,
    same.memAvail, same.maxMemSize⟩

theorem MemoryUntouched.read_cons {rest : List Bytes} (untouched : MemoryUntouched state)
    (found : unreadEntries state.bl = buf :: rest) :
    (binlogRead state).1 = .ok buf ∧
      unreadEntries (binlogRead state).2.bl = rest ∧
      (binlogRead state).2.bl.memSize = state.bl.memSize := by
  have memory := untouched.memory
  rw [found] at memory
  rw [binlogRead_memory untouched.valid memory]
  refine ⟨rfl, memory.memRead_cons.unreadEntries_eq, ?_⟩
  simp only [memory.memRead_eq]
  split <;> rfl

private theorem fd_none_of_read_empty (valid : state.bl.isValid = true)
    (empty : (binlogRead state).1 = .error binlogEmpty) : (binlogRead state).2.bl.fd = none := by
  rcases binlogRead_cases valid with ⟨buf, _, result⟩ | ⟨_, result⟩
  · rw [result] at empty
    cases empty
  · rcases binlogFileRead_cases { state with bl := (binlogMemRead state.bl).2 } with
      ⟨_, fileResult⟩ | ⟨_, _, fileResult⟩ | ⟨fd, buf, position, entries, _, _, fileResult⟩
    · rw [result, fileResult]
    · rw [result, fileResult] at empty
      cases empty
    · rw [result, fileResult] at empty
      cases empty

section

variable (untouched : MemoryUntouched state)

include untouched

theorem MemoryUntouched.returns
    (msize : binlogMsize state.bl = entriesSize (unreadEntries state.bl)) (buf : Bytes)
    (empty : (binlogRead state).1 = .error binlogEmpty) (short : buf.length < state.bl.maxMemSize) :
    (binlogAdd (binlogRead state).2 buf).1 = 0 ∧
      unreadEntries (binlogAdd (binlogRead state).2 buf).2.bl = [buf] := by
  cases found : unreadEntries state.bl with
  | cons first rest =>
    rw [(untouched.read_cons found).1] at empty
    cases empty
  | nil =>
    obtain ⟨after, nothing, memSize, _, maxMem⟩ := untouched.read_nil found
    have zero : (binlogRead state).2.bl.memSize = 0 := by
      rw [memSize, ← binlogMsize, msize, found]
      rfl
    have inMemory : KeepsInMemory (binlogRead state).2.bl buf := by
      refine ⟨fd_none_of_read_empty untouched.valid empty, ?_⟩
      rw [zero, maxMem, Nat.zero_add]
      exact Nat.lt_of_le_of_lt (Nat.mod_le _ _) short
    have sized : binlogMsize (binlogRead state).2.bl =
        entriesSize (unreadEntries (binlogRead state).2.bl) := by
      rw [nothing]
      exact zero
    obtain ⟨added, entries, -⟩ := after.add_memory sized inMemory
    rw [nothing] at entries
    exact ⟨by rw [added], entries⟩

theorem MemoryUntouched.accounted_iff :
    MemoryAccounted state ↔
      binlogMsize state.bl = entriesSize (unreadEntries state.bl) ∧
        state.bl.memAvail = entriesLength (unreadEntries state.bl) ∧
        entriesSize (unreadEntries state.bl) ≤ state.bl.maxMemSize + entryOverhead :=
  ⟨fun accounted => ⟨accounted.msize, accounted.avail, accounted.limited⟩,
    fun ⟨msize, avail, limited⟩ => ⟨msize, avail, limited, untouched.returns msize⟩⟩

theorem MemoryUntouched.add_file (accounted : MemoryAccounted state)
    (toFile : ¬ KeepsInMemory state.bl buf) :
    MemoryUntouched (binlogAdd state buf).2 ∧ MemoryAccounted (binlogAdd state buf).2 := by
  have same : SameMemory (binlogAdd state buf).2.bl state.bl := by
    unfold binlogAdd
    rw [binlogAddWrites_toFile untouched.valid toFile]
    exact binlogFileAdd_sameMemory state buf
  have after := untouched.congr same
  refine ⟨after, after.accounted_iff.mpr ?_⟩
  rw [binlogMsize, same.unreadEntries, same.memSize, same.memAvail, same.maxMemSize]
  exact ⟨accounted.msize, accounted.avail, accounted.limited⟩

theorem MemoryUntouched.add_memory_iff (accounted : MemoryAccounted state)
    (inMemory : KeepsInMemory state.bl buf) :
    MemoryAccounted (binlogAdd state buf).2 ↔
      entriesSize (unreadEntries state.bl ++ [buf]) < 2 ^ 32 := by
  obtain ⟨added, entries, after⟩ := untouched.add_memory accounted.msize inMemory
  obtain ⟨cache, alloc, fields⟩ := binlogMemAdd_fields state.bl buf
  have msize := accounted.msize
  have avail := accounted.avail
  have below := inMemory.2
  have size := entriesSize_eq (unreadEntries state.bl)
  rw [after.accounted_iff, entries, added, fields, binlogMsize]
  unfold binlogMsize at msize
  simp only [entriesSize_append, entriesSize_cons, entriesSize_nil, entriesLength_append,
    entryOverhead, uint] at below ⊢
  rw [msize] at below ⊢
  rw [avail]
  have single : entriesLength [buf] = buf.length := by simp [entriesLength]
  rw [single]
  omega

theorem MemoryUntouched.read_iff (accounted : MemoryAccounted state) :
    MemoryAccounted (binlogRead state).2 ↔ unreadEntries state.bl = [] := by
  cases found : unreadEntries state.bl with
  | nil =>
    obtain ⟨after, nothing, memSize, memAvail, maxMem⟩ := untouched.read_nil found
    rw [after.accounted_iff, nothing, binlogMsize, memSize, memAvail]
    have msize := accounted.msize
    have avail := accounted.avail
    rw [found] at msize avail
    exact iff_of_true ⟨msize, avail, Nat.zero_le _⟩ rfl
  | cons buf rest =>
    obtain ⟨-, remaining, memSize⟩ := untouched.read_cons found
    refine iff_of_false (fun after => ?_) (List.cons_ne_nil buf rest)
    have msize := accounted.msize
    have msizeAfter := after.msize
    rw [found] at msize
    rw [remaining] at msizeAfter
    simp only [binlogMsize, entriesSize_cons, entryOverhead] at msize msizeAfter
    omega

theorem MemoryUntouched.flush :
    MemoryUntouched (binlogFlush state) ∧ unreadEntries (binlogFlush state).bl = [] := by
  have memory : MemoryHolds (binlogFlush state).bl [] :=
    ⟨rfl, rfl, Nat.le_refl _, Nat.two_pow_pos 32, by simp⟩
  refine ⟨⟨(binlogFlush_kept state).2.trans untouched.valid, ?_, rfl, Nat.two_pow_pos 32⟩,
    memory.unreadEntries_eq⟩
  rw [memory.unreadEntries_eq]
  exact memory

theorem MemoryUntouched.flush_iff (accounted : MemoryAccounted state) :
    MemoryAccounted (binlogFlush state) ↔ entriesLength (unreadEntries state.bl) = 0 := by
  obtain ⟨after, nothing⟩ := untouched.flush
  rw [after.accounted_iff, nothing, (binlogFlush_kept state).1, accounted.avail]
  exact ⟨fun after => after.2.1, fun noBytes => ⟨rfl, noBytes, Nat.zero_le _⟩⟩

theorem MemoryUntouched.step_iff (accounted : MemoryAccounted state) (call : BinlogCall) :
    CountersFollow state call ↔ MemoryAccounted (binlogStep state call) := by
  cases call with
  | add buf =>
    by_cases inMemory : KeepsInMemory state.bl buf
    · rw [binlogStep, untouched.add_memory_iff accounted inMemory]
      exact ⟨fun follows => follows inMemory, fun small _ => small⟩
    · exact iff_of_true (fun kept => absurd kept inMemory) (untouched.add_file accounted inMemory).2
  | read => exact (untouched.read_iff accounted).symm
  | flush => exact (untouched.flush_iff accounted).symm

theorem MemoryUntouched.step (accounted : MemoryAccounted state) (call : BinlogCall)
    (follows : CountersFollow state call) : MemoryUntouched (binlogStep state call) := by
  cases call with
  | add buf =>
    by_cases inMemory : KeepsInMemory state.bl buf
    · exact (untouched.add_memory accounted.msize inMemory).2.2
    · exact (untouched.add_file accounted inMemory).1
  | read => exact (untouched.read_nil follows).1
  | flush => exact untouched.flush.1

end

private theorem untouched_create
    {path : Option Bytes} {msize fsize : Nat} {unlinkFile : Bool} {disk : Disk}
    {start : BinlogState}
    (created : binlogCreate path msize fsize unlinkFile disk = some start) :
    MemoryUntouched start ∧ MemoryAccounted start := by
  obtain rfl := binlogCreate_eq created
  have memory : MemoryHolds (freshBinlog msize fsize) [] :=
    ⟨rfl, rfl, Nat.le_refl _, Nat.two_pow_pos 32, by simp⟩
  have nothing := memory.unreadEntries_eq
  have untouched (disk : Disk) : MemoryUntouched ⟨freshBinlog msize fsize, disk⟩ :=
    ⟨rfl, by rwa [nothing], rfl, Nat.two_pow_pos 32⟩
  refine ⟨untouched _, (untouched _).accounted_iff.mpr ?_⟩
  rw [nothing]
  exact ⟨rfl, rfl, Nat.zero_le _⟩

/-- The counters describe the entries in memory exactly as long as no call
reads an entry from memory, flushes bytes out of it or lets the size grow
beyond an `unsigned int`. -/
theorem binlogMemory_accounted_iff
    {path : Option Bytes} {msize fsize : Nat} {unlinkFile : Bool} {disk : Disk}
    {start : BinlogState}
    (created : binlogCreate path msize fsize unlinkFile disk = some start)
    (calls : List BinlogCall) :
    Run.Always (fun state call => some (binlogStep state call)) MemoryAccounted start calls ↔
      Run.Permits (fun state call => some (binlogStep state call)) CountersFollow start calls := by
  obtain ⟨untouched, accounted⟩ := untouched_create created
  rw [Run.always_and_iff _ untouched]
  · apply Run.always_iff_permits
    · intro state call ⟨untouchedState, accountedState⟩
      rw [untouchedState.step_iff accountedState call]
      constructor
      · intro accountedNext
        have follows := (untouchedState.step_iff accountedState call).mpr accountedNext
        exact ⟨_, rfl, untouchedState.step accountedState call follows, accountedNext⟩
      · rintro ⟨next, stepped, -, accountedNext⟩
        cases stepped
        exact accountedNext
    · exact ⟨untouched, accounted⟩
  · intro state call next untouchedState accountedState stepped accountedNext
    cases stepped
    exact untouchedState.step accountedState call
      ((untouchedState.step_iff accountedState call).mpr accountedNext)

theorem binlogMemory_accounted_file :
    Run.Always (fun state call => some (binlogStep state call)) MemoryAccounted
      (sampleBinlog 2 64) [.read, .add [1], .add [2, 3], .add []] := by
  rw [binlogMemory_accounted_iff (sampleBinlog_created 2 64)]
  decide

theorem binlogMemory_not_accounted :
    ¬ Run.Always (fun state call => some (binlogStep state call)) MemoryAccounted
        (sampleBinlog 8 64) [.add [1], .read] ∧
      unreadEntries ([.add [1], .read, .read, .add [2]].foldl binlogStep
        (sampleBinlog 8 64)).bl = [] := by
  constructor
  · intro always
    obtain ⟨state, reached, accounted⟩ := always _ List.prefix_rfl
    cases reached
    exact absurd accounted.msize (by decide)
  · decide

end MonitorMerlin
