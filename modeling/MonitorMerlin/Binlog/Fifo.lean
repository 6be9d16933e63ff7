import MonitorMerlin.Binlog.Simulation

/-! # First in, first out -/

namespace MonitorMerlin

open ByteImage List

/-- The backlogs that adds and reads lead to. -/
inductive ReachableFrom (start : BinlogState) : BinlogState → Prop
  | start : ReachableFrom start start
  | add {state : BinlogState} {buf : Bytes} :
      ReachableFrom start state → EntryFits buf → GrowFits state.bl →
        ReachableFrom start (binlogAdd state buf).2
  | read {state : BinlogState} :
      ReachableFrom start state → ReachableFrom start (binlogRead state).2

variable {state : BinlogState} {mem file : List Bytes}

theorem Represents.read (represented : Represents state mem file) :
    ∃ mem' file', Represents (binlogRead state).2 mem' file' := by
  cases mem with
  | cons buf rest => exact ⟨rest, file, represented.read_memory.2⟩
  | nil =>
    cases file with
    | cons buf rest => exact ⟨[], rest, represented.read_file.2.1⟩
    | nil => exact ⟨[], [], represented.read_empty.2⟩

variable {start : BinlogState}

theorem ReachableFrom.represents (reached : ReachableFrom start state)
    (fresh : Represents start [] []) : ∃ mem file, Represents state mem file := by
  induction reached with
  | start => exact ⟨[], [], fresh⟩
  | add _ fits grows ih =>
    obtain ⟨mem, file, represented⟩ := ih
    rcases represented.add fits fun _ => grows with ⟨_, mem', file', _, after⟩ | ⟨_, same⟩
    · exact ⟨mem', file', after⟩
    · rw [same]
      exact ⟨mem, file, represented⟩
  | read _ ih =>
    obtain ⟨mem, file, represented⟩ := ih
    exact represented.read

structure SameSettings (state other : BinlogState) : Prop where
  path : state.bl.path = other.bl.path
  maxMemSize : state.bl.maxMemSize = other.bl.maxMemSize
  maxFileSize : state.bl.maxFileSize = other.bl.maxFileSize
  fileMetadataPath : state.bl.fileMetadataPath = other.bl.fileMetadataPath
  fileSavePath : state.bl.fileSavePath = other.bl.fileSavePath
  metadata : state.disk.metadata = other.disk.metadata

theorem SameSettings.refl (state : BinlogState) : SameSettings state state :=
  ⟨rfl, rfl, rfl, rfl, rfl, rfl⟩

theorem SameSettings.trans {first second third : BinlogState}
    (left : SameSettings first second) (right : SameSettings second third) :
    SameSettings first third :=
  ⟨left.path.trans right.path, left.maxMemSize.trans right.maxMemSize,
    left.maxFileSize.trans right.maxFileSize,
    left.fileMetadataPath.trans right.fileMetadataPath,
    left.fileSavePath.trans right.fileSavePath, left.metadata.trans right.metadata⟩

theorem Represents.add_keeps (represented : Represents state mem file) (buf : Bytes) :
    SameSettings (binlogAdd state buf).2 state ∧
      (binlogAdd state buf).2.bl.writeIndex ≤ state.bl.writeIndex + 1 := by
  rcases represented.onFile.attached.add_cases represented.valid buf with
    inMemory | ⟨name, -, onFile⟩ | ⟨-, same⟩
  · obtain ⟨cache, alloc, fields⟩ := binlogMemAdd_fields state.bl buf
    rw [inMemory, fields]
    exact ⟨⟨rfl, rfl, rfl, rfl, rfl, rfl⟩, Nat.mod_le _ _⟩
  · rw [onFile]
    exact ⟨⟨rfl, rfl, rfl, rfl, rfl, state.disk.metadata_set _ _⟩, Nat.le_succ _⟩
  · rw [same]
    exact ⟨.refl state, Nat.le_succ _⟩

theorem Represents.read_keeps (represented : Represents state mem file) :
    SameSettings (binlogRead state).2 state ∧
      (binlogRead state).2.bl.writeIndex ≤ state.bl.writeIndex := by
  cases mem with
  | cons buf rest =>
    rw [represented.read_memory.1, represented.memory.memRead_eq]
    split
    · exact ⟨⟨rfl, rfl, rfl, rfl, rfl, rfl⟩, Nat.zero_le _⟩
    · exact ⟨⟨rfl, rfl, rfl, rfl, rfl, rfl⟩, Nat.le_refl _⟩
  | nil =>
    cases file with
    | cons buf rest =>
      obtain ⟨_, _, fd, fields⟩ := represented.read_file
      rw [fields]
      exact ⟨⟨rfl, rfl, rfl, rfl, rfl, rfl⟩, Nat.zero_le _⟩
    | nil =>
      rw [represented.read_empty_eq]
      exact ⟨⟨rfl, rfl, rfl, rfl, rfl, state.disk.metadata_unlink _⟩, Nat.zero_le _⟩

theorem ReachableFrom.sameSettings (reached : ReachableFrom start state)
    (fresh : Represents start [] []) : SameSettings state start := by
  induction reached with
  | start => exact .refl start
  | @add _ buf earlier _ _ ih =>
    obtain ⟨mem, file, represented⟩ := earlier.represents fresh
    exact (represented.add_keeps buf).1.trans ih
  | read earlier ih =>
    obtain ⟨mem, file, represented⟩ := earlier.represents fresh
    exact represented.read_keeps.1.trans ih

theorem Queues.numEntries {entries : List Bytes} (queues : Queues state entries) :
    binlogNumEntries state.bl = uint entries.length := by
  obtain ⟨mem, file, rfl, represented⟩ := queues
  rw [represented.numEntries, length_append]

/-- Over every interleaving of adds and reads: the accepted entries are the delivered ones
followed by the pending ones, of which the next read answers with the first. -/
theorem binlog_delivers_accepted_in_order
    {path : Option Bytes} {msize fsize : Nat} {disk : Disk} {start : BinlogState}
    {ops : List (FifoQueue.Op Bytes)}
    (created : binlogCreate path msize fsize true disk = some start)
    (opsAllowed : binlogObject.AllowedRun BinlogAllowed start ops) :
    ∃ pending,
      (binlogObject.run start ops).1.accepted =
          (binlogObject.run start ops).1.delivered ++ pending ∧
        (binlogRead (binlogObject.run start ops).2).1 =
          FifoQueue.Object.answer binlogEmpty pending ∧
        binlogNumEntries (binlogObject.run start ops).2.bl = uint pending.length := by
  have fresh : Queues start [] := ⟨[], [], rfl, represents_create created⟩
  obtain ⟨pending, account, queues⟩ := binlogSimulation.run fresh opsAllowed
  refine ⟨pending, ?_, (binlogSimulation.read queues).1, queues.numEntries⟩
  simpa using account

def samplePath : Bytes := List.replicate 16 47

def noFiles : Disk := ⟨none, none, none⟩

def sampleBinlog (msize fsize : Nat) : BinlogState := ⟨freshBinlog msize fsize, noFiles⟩

private theorem unlink_noFiles (name : Option FileName) : noFiles.unlink name = noFiles := by
  rcases name with _ | _ | _ <;> rfl

theorem sampleBinlog_created (msize fsize : Nat) :
    binlogCreate (some samplePath) msize fsize true noFiles = some (sampleBinlog msize fsize) := by
  unfold binlogCreate
  rw [if_neg (by simp), if_neg (by decide)]
  simp only [if_true, unlink_noFiles]
  rfl

theorem binlog_delivers_accepted_in_order_two :
    ∃ pending,
      (binlogObject.run (sampleBinlog 2 64) [.add [1], .add [2, 3], .read]).1.accepted =
          (binlogObject.run (sampleBinlog 2 64)
            [.add [1], .add [2, 3], .read]).1.delivered ++ pending ∧
        (binlogRead (binlogObject.run (sampleBinlog 2 64)
            [.add [1], .add [2, 3], .read]).2).1 =
          FifoQueue.Object.answer binlogEmpty pending ∧
        binlogNumEntries (binlogObject.run (sampleBinlog 2 64)
            [.add [1], .add [2, 3], .read]).2.bl = uint pending.length :=
  binlog_delivers_accepted_in_order (sampleBinlog_created 2 64)
    ⟨by decide, by decide, trivial, trivial⟩

theorem run_replicate_add (count : Nat) (history : FifoQueue.History Bytes) {file : List Bytes}
    (represented : Represents state [] file) (noMemory : state.bl.maxMemSize = 0)
    (named : state.bl.path ≠ none) (grows : (state.bl.alloc + 16) * 3 < 2 ^ 32)
    (room : state.bl.fileSize + 5 * count ≤ state.bl.maxFileSize) :
    binlogObject.AllowedRun BinlogAllowed state (replicate count (.add [0])) ∧
      (binlogObject.runFrom (history, state) (replicate count (.add [0]))).1 =
        ⟨history.accepted ++ replicate count [0], history.delivered⟩ ∧
      Represents
        (binlogObject.runFrom (history, state) (replicate count (.add [0]))).2
        [] (file ++ replicate count [0]) := by
  induction count generalizing history state file with
  | zero => simpa [FifoQueue.Object.AllowedRun, FifoQueue.Object.runFrom] using represented
  | succ count ih =>
    have toFile : ¬ KeepsInMemory state.bl [0] := by
      simp [KeepsInMemory, noMemory]
    have hasRoom : FileHasRoom state.bl [0] := by
      refine ⟨named, ?_⟩
      simp only [length_singleton]
      omega
    obtain ⟨name, content, -, added, after⟩ := represented.add_file (by decide) toFile hasRoom
    have next :
        binlogObject.step (.add [0]) (history, state) =
          (⟨history.accepted ++ [[0]], history.delivered⟩, (binlogAdd state [0]).2) := by
      simp [FifoQueue.Object.step, FifoQueue.Object.recordAdd, binlogObject, added]
    obtain ⟨laterAllowed, laterHistory, laterRepresented⟩ :=
      ih ⟨history.accepted ++ [[0]], history.delivered⟩
        after (by rw [added]; exact noMemory) (by rw [added]; exact named)
        (by rw [added]; exact grows)
        (by rw [added]; simp only [BinlogState.appended, length_singleton]; omega)
    rw [replicate_succ, FifoQueue.Object.runFrom, next, laterHistory]
    refine ⟨⟨⟨by decide, .inr grows⟩, laterAllowed⟩, ?_, ?_⟩
    · simp [replicate_succ]
    · simpa [replicate_succ] using laterRepresented

private theorem numEntries_replicate_add (count : Nat) (room : 5 * count ≤ 2 ^ 40) :
    let ops := replicate count (FifoQueue.Op.add [(0 : UInt8)])
    binlogObject.AllowedRun BinlogAllowed (sampleBinlog 0 (2 ^ 40)) ops ∧
      (binlogObject.run (sampleBinlog 0 (2 ^ 40)) ops).1 = ⟨replicate count [0], []⟩ ∧
      binlogNumEntries (binlogObject.run (sampleBinlog 0 (2 ^ 40)) ops).2.bl = uint count := by
  have maxFileSize : (sampleBinlog 0 (2 ^ 40)).bl.maxFileSize = 2 ^ 40 := by
    decide
  obtain ⟨opsAllowed, history, represented⟩ :=
    run_replicate_add count ⟨[], []⟩ (represents_create (sampleBinlog_created 0 (2 ^ 40)))
      (by decide) (by decide) (by decide)
      (by rw [maxFileSize, show (sampleBinlog 0 (2 ^ 40)).bl.fileSize = 0 from rfl]; omega)
  refine ⟨opsAllowed, history, ?_⟩
  have counted := represented.numEntries
  rw [nil_append, length_replicate, length_nil, Nat.zero_add] at counted
  exact counted

theorem binlogNumEntries_wraps_around :
    ∃ ops,
      binlogCreate (some samplePath) 0 (2 ^ 40) true noFiles =
          some (sampleBinlog 0 (2 ^ 40)) ∧
        binlogObject.AllowedRun BinlogAllowed (sampleBinlog 0 (2 ^ 40)) ops ∧
        (binlogObject.run (sampleBinlog 0 (2 ^ 40)) ops).1.accepted.length = 2 ^ 32 ∧
        (binlogObject.run (sampleBinlog 0 (2 ^ 40)) ops).1.delivered = [] ∧
        binlogNumEntries (binlogObject.run (sampleBinlog 0 (2 ^ 40)) ops).2.bl = 0 := by
  obtain ⟨opsAllowed, history, counted⟩ := numEntries_replicate_add (2 ^ 32) (by decide)
  refine ⟨_, sampleBinlog_created 0 (2 ^ 40), opsAllowed, ?_, ?_, ?_⟩
  · rw [history, length_replicate]
  · rw [history]
  · rw [counted, uint, Nat.mod_self]

end MonitorMerlin
