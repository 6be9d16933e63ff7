import MonitorMerlin.Binlog.Fifo

/-! # Wiping against creating -/

namespace MonitorMerlin

open ByteImage

inductive Call where
  | add (buf : Bytes)
  | read
  | numEntries
  | fullWarning
  | save
  deriving DecidableEq, Repr

inductive Answer where
  | code (value : Int)
  | entry (result : Except Int Bytes)
  | count (entries : Nat)
  | flag (warn : Bool)

def perform (state : BinlogState) : Call → Answer × BinlogState
  | .add buf => (.code (binlogAdd state buf).1, (binlogAdd state buf).2)
  | .read => (.entry (binlogRead state).1, (binlogRead state).2)
  | .numEntries => (.count (binlogNumEntries state.bl), state)
  | .fullWarning => (.flag (binlogFullWarning state).1, (binlogFullWarning state).2)
  | .save => (.code (binlogSave state).1, (binlogSave state).2)

/-- The answers to calls, and the files they leave. -/
def observe (state : BinlogState) : List Call → List Answer × Disk
  | [] => ([], state.disk)
  | call :: rest =>
    ((perform state call).1 :: (observe (perform state call).2 rest).1,
      (observe (perform state call).2 rest).2)

def Call.Basic : Call → Prop
  | .add _ => True
  | .read => True
  | .numEntries => True
  | .fullWarning => False
  | .save => False

def Binlog.plain (bl : Binlog) : Binlog :=
  { bl with shouldWarnIfFull := false, fileMetadataPath := false, fileSavePath := false }

def BinlogState.plain (state : BinlogState) : BinlogState := { state with bl := state.bl.plain }

private theorem binlogMemAdd_plain (bl : Binlog) (buf : Bytes) :
    binlogMemAdd bl.plain buf = (binlogMemAdd bl buf).plain := by
  unfold binlogMemAdd
  by_cases full : bl.alloc ≤ bl.writeIndex
  · have plainFull : bl.plain.alloc ≤ bl.plain.writeIndex := full
    simp only [full, plainFull, if_true]
    rfl
  · have plainFull : ¬ bl.plain.alloc ≤ bl.plain.writeIndex := full
    simp only [full, plainFull, if_false]
    rfl

private theorem binlogMemRead_plain (bl : Binlog) :
    binlogMemRead bl.plain = ((binlogMemRead bl).1, (binlogMemRead bl).2.plain) := by
  unfold binlogMemRead
  cases cacheShape : bl.cache with
  | none => simp [Binlog.plain, cacheShape]
  | some slots =>
    by_cases drained : bl.writeIndex ≤ bl.readIndex
    · simp [Binlog.plain, cacheShape, drained]
    · cases slot : (slots[bl.readIndex]?).join with
      | none => simp [Binlog.plain, cacheShape, drained, slot]
      | some buf =>
        by_cases last : bl.writeIndex ≤ bl.readIndex + 1
        · simp [Binlog.plain, cacheShape, drained, slot, last]
        · simp [Binlog.plain, cacheShape, drained, slot, last]

section

variable (state : BinlogState)

include state

private theorem binlogOpen_plain :
    binlogOpen state.plain = ((binlogOpen state).1, (binlogOpen state).2.plain) := by
  unfold binlogOpen
  cases someFd : state.bl.fd with
  | some fd => simp [BinlogState.plain, Binlog.plain, someFd]
  | none =>
    cases named : state.bl.path with
    | none => simp [BinlogState.plain, Binlog.plain, someFd, named]
    | some name =>
      cases valid : state.bl.isValid with
      | false | true => simp [BinlogState.plain, Binlog.plain, someFd, named, valid]

private theorem safeWrite_plain (buf : Bytes) (outcome : WriteOutcome) :
    safeWrite state.plain buf outcome =
      ((safeWrite state buf outcome).1, (safeWrite state buf outcome).2.plain) := by
  unfold safeWrite
  cases someFd : state.bl.fd with
  | none => simp [BinlogState.plain, Binlog.plain, someFd]
  | some fd =>
    by_cases complete : outcome.result buf.length = buf.length
    · simp [BinlogState.plain, Binlog.plain, someFd, complete]
    · by_cases failed : outcome.result buf.length < 0
      · simp [BinlogState.plain, Binlog.plain, someFd, complete, failed]
      · rcases outcome with _ | ⟨written, _ | _⟩ | _ <;>
          simp [BinlogState.plain, Binlog.plain, someFd, complete, failed,
            binlogInvalidate, binlogClose]

private theorem binlogFileAdd_plain (buf : Bytes) (header body : WriteOutcome) :
    binlogFileAdd state.plain buf header body =
      ((binlogFileAdd state buf header body).1, (binlogFileAdd state buf header body).2.plain) := by
  unfold binlogFileAdd
  simp only [binlogOpen_plain, safeWrite_plain]
  have sameFull :
      (state.plain.bl.maxFileSize < state.plain.bl.fileSize + buf.length) =
        (state.bl.maxFileSize < state.bl.fileSize + buf.length) := rfl
  simp only [sameFull]
  split_ifs <;> rfl

private theorem binlogFileRead_plain :
    binlogFileRead state.plain = ((binlogFileRead state).1, (binlogFileRead state).2.plain) := by
  unfold binlogFileRead
  by_cases drained : state.bl.fileSize ≤ state.bl.fileReadPos
  · simp [BinlogState.plain, Binlog.plain, drained, binlogClose]
  · cases someFd : state.bl.fd with
    | none | some fd => simp [BinlogState.plain, Binlog.plain, drained, someFd]

private theorem binlogAdd_plain (buf : Bytes) :
    binlogAdd state.plain buf = ((binlogAdd state buf).1, (binlogAdd state buf).2.plain) := by
  unfold binlogAdd binlogAddWrites
  simp only [binlogFileAdd_plain]
  by_cases invalid : state.bl.isValid = false
  · rw [if_pos invalid, if_pos (by exact invalid)]
  · rw [if_neg invalid, if_neg (by exact invalid)]
    by_cases inMemory : KeepsInMemory state.bl buf
    · rw [if_pos (by exact inMemory), if_pos (by exact inMemory)]
      simp only [BinlogState.plain, binlogMemAdd_plain]
    · rw [if_neg (by exact inMemory), if_neg (by exact inMemory)]

private theorem binlogRead_plain :
    binlogRead state.plain = ((binlogRead state).1, (binlogRead state).2.plain) := by
  unfold binlogRead
  by_cases invalid : state.bl.isValid = false
  · rw [if_pos invalid, if_pos (by exact invalid)]
  · rw [if_neg invalid, if_neg (by exact invalid)]
    rw [show state.plain.bl = state.bl.plain from rfl, binlogMemRead_plain]
    rcases binlogMemRead state.bl with ⟨outcome | buf, bl⟩
    · exact binlogFileRead_plain { state with bl := bl }
    · rfl

private theorem perform_plain {call : Call} (basic : call.Basic) :
    perform state.plain call = ((perform state call).1, (perform state call).2.plain) := by
  cases call with
  | add buf => simp only [perform, binlogAdd_plain]
  | read => simp only [perform, binlogRead_plain]
  | numEntries => rfl
  | fullWarning | save => exact basic.elim

private theorem observe_plain {calls : List Call} (basic : ∀ call ∈ calls, call.Basic) :
    observe state.plain calls = observe state calls := by
  induction calls generalizing state with
  | nil => rfl
  | cons call rest ih =>
    obtain ⟨first, later⟩ := List.forall_mem_cons.mp basic
    simp only [observe, perform_plain state first, ih _ later]

end

private theorem binlogWipe_eq_plain {path : Option Bytes} {msize fsize : Nat} {disk : Disk}
    {start state fresh : BinlogState}
    (created : binlogCreate path msize fsize true disk = some start)
    (reached : ReachableFrom start state)
    (again : binlogCreate path msize fsize true state.disk = some fresh) :
    binlogWipe state true =
        { fresh.plain with
          disk :=
            if state.bl.fileReadPos = state.bl.fileWritePos then fresh.disk
            else state.disk } ∧
      fresh.disk = state.disk.unlink state.bl.path := by
  have same := reached.sameSettings (represents_create created)
  rw [binlogCreate_eq created] at same
  rw [binlogCreate_eq again]
  unfold binlogWipe
  simp only [same.path, same.maxMemSize, same.maxFileSize, binlogClose]
  simp [BinlogState.plain, Binlog.plain, freshBinlog, zeroedBinlog, same.path]

/-- From every reachable backlog, wiping never yields a backlog that all calls
take for a new one.  For the calls that move entries it does exactly when the
file has been read to its end. -/
theorem binlogWipe_fresh_iff
    {path : Option Bytes} {msize fsize : Nat} {disk : Disk}
    {start state fresh : BinlogState}
    (created : binlogCreate path msize fsize true disk = some start)
    (reached : ReachableFrom start state)
    (again : binlogCreate path msize fsize true state.disk = some fresh) :
    (¬ ∀ calls, observe (binlogWipe state true) calls = observe fresh calls) ∧
      ((∀ calls, (∀ call ∈ calls, call.Basic) →
          observe (binlogWipe state true) calls = observe fresh calls) ↔
        state.bl.fileReadPos = state.bl.fileWritePos) := by
  obtain ⟨wiped, freshDisk⟩ := binlogWipe_eq_plain created reached again
  refine ⟨fun same => ?_, fun same => ?_, fun drained calls basic => ?_⟩
  · have warned := congrArg Prod.fst (same [.fullWarning])
    rw [wiped, binlogCreate_eq again] at warned
    simp [observe, perform, binlogFullWarning, BinlogState.plain, Binlog.plain, freshBinlog]
      at warned
  · have sameFiles := congrArg Prod.snd (same [] (by simp))
    by_contra unread
    rw [wiped, if_neg unread] at sameFiles
    change state.disk = fresh.disk at sameFiles
    obtain ⟨mem, file, represented⟩ := reached.represents (represents_create created)
    cases represented.onFile with
    | closed _ _ readPos writePos _ _ => exact unread (readPos.trans writePos.symm)
    | opened fd consumed file _ atPath _ content _ _ _ _ =>
      rw [sameFiles, freshDisk, Disk.get_unlink _ atPath] at content
      cases content
  · rw [wiped, if_pos drained]
    exact observe_plain fresh basic

def storedBinlog : BinlogState := (binlogAdd (sampleBinlog 0 64) [1]).2

private theorem storedBinlog_reachable : ReachableFrom (sampleBinlog 0 64) storedBinlog :=
  .add .start (by decide) (by decide)

private theorem storedBinlog_again :
    binlogCreate (some samplePath) 0 64 true storedBinlog.disk = some (sampleBinlog 0 64) := by
  decide

theorem binlogWipe_fresh_storedBinlog :
    ¬ ∀ calls, (∀ call ∈ calls, call.Basic) →
      observe (binlogWipe storedBinlog true) calls = observe (sampleBinlog 0 64) calls :=
  fun same =>
    absurd
      ((binlogWipe_fresh_iff (sampleBinlog_created 0 64) storedBinlog_reachable
        storedBinlog_again).2.mp same)
      (by decide)

theorem binlogWipe_delivers_old_entry :
    ReachableFrom (sampleBinlog 0 64) storedBinlog ∧
      binlogCreate (some samplePath) 0 64 true storedBinlog.disk = some (sampleBinlog 0 64) ∧
      (observe (binlogWipe storedBinlog true) [.add [9], .read]).1 = [.code 0, .entry (.ok [1])] ∧
      (observe (sampleBinlog 0 64) [.add [9], .read]).1 = [.code 0, .entry (.ok [9])] ∧
      (observe (binlogWipe storedBinlog true) [.fullWarning]).1 = [.flag false] ∧
      (observe (sampleBinlog 0 64) [.fullWarning]).1 = [.flag true] :=
  ⟨storedBinlog_reachable, storedBinlog_again, rfl, rfl, rfl, rfl⟩

end MonitorMerlin
