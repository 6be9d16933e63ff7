import MonitorMerlin.Binlog.Fifo

/-! # Unreading an entry -/

namespace MonitorMerlin

open ByteImage List

variable {buf : Bytes} {rest : List Bytes} {bl : Binlog} {state : BinlogState}
  {mem file : List Bytes}

theorem MemoryHolds.memRead_free (holds : MemoryHolds bl (buf :: rest)) :
    0 < (binlogMemRead bl).2.alloc ∧ ((binlogMemRead bl).2.readIndex = 0 → rest = []) := by
  have allocated := holds.alloc_pos
  rw [holds.memRead_eq]
  by_cases restNil : rest = []
  · simp [restNil, allocated]
  · simp [restNil, allocated]

theorem MemoryHolds.memUnread (buf : Bytes) (holds : MemoryHolds bl rest)
    (valid : bl.isValid = true) (allocated : 0 < bl.alloc) (place : bl.readIndex = 0 → rest = []) :
    (binlogMemUnread bl buf).1 = 0 ∧
      MemoryHolds (binlogMemUnread bl buf).2 (buf :: rest) ∧
      SameFile (binlogMemUnread bl buf).2 bl := by
  have cacheSome := holds.cache_eq allocated
  have capacity := holds.capacity
  have count := holds.count
  have room := holds.room
  have notStashed : ¬ (bl.readIndex = 0 ∧ bl.writeIndex = 1) := by
    rintro ⟨atStart, one⟩
    rw [place atStart, length_nil] at count
    omega
  unfold binlogMemUnread
  rw [cacheSome]
  simp only [valid, Bool.true_eq_false, if_false, notStashed]
  by_cases atStart : bl.readIndex = 0
  · have restNil := place atStart
    subst restNil
    simp only [atStart, if_true]
    refine ⟨trivial, ⟨by simpa using capacity, by simp, allocated, holds.bound, ?_⟩,
      ⟨rfl, rfl, rfl, rfl, rfl, rfl, valid.symm⟩⟩
    intro index indexBound
    have indexZero : index = 0 := by simpa using indexBound
    subst indexZero
    simp only [Option.getD_some, Nat.zero_add]
    rw [getElem?_set_self (by omega)]
    rfl
  · simp only [atStart, if_false]
    refine ⟨trivial, ⟨by simpa using capacity, ?_, room, holds.bound, ?_⟩,
      ⟨rfl, rfl, rfl, rfl, rfl, rfl, valid.symm⟩⟩
    · simp only [length_cons]
      omega
    · intro index indexBound
      simp only [Option.getD_some]
      cases index with
      | zero =>
        rw [Nat.add_zero, getElem?_set_self (by omega)]
        rfl
      | succ index =>
        have kept := holds.contents index (by simpa using indexBound)
        rw [getElem?_set_ne (by omega),
          show bl.readIndex - 1 + (index + 1) = bl.readIndex + index by omega, kept]
        rfl

theorem Represents.unread_memory {rest file : List Bytes}
    (represented : Represents state (buf :: rest) file) (nonempty : buf ≠ [])
    (others : binlogNumEntries (binlogRead state).2.bl ≠ 0) :
    (binlogUnread (binlogRead state).2 buf).1 = 0 ∧
      Represents (binlogUnread (binlogRead state).2 buf).2 (buf :: rest) file := by
  obtain ⟨result, after⟩ := represented.read_memory
  have lengthPos : 0 < buf.length := length_pos_iff.mpr nonempty
  have readPos : (binlogRead state).2.bl.fileReadPos = 0 := by
    rw [result, (binlogMemRead_sameFile state.bl).fileReadPos]
    exact represented.memoryFirst (by simp)
  obtain ⟨allocated, place⟩ :
      0 < (binlogRead state).2.bl.alloc ∧ ((binlogRead state).2.bl.readIndex = 0 → rest = []) := by
    rw [result]
    exact represented.memory.memRead_free
  obtain ⟨restored, memory, same⟩ := after.memory.memUnread buf after.valid allocated place
  unfold binlogUnread
  rw [if_neg (by omega), if_neg others, if_neg (by rw [readPos]; omega)]
  exact ⟨restored,
    { valid := same.isValid.trans after.valid
      memory := memory
      onFile := after.onFile.congr same
      memoryFirst := fun _ => same.fileReadPos.trans readPos
      fits := represented.fits }⟩

theorem Represents.read_ok (represented : Represents state mem file)
    (delivered : (binlogRead state).1 = .ok buf) :
    ∃ mem' file',
      mem ++ file = buf :: (mem' ++ file') ∧
        Represents (binlogRead state).2 mem' file' ∧
        (mem' = [] → (binlogRead state).2.bl.writeIndex = 0) := by
  cases mem with
  | cons first rest =>
    obtain ⟨result, after⟩ := represented.read_memory
    rw [result] at delivered
    cases delivered
    refine ⟨rest, file, rfl, after, fun restNil => ?_⟩
    rw [result, represented.memory.memRead_eq, if_pos restNil]
  | nil =>
    cases file with
    | nil =>
      rw [represented.read_empty.1] at delivered
      cases delivered
    | cons first rest =>
      obtain ⟨result, after, fd, fields⟩ := represented.read_file
      rw [result] at delivered
      cases delivered
      refine ⟨[], rest, rfl, after, fun _ => ?_⟩
      rw [fields]

theorem Represents.unread_add (after : Represents state mem file)
    (nonempty : buf ≠ []) (reset : mem = [] → state.bl.writeIndex = 0)
    (noneCounted : binlogNumEntries state.bl = 0) :
    binlogUnread state buf = binlogAdd state buf ∧
      (KeepsInMemory state.bl buf → GrowFits state.bl) := by
  refine ⟨?_, fun inMemory => ?_⟩
  · unfold binlogUnread
    rw [if_neg (by simpa using nonempty), if_pos noneCounted]
  · have fileNil := (after.onFile.eq_nil_of_closed inMemory.1).1
    have count := after.memory.count
    have room := after.memory.room
    have bound := after.memory.bound
    rw [after.numEntries, fileNil, length_nil, Nat.add_zero, uint] at noneCounted
    have memNil : mem = [] := length_eq_zero_iff.mp (by omega)
    have atStart := reset memNil
    unfold GrowFits
    omega

theorem Represents.add_refused_iff (represented : Represents state mem file)
    (fits : EntryFits buf) :
    (binlogAdd state buf).1 ≠ 0 ↔ ¬ KeepsInMemory state.bl buf ∧ ¬ FileHasRoom state.bl buf := by
  constructor
  · intro refused
    have toFile : ¬ KeepsInMemory state.bl buf := fun inMemory =>
      refused (congrArg Prod.fst (binlogAddWrites_memory represented.valid inMemory))
    refine ⟨toFile, fun room => ?_⟩
    obtain ⟨name, content, -, added, -⟩ := represented.add_file fits toFile room
    exact refused (by rw [added])
  · rintro ⟨toFile, noRoom⟩
    exact (represented.add_refused toFile noRoom).1

private theorem binlogRead_without_cache (valid : state.bl.isValid = true)
    (noCache : state.bl.cache = none) :
    binlogRead state =
      binlogFileRead
        { state with bl := { state.bl with readIndex := 0, writeIndex := 0 } } := by
  simp [binlogRead, valid, binlogMemRead, noCache]

private theorem binlogFileRead_ok {item : Bytes} (delivered : (binlogFileRead state).1 = .ok item) :
    ∃ position entries fd,
      (binlogFileRead state).2 =
          { state with
            bl :=
              { state.bl with
                fileReadPos := (position : Nat)
                fileEntries := entries
                fd := fd } } ∧
        position ≤ state.bl.fileReadPos.toNat + (frame item).length := by
  unfold binlogFileRead at delivered ⊢
  by_cases drained : state.bl.fileSize ≤ state.bl.fileReadPos
  · rw [if_pos drained] at delivered
    cases delivered
  · rw [if_neg drained] at delivered ⊢
    cases someFd : state.bl.fd with
    | none =>
      rw [someFd] at delivered
      cases delivered
    | some fd =>
      rw [someFd] at delivered
      refine ⟨_, _, _, rfl, ?_⟩
      injection delivered with itemEq
      rw [← itemEq, length_frame, length_append]
      have headerLength :
          (slice ((state.disk.get fd.target).getD []) state.bl.fileReadPos.toNat 4).length ≤ 4 := by
        simp [slice]
      omega

private theorem drains_covers_file {items : List Bytes} (valid : state.bl.isValid = true)
    (noCache : state.bl.cache = none) (nonneg : 0 ≤ state.bl.fileReadPos)
    (drains : binlogObject.Drains binlogEmpty state items) :
    state.bl.fileSize ≤ state.bl.fileReadPos + (frames items).length := by
  induction items generalizing state with
  | nil =>
    have failed : (binlogRead state).1 = .error binlogEmpty := drains
    rw [binlogRead_without_cache valid noCache] at failed
    unfold binlogFileRead at failed
    by_cases drained : state.bl.fileSize ≤ state.bl.fileReadPos
    · simpa using drained
    · rw [if_neg drained] at failed
      cases someFd : state.bl.fd with
      | none => simp [someFd, binlogEmpty] at failed
      | some fd => simp [someFd] at failed
  | cons item rest ih =>
    obtain ⟨delivered, later⟩ := drains
    change (binlogRead state).1 = .ok item at delivered
    change binlogObject.Drains binlogEmpty (binlogRead state).2 rest at later
    rw [binlogRead_without_cache valid noCache] at delivered later
    obtain ⟨position, entries, fd, result, moved⟩ := binlogFileRead_ok delivered
    rw [result] at later
    have covered := ih (by exact valid) (by exact noCache) (by simp) later
    simp only [frames_cons, length_append] at moved covered ⊢
    omega

theorem Represents.unread_file (represented : Represents state [] (buf :: rest))
    (nonempty : buf ≠ []) (others : binlogNumEntries (binlogRead state).2.bl ≠ 0) :
    ((binlogUnread (binlogRead state).2 buf).1 = 0 ∧
        binlogNumEntries (binlogUnread (binlogRead state).2 buf).2.bl ≠ binlogNumEntries state.bl) ∨
      ((binlogUnread (binlogRead state).2 buf).1 ≠ 0 ∧
        ¬ binlogObject.Drains binlogEmpty (binlogUnread (binlogRead state).2 buf).2 rest) := by
  obtain ⟨_, after, fd, fields⟩ := represented.read_file
  have lengthPos : 0 < buf.length := length_pos_iff.mpr nonempty
  obtain ⟨readPos, size, entries⟩ := represented.onFile.bounds
  rw [frames_cons, length_append, length_frame] at size
  rw [length_cons] at entries
  have numEntries := represented.numEntries
  rw [length_nil, Nat.zero_add, length_cons] at numEntries
  have unread :
      binlogUnread (binlogRead state).2 buf =
        ((binlogMemUnread (binlogFileUnread (binlogRead state).2.bl buf.length) buf).1,
          { (binlogRead state).2 with
            bl :=
              (binlogMemUnread (binlogFileUnread (binlogRead state).2.bl buf.length) buf).2 }) := by
    unfold binlogUnread
    rw [if_neg (by omega), if_neg others, if_pos (by rw [fields]; simp only; omega)]
  rw [unread]
  cases cacheShape : state.bl.cache with
  | none =>
    right
    have dropped :
        binlogMemUnread (binlogFileUnread (binlogRead state).2.bl buf.length) buf =
          (binlogEdropped, binlogFileUnread (binlogRead state).2.bl buf.length) := by
      simp [binlogMemUnread, binlogFileUnread, fields, cacheShape]
    rw [dropped]
    refine ⟨by simp [binlogEdropped], fun drains => ?_⟩
    have covered :=
      drains_covers_file (by simpa [binlogFileUnread] using after.valid)
        (by simp [binlogFileUnread, fields, cacheShape])
        (by simp only [binlogFileUnread, fields]; omega) drains
    simp only [binlogFileUnread, fields] at covered
    omega
  | some slots =>
    left
    have stashed :
        binlogMemUnread (binlogFileUnread (binlogRead state).2.bl buf.length) buf =
          (0,
            { binlogFileUnread (binlogRead state).2.bl buf.length with
              cache := some (slots.set 0 (some buf))
              writeIndex := 1
              memAvail := uint (state.bl.memAvail + buf.length) }) := by
      simp [binlogMemUnread, binlogFileUnread, fields, cacheShape, represented.valid]
    rw [stashed]
    refine ⟨rfl, ?_⟩
    rw [numEntries]
    simp only [binlogNumEntries, binlogFileUnread, fields, entries]
    rw [if_pos (by simp), if_pos (by omega)]
    simp only [uint]
    omega

/-- `binlog_unread` undoes the read, or fails and changes nothing. -/
def UnreadRestores (state : BinlogState) (buf : Bytes) : Prop :=
  ((binlogUnread (binlogRead state).2 buf).1 = 0 →
      (∃ entries,
        binlogObject.Drains binlogEmpty state entries ∧
          binlogObject.Drains binlogEmpty (binlogUnread (binlogRead state).2 buf).2 entries) ∧
        binlogNumEntries (binlogUnread (binlogRead state).2 buf).2.bl = binlogNumEntries state.bl) ∧
    ((binlogUnread (binlogRead state).2 buf).1 ≠ 0 →
      ∃ entries,
        binlogObject.Drains binlogEmpty (binlogRead state).2 entries ∧
          binlogObject.Drains binlogEmpty (binlogUnread (binlogRead state).2 buf).2 entries)

def UnreadSafe (state : BinlogState) (buf : Bytes) : Prop :=
  buf = [] ∨
    (binlogNumEntries (binlogRead state).2.bl = 0 ∧
      (¬ KeepsInMemory (binlogRead state).2.bl buf ∧ ¬ FileHasRoom (binlogRead state).2.bl buf ∨
        ∃ rest,
          binlogObject.Drains binlogEmpty (binlogRead state).2 rest ∧
            rest ++ [buf] = buf :: rest)) ∨
    (binlogNumEntries (binlogRead state).2.bl ≠ 0 ∧ state.bl.readIndex < state.bl.writeIndex)

section

variable (represented : Represents state mem file)

include represented

theorem Represents.drains : binlogObject.Drains binlogEmpty state (mem ++ file) :=
  binlogSimulation.drains ⟨mem, file, rfl, represented⟩

private theorem unreadRestores_nil (delivered : (binlogRead state).1 = .ok []) :
    UnreadRestores state [] := by
  obtain ⟨mem', file', _, after, _⟩ := represented.read_ok delivered
  have unread : binlogUnread (binlogRead state).2 [] = (binlogEaddress, (binlogRead state).2) := by
    simp [binlogUnread]
  unfold UnreadRestores
  rw [unread]
  refine ⟨fun succeeded => ?_, fun _ => ⟨_, after.drains, after.drains⟩⟩
  simp [binlogEaddress] at succeeded

theorem unreadRestores_iff_last (delivered : (binlogRead state).1 = .ok buf) (nonempty : buf ≠ [])
    (noneCounted : binlogNumEntries (binlogRead state).2.bl = 0) :
    UnreadRestores state buf ↔
      (¬ KeepsInMemory (binlogRead state).2.bl buf ∧ ¬ FileHasRoom (binlogRead state).2.bl buf ∨
        ∃ rest,
          binlogObject.Drains binlogEmpty (binlogRead state).2 rest ∧
            rest ++ [buf] = buf :: rest) := by
  obtain ⟨mem', file', split, after, reset⟩ := represented.read_ok delivered
  have fits : EntryFits buf := represented.fits buf (by simp [split])
  rw [← after.add_refused_iff fits]
  have before := represented.drains
  rw [split] at before
  obtain ⟨unread, grows⟩ := after.unread_add nonempty reset noneCounted
  obtain ⟨accepted, mem'', file'', joined, later⟩ | ⟨refused, same⟩ := after.add fits grows
  · unfold UnreadRestores
    rw [unread]
    constructor
    · intro restores
      obtain ⟨⟨entries, drainsBefore, drainsLater⟩, _⟩ := restores.1 accepted
      right
      refine ⟨mem' ++ file', after.drains, ?_⟩
      have sameBefore := FifoQueue.Object.drains_unique before drainsBefore
      have sameLater := FifoQueue.Object.drains_unique later.drains drainsLater
      rw [← joined, sameLater, sameBefore]
    · rintro (refused | ⟨rest, drainsAfter, rotated⟩)
      · exact absurd accepted refused
      · have restEq := FifoQueue.Object.drains_unique drainsAfter after.drains
        subst restEq
        refine ⟨fun _ => ⟨⟨_, before, ?_⟩, ?_⟩, fun refused => absurd accepted refused⟩
        · rw [← rotated, ← joined]
          exact later.drains
        · have lengths := congrArg List.length (joined.trans (rotated.trans split.symm))
          rw [length_append, length_append] at lengths
          rw [later.numEntries, represented.numEntries, lengths]
  · refine ⟨fun _ => .inl refused, fun _ => ?_⟩
    unfold UnreadRestores
    rw [unread, same]
    exact ⟨fun accepted => absurd accepted refused, fun _ => ⟨_, after.drains, after.drains⟩⟩

private theorem unreadRestores_iff_memory (delivered : (binlogRead state).1 = .ok buf)
    (nonempty : buf ≠ []) (others : binlogNumEntries (binlogRead state).2.bl ≠ 0) :
    UnreadRestores state buf ↔ state.bl.readIndex < state.bl.writeIndex := by
  have count := represented.memory.count
  cases mem with
  | cons first rest =>
    rw [represented.read_memory.1] at delivered
    cases delivered
    obtain ⟨restored, later⟩ := represented.unread_memory nonempty others
    rw [length_cons] at count
    refine ⟨fun _ => by omega, fun _ => ?_⟩
    refine ⟨fun _ => ⟨⟨_, represented.drains, later.drains⟩, ?_⟩,
      fun failed => absurd restored failed⟩
    rw [later.numEntries, represented.numEntries]
  | nil =>
    rw [length_nil] at count
    refine ⟨fun restores => ?_, fun fromMemory => by omega⟩
    obtain ⟨mem', file', split, _, _⟩ := represented.read_ok delivered
    rw [nil_append] at split
    subst split
    have after := represented.read_file.2.1
    rcases represented.unread_file nonempty others with
      ⟨restored, miscounted⟩ | ⟨dropped, notDrained⟩
    · exact absurd (restores.1 restored).2 miscounted
    · obtain ⟨entries, drainsAfter, drainsLater⟩ := restores.2 dropped
      rw [FifoQueue.Object.drains_unique drainsAfter after.drains] at drainsLater
      exact absurd drainsLater notDrained

end

/-- From every reachable backlog, unreading undoes a read exactly when it is
safe: an entry of the file with others behind it is never restored. -/
theorem binlogUnread_restores_iff
    {path : Option Bytes} {msize fsize : Nat} {disk : Disk}
    {start state : BinlogState} {buf : Bytes}
    (created : binlogCreate path msize fsize true disk = some start)
    (reached : ReachableFrom start state)
    (delivered : (binlogRead state).1 = .ok buf) :
    UnreadRestores state buf ↔ UnreadSafe state buf := by
  obtain ⟨mem, file, represented⟩ := reached.represents (represents_create created)
  unfold UnreadSafe
  by_cases bufNil : buf = []
  · subst bufNil
    simp [unreadRestores_nil represented delivered]
  · by_cases noneCounted : binlogNumEntries (binlogRead state).2.bl = 0
    · simp [bufNil, noneCounted, unreadRestores_iff_last represented delivered bufNil noneCounted]
    · simp [bufNil, noneCounted, unreadRestores_iff_memory represented delivered bufNil noneCounted]

def mixedBinlog : BinlogState :=
  (binlogAdd (binlogAdd (binlogAdd (sampleBinlog 2 64) [1]).2 [2]).2 [3]).2

private theorem mixedBinlog_reachable : ReachableFrom (sampleBinlog 2 64) mixedBinlog :=
  .add (.add (.add .start (by decide) (by decide)) (by decide) (by decide)) (by decide) (by decide)

theorem binlogUnread_restores_mixedBinlog : UnreadRestores mixedBinlog [1] :=
  (binlogUnread_restores_iff (sampleBinlog_created 2 64) mixedBinlog_reachable rfl).mpr
    (.inr (.inr ⟨by decide, by decide⟩))

theorem binlogUnread_duplicates_file_entry :
    ReachableFrom (sampleBinlog 2 64) (binlogRead mixedBinlog).2 ∧
      (binlogRead (binlogRead mixedBinlog).2).1 = .ok [2] ∧
      (binlogUnread (binlogRead (binlogRead mixedBinlog).2).2 [2]).1 = 0 ∧
      binlogNumEntries (binlogRead mixedBinlog).2.bl = 2 ∧
      binlogNumEntries (binlogUnread (binlogRead (binlogRead mixedBinlog).2).2 [2]).2.bl = 3 ∧
      ¬ UnreadRestores (binlogRead mixedBinlog).2 [2] := by
  refine ⟨.read mixedBinlog_reachable, rfl, by decide, by decide, by decide, ?_⟩
  intro restores
  exact absurd (restores.1 (by decide)).2 (by decide)

end MonitorMerlin
