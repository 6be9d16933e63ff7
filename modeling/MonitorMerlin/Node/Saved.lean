import MonitorMerlin.Binlog.Unread
import MonitorMerlin.Node.Backlog

/-! # Saving a backlog and reading it back -/

namespace MonitorMerlin

open ByteImage List MachineInt

def memoryEntries (bl : Binlog) : List Bytes :=
  (((bl.cache.getD []).drop bl.readIndex).take (bl.writeIndex - bl.readIndex)).filterMap id

variable {bl : Binlog} {mem : List Bytes} {buf : Bytes} {state : BinlogState} {file : List Bytes}
  {name : FileName} {disk : Disk} {saved : Binlog} {fuel : Nat} {start : BinlogState}
  {config : BacklogConfig} {path : Option Bytes} {msize fsize : Nat} {entries : List Bytes}

theorem MemoryHolds.memoryEntries_eq (holds : MemoryHolds bl mem) : memoryEntries bl = mem := by
  have count := holds.count
  have room := holds.room
  have capacity := holds.capacity
  have slots :
      ((bl.cache.getD []).drop bl.readIndex).take (bl.writeIndex - bl.readIndex) =
        mem.map some := by
    apply ext_getElem?
    intro index
    by_cases inside : index < mem.length
    · rw [getElem?_take_of_lt (by omega), getElem?_drop, holds.contents index inside]
      simp [inside]
    · rw [getElem?_eq_none, getElem?_eq_none]
      · simpa using inside
      · rw [length_take, length_drop]
        omega
  rw [memoryEntries, slots]
  simp

theorem MemoryHolds.advance {rest : List Bytes} (holds : MemoryHolds bl (buf :: rest)) :
    ((bl.cache.getD [])[bl.readIndex]?).join = some buf ∧
      MemoryHolds { bl with readIndex := bl.readIndex + 1 } rest := by
  have count := holds.count
  have first := holds.contents 0 (by simp)
  rw [length_cons] at count
  simp only [Nat.add_zero, getElem?_cons_zero] at first
  refine ⟨by rw [first]; rfl, holds.capacity, by simp only; omega, holds.room, holds.bound, ?_⟩
  intro index indexBound
  have later := holds.contents (index + 1) (by simpa using indexBound)
  rw [getElem?_cons_succ] at later
  simp only
  rw [show bl.readIndex + 1 + index = bl.readIndex + (index + 1) by omega]
  exact later

theorem flushEntries_appends (valid : state.bl.isValid = true) (memory : MemoryHolds state.bl mem)
    (onFile : FileHolds state file) (named : state.bl.path = some name)
    (room : mem = [] ∨ state.bl.fileSize + (frames mem).length ≤ state.bl.maxFileSize) :
    FileHolds (flushEntries mem.length state) (file ++ mem) ∧
      SameSettings (flushEntries mem.length state) state ∧
      (flushEntries mem.length state).bl.isValid = true := by
  induction mem generalizing state file with
  | nil => exact ⟨by simpa [flushEntries] using onFile, .refl state, valid⟩
  | cons buf rest ih =>
    obtain ⟨slot, advanced⟩ := memory.advance
    replace room := room.resolve_left (by simp)
    rw [frames_cons, length_append, length_frame] at room
    have nextFile : FileHolds
        { state with bl := { state.bl with readIndex := state.bl.readIndex + 1 } } file :=
      onFile.congr ⟨rfl, rfl, rfl, rfl, rfl, rfl, rfl⟩
    obtain ⟨content, added, addedFile⟩ := nextFile.fileAdd buf valid named (by simp only; omega)
    obtain ⟨laterFile, same, laterValid⟩ :=
      @ih (BinlogState.appended
          { state with bl := { state.bl with readIndex := state.bl.readIndex + 1 } }
          name content buf)
        (file ++ [buf]) valid (advanced.congr rfl rfl rfl rfl) addedFile named
        (.inr (by simp only [BinlogState.appended]; omega))
    simp only [length_cons, flushEntries, slot, added]
    exact ⟨by simpa using laterFile,
      same.trans ⟨rfl, rfl, rfl, rfl, rfl, state.disk.metadata_set _ _⟩, laterValid⟩

theorem binlogFlush_eq (memory : MemoryHolds state.bl mem) :
    binlogFlush state =
      { flushEntries mem.length state with
        bl :=
          { (flushEntries mem.length state).bl with
            cache := none
            memSize := 0
            writeIndex := 0
            readIndex := 0
            alloc := 0 } } := by
  have count := memory.count
  unfold binlogFlush
  cases mem with
  | nil =>
    rw [length_nil, Nat.add_zero] at count
    cases cacheShape : state.bl.cache with
    | none => rfl
    | some slots => simp [count, flushEntries]
  | cons buf rest =>
    have cacheSome : state.bl.cache.isSome = true := by
      rw [memory.cache_eq memory.alloc_pos]
      rfl
    rw [if_pos cacheSome, count, Nat.add_sub_cancel_left]

theorem binlogSave_eq {content : Bytes} (counted : binlogNumEntries state.bl ≠ 0)
    (named : (binlogFlush state).bl.path = some .log)
    (metadataPath : (binlogFlush state).bl.fileMetadataPath = true)
    (savePath : (binlogFlush state).bl.fileSavePath = true)
    (found : (binlogFlush state).disk.get .log = some content) :
    (binlogSave state).1 = 0 ∧
      (binlogSave state).2.disk = ⟨none, some content, some (binlogFlush state).bl⟩ := by
  have logFound : (binlogFlush state).disk.log = some content := found
  unfold binlogSave binlogWriteFileMetadata
  rw [if_pos (Nat.pos_of_ne_zero counted)]
  simp only [metadataPath, if_true]
  simp [renameToSave, named, savePath, Disk.get, Disk.set, logFound]

theorem Represents.save (represented : Represents state mem file)
    (named : state.bl.path = some .log) (metadataPath : state.bl.fileMetadataPath = true)
    (savePath : state.bl.fileSavePath = true) (counted : binlogNumEntries state.bl ≠ 0)
    (room : mem = [] ∨ state.bl.fileSize + (frames mem).length ≤ state.bl.maxFileSize) :
    (binlogSave state).1 = 0 ∧
      (binlogSave state).2.disk.get .log = none ∧
      ∃ saved,
        binlogGetSaved (binlogSave state).2.disk = (some saved, saved.disk) ∧
          saved.bl.path = some .save ∧
          saved.disk.get .log = none ∧
          Represents saved [] (file ++ mem) := by
  obtain ⟨onFile, same, valid⟩ :=
    flushEntries_appends represented.valid represented.memory represented.onFile named room
  have flushed := binlogFlush_eq represented.memory
  have flushedFile : FileHolds (binlogFlush state) (file ++ mem) := by
    rw [flushed]
    exact onFile.congr ⟨rfl, rfl, rfl, rfl, rfl, rfl, rfl⟩
  have flushedValid : (binlogFlush state).bl.isValid = true := by
    rw [flushed]
    exact valid
  have flushedNamed : (binlogFlush state).bl.path = some .log := by
    rw [flushed]
    exact same.path.trans named
  generalize joined : file ++ mem = entries at flushedFile
  cases flushedFile with
  | closed _ _ _ _ _ _ =>
    obtain ⟨fileNil, memNil⟩ := append_eq_nil_iff.mp joined
    rw [represented.numEntries, fileNil, memNil] at counted
    exact absurd rfl counted
  | opened fd' consumed _ someFd atPath appending content size readPos writePos count =>
    have target : fd'.target = .log := Option.some.inj (atPath.symm.trans flushedNamed)
    rw [target] at content
    obtain ⟨succeeded, disk⟩ :=
      binlogSave_eq counted flushedNamed
        (by rw [flushed]; exact same.fileMetadataPath.trans metadataPath)
        (by rw [flushed]; exact same.fileSavePath.trans savePath) content
    rw [disk]
    refine ⟨succeeded, rfl,
      { bl :=
          { (binlogFlush state).bl with
            fileMetadataPath := true
            path := some .save
            fd := some ⟨.save, 0, true⟩ }
        disk := ⟨none, some (consumed ++ frames entries), none⟩ }, ?_, rfl, rfl, ?_⟩
    · simp [binlogGetSaved, binlogOpen, flushedValid, Disk.get, Disk.set]
    · refine ⟨flushedValid, ?_, ?_, by simp, ?_⟩
      · rw [flushed]
        exact ⟨rfl, rfl, Nat.le_refl _, Nat.two_pow_pos 32, by simp⟩
      · exact .opened ⟨.save, 0, true⟩ consumed entries rfl rfl rfl rfl size readPos writePos count
      · intro buf member
        rw [nil_append, ← joined, mem_append] at member
        exact represented.fits buf (mem_append.mpr member.symm)

theorem Represents.of_disk {disk other : Disk} (represented : Represents ⟨bl, disk⟩ mem file)
    (same : ∀ name, bl.path = some name → other.get name = disk.get name) :
    Represents ⟨bl, other⟩ mem file := by
  refine ⟨represented.valid, represented.memory, ?_, represented.memoryFirst, represented.fits⟩
  cases represented.onFile with
  | closed noFd size readPos writePos entries absent =>
    exact .closed noFd size readPos writePos entries fun name named =>
      (same name named).trans (absent name named)
  | opened fd consumed file someFd atPath appending content size readPos writePos entries =>
    exact .opened fd consumed file someFd atPath appending
      ((same fd.target atPath).trans content) size readPos writePos entries

structure AddsOne
    (state : BinlogState) (name : FileName) (buf : Bytes) (mem file mem' file' : List Bytes) :
    Prop where
  represents : Represents (binlogAdd state buf).2 mem' file'
  appended : mem' ++ file' = mem ++ file ++ [buf]
  memLength : mem'.length ≤ mem.length + 1
  readIndex : (binlogAdd state buf).2.bl.readIndex = 0
  path : (binlogAdd state buf).2.bl.path = some name
  maxFileSize : (binlogAdd state buf).2.bl.maxFileSize = state.bl.maxFileSize
  fileSize : (binlogAdd state buf).2.bl.fileSize ≤ state.bl.fileSize + (frame buf).length
  otherFiles : ∀ other, other ≠ name → (binlogAdd state buf).2.disk.get other = state.disk.get other

theorem Represents.addsOne (represented : Represents state mem file) (fits : EntryFits buf)
    (named : state.bl.path = some name) (atStart : state.bl.readIndex = 0)
    (slots : mem.length ≤ slotLimit)
    (room : state.bl.fileSize + (frame buf).length ≤ state.bl.maxFileSize) :
    ∃ mem' file', AddsOne state name buf mem file mem' file' := by
  have same := (represented.add_keeps buf).1
  have path := same.path.trans named
  rw [length_frame] at room
  by_cases inMemory : KeepsInMemory state.bl buf
  · have grows : GrowFits state.bl :=
      growFits_of_slots (by rw [represented.memory.count, atStart]; omega)
    obtain ⟨_, fileNil, after⟩ := represented.add_memory fits grows inMemory
    have result : binlogAdd state buf = (0, { state with bl := binlogMemAdd state.bl buf }) :=
      binlogAddWrites_memory represented.valid inMemory
    obtain ⟨cache, alloc, fields⟩ := binlogMemAdd_fields state.bl buf
    refine ⟨mem ++ [buf], [], after, by simp [fileNil], by simp, ?_, path, same.maxFileSize, ?_, ?_⟩
    · rw [result, fields]
      exact atStart
    · rw [result, fields]
      simp only
      omega
    · intro other _
      rw [result]
  · have hasRoom : FileHasRoom state.bl buf := by
      refine ⟨by rw [named]; simp, ?_⟩
      omega
    obtain ⟨name', content, named', added, after⟩ := represented.add_file fits inMemory hasRoom
    have sameName : name' = name := Option.some.inj (named'.symm.trans named)
    subst sameName
    refine ⟨mem, file ++ [buf], after, by simp, by simp, ?_, path, same.maxFileSize, ?_, ?_⟩
    · rw [added]
      exact atStart
    · rw [added, length_frame]
      rfl
    · intro other different
      rw [added]
      exact Disk.get_set_ne _ different _

theorem readSavedLoop_packet {pkt : Bytes} (delivered : (binlogRead ⟨saved, disk⟩).1 = .ok pkt)
    (sameDisk : (binlogRead ⟨saved, disk⟩).2.disk = disk) (packet : ValidPacket pkt) (fuel : Nat) :
    readSavedLoop (fuel + 1) saved bl disk =
      readSavedLoop fuel (binlogRead ⟨saved, disk⟩).2.bl
        (binlogAdd ⟨bl, disk⟩ pkt).2.bl (binlogAdd ⟨bl, disk⟩ pkt).2.disk := by
  rw [readSavedLoop]
  rcases readResult : binlogRead ⟨saved, disk⟩ with ⟨outcome, next⟩
  rw [readResult] at delivered sameDisk
  simp only at delivered sameDisk
  subst delivered
  simp only [packet.acceptsEntry, if_true, sameDisk]

theorem readSavedLoop_moves {mem file rest : List Bytes}
    (savedRepresented : Represents ⟨saved, disk⟩ [] rest) (savedPath : saved.path = some .save)
    (represented : Represents ⟨bl, disk⟩ mem file) (path : bl.path = some .log)
    (atStart : bl.readIndex = 0) (packets : ∀ pkt ∈ rest, ValidPacket pkt)
    (slots : mem.length + rest.length ≤ slotLimit)
    (room : bl.fileSize + (frames rest).length ≤ bl.maxFileSize) (enough : rest.length < fuel) :
    ∃ saved' bl' disk',
      readSavedLoop fuel saved bl disk = some (true, saved', bl', disk') ∧
        saved'.path = some .save ∧ bl'.path = some .log ∧
        Queues ⟨bl', disk'⟩ (mem ++ file ++ rest) := by
  obtain ⟨fuel, rfl⟩ : ∃ less, fuel = less + 1 := ⟨fuel - 1, by omega⟩
  induction rest generalizing saved bl disk mem file fuel with
  | nil =>
    have unlinked : ∀ name, bl.path = some name →
        (disk.unlink (some .save)).get name = disk.get name := by
      intro name named
      rw [path] at named
      cases named
      rfl
    refine ⟨(binlogRead ⟨saved, disk⟩).2.bl, bl, disk.unlink (some .save), ?_, ?_, path,
      mem, file, by simp, represented.of_disk unlinked⟩
    · rw [readSavedLoop, savedRepresented.read_empty_eq, savedPath]
    · rw [savedRepresented.read_empty_eq]
      exact savedPath
  | cons pkt rest ih =>
    obtain ⟨delivered, afterRepresented, fd, after⟩ := savedRepresented.read_file
    have packet := packets pkt (by simp)
    have fits : EntryFits pkt := savedRepresented.fits pkt (by simp)
    rw [frames_cons, length_append] at room
    rw [length_cons] at slots enough
    obtain ⟨mem', file', adds⟩ :=
      represented.addsOne fits path atStart (by omega) (by simp only; omega)
    obtain ⟨less, rfl⟩ : ∃ less, fuel = less + 1 := ⟨fuel - 1, by omega⟩
    have nextEnough : rest.length < less + 1 := by omega
    have nextSlots : mem'.length + rest.length ≤ slotLimit := by
      have length := adds.memLength
      omega
    have nextSaved :
        Represents ⟨(binlogRead ⟨saved, disk⟩).2.bl, (binlogAdd ⟨bl, disk⟩ pkt).2.disk⟩
          [] rest := by
      have remaining : Represents ⟨(binlogRead ⟨saved, disk⟩).2.bl, disk⟩ [] rest := by
        rw [after] at afterRepresented ⊢
        exact afterRepresented
      refine remaining.of_disk fun name named => ?_
      rw [after] at named
      have sameName : FileName.save = name := Option.some.inj (savedPath.symm.trans named)
      rw [← sameName]
      exact adds.otherFiles .save (by decide)
    have nextRoom :
        (binlogAdd ⟨bl, disk⟩ pkt).2.bl.fileSize + (frames rest).length ≤
          (binlogAdd ⟨bl, disk⟩ pkt).2.bl.maxFileSize := by
      rw [adds.maxFileSize]
      refine (Int.add_le_add_right adds.fileSize _).trans ?_
      rw [Int.add_assoc]
      exact room
    rw [readSavedLoop_packet delivered (by rw [after]) packet]
    obtain ⟨saved', bl', disk', result, savedPath', path', queues⟩ :=
      ih nextSaved (by rw [after]; exact savedPath) adds.represents adds.path
        adds.readIndex (fun other member => packets other (mem_cons_of_mem pkt member))
        nextSlots nextRoom less nextEnough
    refine ⟨saved', bl', disk', result, savedPath', path', ?_⟩
    rw [adds.appended] at queues
    simpa using queues

/-- Saved and read again, the backlog delivers `entries`. -/
def SavedDelivers (config : BacklogConfig) (state : BinlogState) (entries : List Bytes) : Prop :=
  (binlogSave state).1 = 0 ∧
    ∃ enough, ∀ fuel, enough ≤ fuel →
      ∃ bl disk,
        nodeBinlogReadSaved fuel config none (binlogSave state).2.disk =
            some (0, some bl, disk) ∧
          binlogObject.Drains binlogEmpty ⟨bl, disk⟩ entries

theorem nodeCreateBinlog_created
    (created : nodeCreateBinlog config none disk = (0, some start.bl, start.disk)) :
    ¬ config.path.length < 15 ∧ start = ⟨config.fresh, disk.unlink config.fresh.path⟩ := by
  rw [nodeCreateBinlog_none] at created
  split_ifs at created with short
  · cases created
  · obtain ⟨bl, files⟩ := start
    cases created
    exact ⟨short, rfl⟩

theorem savedDelivers_nil (persist : config.persist = true) (long : ¬ config.path.length < 15)
    (represented : Represents state [] []) (noneSaved : state.disk.metadata = none) :
    SavedDelivers config state [] := by
  have nothing : binlogSave state = (0, state) := by
    unfold binlogSave
    rw [if_neg (by rw [represented.numEntries]; decide)]
  have noneLeft : (state.disk.unlink config.fresh.path).metadata = none :=
    (state.disk.metadata_unlink _).trans noneSaved
  have fresh : Represents ⟨config.fresh, state.disk.unlink config.fresh.path⟩ [] [] :=
    represents_fresh fun _ => state.disk.get_unlink
  unfold SavedDelivers
  rw [nothing]
  refine ⟨rfl, 0, fun fuel _ => ⟨_, _, ?_, fresh.drains⟩⟩
  unfold nodeBinlogReadSaved
  rw [if_neg (by simp [persist]), nodeCreateBinlog_none, if_neg long]
  simp only [binlogGetSaved, noneLeft]

theorem frames_length_pos (nonempty : entries ≠ []) : 0 < (frames entries).length := by
  cases entries with
  | nil => exact absurd rfl nonempty
  | cons buf rest =>
    rw [frames_cons, length_append, length_frame]
    omega

theorem path_of_maxFileSize (room : 0 < config.fresh.maxFileSize) :
    config.fresh.path = some .log := by
  by_cases noFile : config.maxFileSize * 1024 * 1024 % 2 ^ 64 = 0
  · change 0 < offT (config.maxFileSize * 1024 * 1024) at room
    rw [offT, noFile] at room
    exact absurd room (by decide)
  · exact if_pos noFile

theorem Represents.flushRoom (represented : Represents state mem file)
    (room : ((frames (mem ++ file)).length : Int) ≤ state.bl.maxFileSize) :
    mem = [] ∨ state.bl.fileSize + (frames mem).length ≤ state.bl.maxFileSize := by
  by_cases memNil : mem = []
  · exact .inl memNil
  · right
    obtain ⟨_, size, _⟩ := represented.onFile.bounds
    rw [represented.memoryFirst memNil] at size
    rw [frames_append, length_append] at room
    omega

theorem savedDelivers_unique {first second : List Bytes}
    (deliversFirst : SavedDelivers config state first)
    (deliversSecond : SavedDelivers config state second) : first = second := by
  obtain ⟨_, enough, result⟩ := deliversFirst
  obtain ⟨_, enough', result'⟩ := deliversSecond
  obtain ⟨bl, files, read, drains⟩ := result _ (Nat.le_max_left enough enough')
  obtain ⟨bl', files', read', drains'⟩ := result' _ (Nat.le_max_right enough enough')
  rw [read] at read'
  cases read'
  exact FifoQueue.Object.drains_unique drains drains'

theorem nodeBinlogReadSaved_delivers {files : Disk} {saved : BinlogState}
    (persist : config.persist = true) (long : ¬ config.path.length < 15)
    (path : config.fresh.path = some .log) (noLog : files.get .log = none)
    (found : binlogGetSaved files = (some saved, saved.disk))
    (savedPath : saved.bl.path = some .save) (savedLog : saved.disk.get .log = none)
    (represented : Represents saved [] entries) (packets : ∀ pkt ∈ entries, ValidPacket pkt)
    (room : ((frames entries).length : Int) ≤ config.fresh.maxFileSize)
    (slots : entries.length ≤ slotLimit) (enough : entries.length < fuel) :
    ∃ bl left,
      nodeBinlogReadSaved fuel config none files = some (0, some bl, left) ∧
        binlogObject.Drains binlogEmpty ⟨bl, left⟩ entries := by
  have unlinked : files.unlink config.fresh.path = files := by
    rw [path, Disk.unlink, ← noLog, Disk.set_get]
  have fresh : Represents ⟨config.fresh, saved.disk⟩ [] [] := by
    refine represents_fresh fun name named => ?_
    have sameName : FileName.log = name := Option.some.inj (path.symm.trans named)
    rw [← sameName, savedLog]
  obtain ⟨saved', bl', left, moved, savedPath', path', mem, file, joined, later⟩ :=
    readSavedLoop_moves represented savedPath fresh path rfl packets
      (by rw [length_nil, Nat.zero_add]; exact slots)
      (by exact (Int.zero_add _).trans_le room) enough
  refine ⟨bl', (binlogWipe ⟨saved', left⟩ true).disk, ?_, ?_⟩
  · unfold nodeBinlogReadSaved
    rw [if_neg (by simp [persist]), nodeCreateBinlog_none, if_neg long, unlinked]
    simp only [found, moved]
  · rw [append_nil, nil_append] at joined
    rw [joined]
    refine Represents.drains (later.of_disk fun name named => ?_)
    have sameName : FileName.log = name := Option.some.inj (path'.symm.trans named)
    rw [← sameName]
    unfold binlogWipe
    simp only [binlogClose, savedPath', Disk.unlink, if_true]
    split
    · exact Disk.get_set_ne _ (by decide) _
    · rfl

theorem savedDelivers_file_first (persist : config.persist = true)
    (long : ¬ config.path.length < 15) (same : SameSettings state ⟨config.fresh, disk⟩)
    (represented : Represents state mem file) (nonempty : mem ++ file ≠ [])
    (packets : ∀ pkt ∈ mem ++ file, ValidPacket pkt)
    (room : ((frames (mem ++ file)).length : Int) ≤ state.bl.maxFileSize)
    (slots : (mem ++ file).length ≤ slotLimit) : SavedDelivers config state (file ++ mem) := by
  have freshRoom : ((frames (mem ++ file)).length : Int) ≤ config.fresh.maxFileSize :=
    room.trans_eq same.maxFileSize
  have path : config.fresh.path = some .log := by
    have positive := frames_length_pos nonempty
    exact path_of_maxFileSize (by omega)
  have counted : binlogNumEntries state.bl ≠ 0 := by
    have positive := length_pos_iff.mpr nonempty
    rw [represented.numEntries, ← length_append, uint]
    unfold slotLimit at slots
    omega
  obtain ⟨succeeded, renamed, saved, found, savedPath, savedLog, savedRepresented⟩ :=
    represented.save (same.path.trans path) same.fileMetadataPath same.fileSavePath counted
      (represented.flushRoom room)
  have swappedRoom : ((frames (file ++ mem)).length : Int) ≤ config.fresh.maxFileSize := by
    rw [frames_append, length_append] at freshRoom ⊢
    omega
  have swappedSlots : (file ++ mem).length ≤ slotLimit := by
    rw [length_append] at slots ⊢
    omega
  exact ⟨succeeded, (file ++ mem).length + 1, fun fuel enough =>
    nodeBinlogReadSaved_delivers persist long path renamed found savedPath savedLog
      savedRepresented
      (fun pkt member => packets pkt (mem_append.mpr (mem_append.mp member).symm))
      swappedRoom swappedSlots enough⟩

/-- A saved backlog survives the restart in order exactly when its entries in
memory and on file commute, in particular when there are none of one kind. -/
theorem savedBacklog_delivers_iff
    {config : BacklogConfig} {disk : Disk} {start state : BinlogState} {entries : List Bytes}
    (persist : config.persist = true)
    (created : nodeCreateBinlog config none disk = (0, some start.bl, start.disk))
    (noneSaved : disk.metadata = none)
    (reached : ReachableFrom start state)
    (drains : binlogObject.Drains binlogEmpty state entries)
    (packets : ∀ pkt ∈ entries, ValidPacket pkt)
    (room : ((frames entries).length : Int) ≤ state.bl.maxFileSize)
    (slots : entries.length ≤ slotLimit) :
    SavedDelivers config state entries ↔
      ∃ file,
        entries = memoryEntries state.bl ++ file ∧
          memoryEntries state.bl ++ file = file ++ memoryEntries state.bl := by
  obtain ⟨long, rfl⟩ := nodeCreateBinlog_created created
  have fresh : Represents ⟨config.fresh, disk.unlink config.fresh.path⟩ [] [] :=
    represents_fresh fun _ => disk.get_unlink
  have same := reached.sameSettings fresh
  obtain ⟨mem, file, represented⟩ := reached.represents fresh
  have entriesEq := FifoQueue.Object.drains_unique drains represented.drains
  subst entriesEq
  rw [represented.memory.memoryEntries_eq]
  have delivers : SavedDelivers config state (file ++ mem) := by
    by_cases nonempty : mem ++ file = []
    · obtain ⟨memNil, fileNil⟩ := append_eq_nil_iff.mp nonempty
      subst memNil fileNil
      exact savedDelivers_nil persist long represented
        (same.metadata.trans ((disk.metadata_unlink _).trans noneSaved))
    · exact savedDelivers_file_first persist long same represented nonempty packets room slots
  constructor
  · intro inOrder
    exact ⟨file, rfl, savedDelivers_unique inOrder delivers⟩
  · rintro ⟨other, sameFile, commutes⟩
    rw [append_cancel_left sameFile, commutes, ← append_cancel_left sameFile]
    exact delivers

def sampleConfig : BacklogConfig := ⟨samplePath, 1, 2, true⟩

def sampleStart : BinlogState := sampleBinlog (1 * 1024 * 1024) (2 * 1024 * 1024)

theorem sampleStart_created :
    nodeCreateBinlog sampleConfig none noFiles = (0, some sampleStart.bl, sampleStart.disk) := by
  unfold nodeCreateBinlog
  rw [if_neg (by decide)]
  simp only [sampleConfig, sampleBinlog_created]
  rfl

def addAll (state : BinlogState) (bufs : List Bytes) : BinlogState :=
  bufs.foldl (fun current buf => (binlogAdd current buf).2) state

def memLoad (bufs : List Bytes) : Nat := (bufs.map fun buf => buf.length + entryOverhead).sum

structure KeptInMemory (start state : BinlogState) (bufs : List Bytes) : Prop where
  reached : ReachableFrom start state
  represents : Represents state bufs []
  closed : state.bl.fd = none
  atStart : state.bl.readIndex = 0
  memSize : state.bl.memSize = memLoad bufs
  same : SameSettings state start

theorem KeptInMemory.add {bufs : List Bytes} (kept : KeptInMemory start state bufs)
    (fits : EntryFits buf) (limit : start.bl.maxMemSize ≤ 2 ^ 32)
    (load : memLoad (bufs ++ [buf]) < start.bl.maxMemSize) (slots : bufs.length ≤ slotLimit) :
    KeptInMemory start (binlogAdd state buf).2 (bufs ++ [buf]) := by
  have loadEq : memLoad (bufs ++ [buf]) = memLoad bufs + (buf.length + entryOverhead) := by
    simp [memLoad]
  have memSize := kept.memSize
  have inMemory : KeepsInMemory state.bl buf := by
    refine ⟨kept.closed, ?_⟩
    rw [kept.same.maxMemSize, uint, Nat.mod_eq_of_lt (by omega)]
    omega
  have grows : GrowFits state.bl :=
    growFits_of_slots (by rw [kept.represents.memory.count, kept.atStart]; omega)
  obtain ⟨_, _, after⟩ := kept.represents.add_memory fits grows inMemory
  have result : binlogAdd state buf = (0, { state with bl := binlogMemAdd state.bl buf }) :=
    binlogAddWrites_memory kept.represents.valid inMemory
  obtain ⟨cache, alloc, fields⟩ := binlogMemAdd_fields state.bl buf
  refine ⟨.add kept.reached fits grows, after, ?_, ?_, ?_,
    (kept.represents.add_keeps _).1.trans kept.same⟩
  · rw [result, fields]
    exact kept.closed
  · rw [result, fields]
    exact kept.atStart
  · rw [result, fields, loadEq, ← memSize]
    exact Nat.mod_eq_of_lt (by omega)

theorem KeptInMemory.addAll {mem bufs : List Bytes} (kept : KeptInMemory start state mem)
    (limit : start.bl.maxMemSize ≤ 2 ^ 32) (load : memLoad (mem ++ bufs) < start.bl.maxMemSize)
    (slots : (mem ++ bufs).length ≤ slotLimit) (fits : ∀ buf ∈ bufs, EntryFits buf) :
    KeptInMemory start (addAll state bufs) (mem ++ bufs) := by
  induction bufs generalizing state mem with
  | nil => simpa [MonitorMerlin.addAll] using kept
  | cons buf rest ih =>
    rw [append_cons] at load slots ⊢
    have less : memLoad (mem ++ [buf]) ≤ memLoad (mem ++ [buf] ++ rest) := by
      simp [memLoad]
    have added := kept.add (fits buf (by simp)) limit (by omega) (by simp at slots; omega)
    exact ih added load slots fun other member => fits other (mem_cons_of_mem buf member)

theorem sampleStart_addAll {bufs : List Bytes} (load : memLoad bufs < 1048576)
    (slots : bufs.length ≤ slotLimit) (packets : ∀ pkt ∈ bufs, ValidPacket pkt) :
    KeptInMemory sampleStart (addAll sampleStart bufs) bufs := by
  have fresh : KeptInMemory sampleStart sampleStart [] :=
    ⟨.start, represents_create (sampleBinlog_created _ _), rfl, rfl, rfl, .refl _⟩
  exact fresh.addAll (by decide) load slots fun buf member =>
    (packets buf member).length_le.trans_lt (by decide)

def samplePacket (bodyLength : Nat) (fill : UInt8) : Bytes :=
  List.replicate 16 0 ++ leBytes 4 bodyLength ++ List.replicate (bodyLength + 108) fill

theorem length_samplePacket (bodyLength : Nat) (fill : UInt8) :
    (samplePacket bodyLength fill).length = bodyLength + 128 := by
  simp [samplePacket]
  omega

theorem getElem?_samplePacket (bodyLength : Nat) (fill : UInt8) :
    (samplePacket bodyLength fill)[20]? = some fill := by
  unfold samplePacket
  rw [getElem?_append_right (by simp)]
  simp

theorem validPacket_samplePacket {bodyLength : Nat} (fill : UInt8) (small : bodyLength ≤ 131072) :
    ValidPacket (samplePacket bodyLength fill) := by
  have len : hdrLen (samplePacket bodyLength fill) = bodyLength := by
    have field : slice (samplePacket bodyLength fill) 16 4 = leBytes 4 bodyLength := by
      simp [slice, samplePacket]
    rw [hdrLen, field, leValue_leBytes (by omega)]
  have size : packetSize (samplePacket bodyLength fill) = (bodyLength + 128 : Nat) := by
    rw [packetSize, len, hdrSize, toInt_of_lt (by omega)]
  refine ⟨by rw [size, length_samplePacket], ?_⟩
  rw [size, maxPktSize]
  omega

theorem savedBacklog_delivers_packet :
    SavedDelivers sampleConfig (addAll sampleStart [samplePacket 8 1]) [samplePacket 8 1] := by
  have packets : ∀ pkt ∈ [samplePacket 8 1], ValidPacket pkt := by
    simpa using validPacket_samplePacket 1 (by decide)
  have kept :=
    sampleStart_addAll (by simp [memLoad, length_samplePacket, entryOverhead]) (by decide) packets
  refine
    (savedBacklog_delivers_iff rfl sampleStart_created rfl kept.reached kept.represents.drains
      packets ?_ (by decide)).mpr ⟨[], ?_, by simp⟩
  · rw [kept.same.maxFileSize, show sampleStart.bl.maxFileSize = 2097152 by decide]
    simp [length_samplePacket]
  · rw [kept.represents.memory.memoryEntries_eq]

theorem savedBacklog_reorders :
    ∃ state,
      ReachableFrom sampleStart state ∧
        binlogObject.Drains binlogEmpty state
          (List.replicate 7 (samplePacket 131072 0) ++ [samplePacket 131072 1]) ∧
        (∀ pkt ∈ List.replicate 7 (samplePacket 131072 0) ++ [samplePacket 131072 1],
          ValidPacket pkt) ∧
        ((frames (List.replicate 7 (samplePacket 131072 0) ++
          [samplePacket 131072 1])).length : Int) ≤ state.bl.maxFileSize ∧
        SavedDelivers sampleConfig state
          (samplePacket 131072 1 :: List.replicate 7 (samplePacket 131072 0)) ∧
        ¬ SavedDelivers sampleConfig state
          (List.replicate 7 (samplePacket 131072 0) ++ [samplePacket 131072 1]) := by
  generalize bigEq : samplePacket 131072 0 = big
  generalize lastEq : samplePacket 131072 1 = last
  have bigLength : big.length = 131200 := by rw [← bigEq, length_samplePacket]
  have lastLength : last.length = 131200 := by rw [← lastEq, length_samplePacket]
  have bigValid : ValidPacket big := bigEq ▸ validPacket_samplePacket 0 (by decide)
  have lastValid : ValidPacket last := lastEq ▸ validPacket_samplePacket 1 (by decide)
  have different : big ≠ last := by
    intro same
    have bytes := congrArg (fun pkt : Bytes => pkt[20]?) same
    simp only [← bigEq, ← lastEq, getElem?_samplePacket] at bytes
    exact absurd bytes (by decide)
  have packets : ∀ pkt ∈ replicate 7 big ++ [last], ValidPacket pkt := by
    intro pkt member
    rcases mem_append.mp member with inMemory | onFile
    · rw [eq_of_mem_replicate inMemory]
      exact bigValid
    · rw [mem_singleton.mp onFile]
      exact lastValid
  have load : memLoad (replicate 7 big) = 918512 := by
    simp [memLoad, bigLength, entryOverhead]
  obtain ⟨reached, represented, closed, atStart, memSize, same⟩ :=
    sampleStart_addAll (by rw [load]; decide) (by rw [length_replicate]; decide)
      (fun pkt member => packets pkt (mem_append_left [last] member))
  have fits : EntryFits last := by
    rw [EntryFits, lastLength]
    decide
  have toFile : ¬ KeepsInMemory (addAll sampleStart (replicate 7 big)).bl last := by
    rintro ⟨_, below⟩
    rw [memSize, load, lastLength, same.maxMemSize] at below
    exact absurd below (by decide)
  have maxFileSize : sampleStart.bl.maxFileSize = 2097152 := by decide
  have hasRoom : FileHasRoom (addAll sampleStart (replicate 7 big)).bl last := by
    refine ⟨by rw [same.path]; decide, ?_⟩
    rw [(represented.onFile.bounds).2.1, represented.onFile.eq_nil_of_closed closed |>.2,
      same.maxFileSize, maxFileSize, lastLength]
    decide
  obtain ⟨name, content, -, -, after⟩ := represented.add_file fits toFile hasRoom
  rw [nil_append] at after
  have settings := (represented.add_keeps last).1.trans same
  have room :
      ((frames (replicate 7 big ++ [last])).length : Int) ≤
        (binlogAdd (addAll sampleStart (replicate 7 big)) last).2.bl.maxFileSize := by
    rw [settings.maxFileSize, maxFileSize]
    simp [frames, bigLength, lastLength]
  have delivers : SavedDelivers sampleConfig _ _ :=
    savedDelivers_file_first rfl (by decide) settings after (by simp) packets room
      (by simp [slotLimit])
  refine ⟨_, .add reached fits ?_, after.drains, packets, room, delivers, fun inOrder => ?_⟩
  · exact growFits_of_slots (by rw [represented.memory.count, atStart]; simp [slotLimit])
  · have heads := savedDelivers_unique inOrder delivers
    simp [replicate_succ] at heads
    exact different heads.1

end MonitorMerlin
