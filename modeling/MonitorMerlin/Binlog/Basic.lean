import MonitorMerlin.Library.ByteImage

/-! # The binary backlog -/

namespace MonitorMerlin

open ByteImage

inductive FileName where
  | log
  | save
  deriving DecidableEq, Repr

structure Descriptor where
  target : FileName
  position : Nat
  appending : Bool
  deriving DecidableEq, Repr

/-- `struct binlog`. -/
structure Binlog where
  cache : Option (List (Option Bytes))
  writeIndex : Nat
  readIndex : Nat
  fileEntries : Nat
  alloc : Nat
  memSize : Nat
  maxMemSize : Nat
  memAvail : Nat
  maxFileSize : Int
  fileSize : Int
  fileReadPos : Int
  fileWritePos : Int
  isValid : Bool
  shouldWarnIfFull : Bool
  path : Option FileName
  fileMetadataPath : Bool
  fileSavePath : Bool
  fd : Option Descriptor
  deriving DecidableEq, Repr

structure Disk where
  log : Option Bytes
  save : Option Bytes
  metadata : Option Binlog
  deriving DecidableEq, Repr

structure BinlogState where
  bl : Binlog
  disk : Disk
  deriving DecidableEq, Repr

namespace Disk

variable (disk : Disk)

def get : FileName → Option Bytes
  | .log => disk.log
  | .save => disk.save

def set (name : FileName) (content : Option Bytes) : Disk :=
  match name with
  | .log => { disk with log := content }
  | .save => { disk with save := content }

@[simp]
theorem get_set_same (name : FileName) (content : Option Bytes) :
    (disk.set name content).get name = content := by
  cases name <;> rfl

@[simp]
theorem set_set_same (name : FileName) (first second : Option Bytes) :
    (disk.set name first).set name second = disk.set name second := by
  cases name <;> rfl

theorem get_set_ne {name other : FileName} (different : other ≠ name) (content : Option Bytes) :
    (disk.set name content).get other = disk.get other := by
  cases name <;> cases other <;> first | rfl | exact absurd rfl different

@[simp]
theorem metadata_set (name : FileName) (content : Option Bytes) :
    (disk.set name content).metadata = disk.metadata := by
  cases name <;> rfl

@[simp]
theorem set_get (name : FileName) : disk.set name (disk.get name) = disk := by
  cases name <;> rfl

/-- `unlink`; a `NULL` path removes nothing. -/
def unlink : Option FileName → Disk
  | some name => disk.set name none
  | none => disk

theorem metadata_unlink (path : Option FileName) :
    (disk.unlink path).metadata = disk.metadata := by
  cases path with
  | none => rfl
  | some name => exact disk.metadata_set name none

theorem get_unlink {path : Option FileName} {name : FileName} (named : path = some name) :
    (disk.unlink path).get name = none := by
  subst named
  exact disk.get_set_same name none

end Disk

def uint (value : Nat) : Nat := value % 2 ^ 32

def offT (value : Nat) : Int :=
  if value % 2 ^ 64 < 2 ^ 63 then
    (value % 2 ^ 64 : Nat)
  else
    (value % 2 ^ 64 : Nat) - 2 ^ 64

def binlogEnopath : Int := -3
def binlogEincomplete : Int := -4
def binlogEmpty : Int := -5
def binlogEinvalid : Int := -6
def binlogEnospc : Int := -7
def binlogEdropped : Int := -8
def binlogEaddress : Int := -9

def entryOverhead : Nat := 16

/-- A `binlog_entry` in the file. -/
def frame (buf : Bytes) : Bytes := leBytes 4 buf.length ++ buf

def frames (entries : List Bytes) : Bytes := entries.flatMap frame

section

variable (state : BinlogState)

/-- `binlog_close`. -/
def binlogClose : BinlogState :=
  { state with bl := { state.bl with fd := none } }

/-- `binlog_invalidate`. -/
def binlogInvalidate : BinlogState :=
  let closed := binlogClose state
  { bl := { closed.bl with isValid := false }
    disk := closed.disk.unlink closed.bl.path }

inductive WriteOutcome where
  | full
  | short (written : Nat) (seekBack : Bool)
  | error
  deriving DecidableEq, Repr

def WriteOutcome.result (outcome : WriteOutcome) (length : Nat) : Int :=
  match outcome with
  | .full => length
  | .short written _ => (min written length : Nat)
  | .error => -1

/-- `safe_write`. -/
def safeWrite (buf : Bytes) (outcome : WriteOutcome) : Int × BinlogState :=
  match state.bl.fd with
  | none => (-1, state)
  | some fd =>
    let content := (state.disk.get fd.target).getD []
    let sought := if (fd.position : Int) ≠ state.bl.fileSize then content.length else fd.position
    let start := if fd.appending then content.length else sought
    let result := outcome.result buf.length
    let written := state.disk.set fd.target (some (patch content start (buf.take result.toNat)))
    if result = buf.length then
      (0,
        { bl :=
            { state.bl with
              fileWritePos := (start + buf.length : Nat)
              fd := some { fd with position := start + buf.length } }
          disk := written })
    else if result < 0 then
      (result,
        { state with bl := { state.bl with fd := some { fd with position := sought } } })
    else
      match outcome with
      | .short _ false => (binlogEinvalid, binlogInvalidate { state with disk := written })
      | _ => (binlogEincomplete, { state with disk := written })

/-- `binlog_open`. -/
def binlogOpen : Int × BinlogState :=
  match state.bl.fd with
  | some _ => (0, state)
  | none =>
    match state.bl.path with
    | none => (binlogEnopath, state)
    | some name =>
      if state.bl.isValid then
        (0,
          { bl := { state.bl with fd := some ⟨name, 0, true⟩ }
            disk := state.disk.set name (some ((state.disk.get name).getD [])) })
      else
        (0,
          { bl :=
              { state.bl with
                fileReadPos := 0
                fileWritePos := 0
                fileSize := 0
                fd := some ⟨name, 0, false⟩ }
            disk := state.disk.set name (some []) })

def zeroedBinlog (path : Option FileName) (maxMemSize : Nat) (maxFileSize : Int) : Binlog :=
  { cache := none
    writeIndex := 0
    readIndex := 0
    fileEntries := 0
    alloc := 0
    memSize := 0
    maxMemSize := maxMemSize
    memAvail := 0
    maxFileSize := maxFileSize
    fileSize := 0
    fileReadPos := 0
    fileWritePos := 0
    isValid := true
    shouldWarnIfFull := false
    path := path
    fileMetadataPath := false
    fileSavePath := false
    fd := none }

/-- `binlog_create`. -/
def binlogCreate
    (path : Option Bytes) (msize fsize : Nat) (unlinkFile : Bool) (disk : Disk) :
    Option BinlogState :=
  if fsize % 2 ^ 64 ≠ 0 ∧ path = none then
    none
  else if (path.elim 6 List.length) + 5 < 15 then
    none
  else
    let name := if fsize % 2 ^ 64 ≠ 0 then some FileName.log else none
    some
      { bl :=
          { zeroedBinlog name (msize % 2 ^ 64) (offT fsize) with
            shouldWarnIfFull := true
            fileMetadataPath := true
            fileSavePath := true }
        disk := if unlinkFile then disk.unlink name else disk }

/-- `binlog_full_warning`. -/
def binlogFullWarning : Bool × BinlogState :=
  (state.bl.shouldWarnIfFull,
    { state with bl := { state.bl with shouldWarnIfFull := false } })

/-- `binlog_grow`. -/
def binlogGrow (bl : Binlog) : Binlog :=
  let alloc := (bl.alloc + 16) * 3 % 2 ^ 32 / 2
  let slots := bl.cache.getD []
  { bl with
    alloc := alloc
    cache := some (slots.take alloc ++ List.replicate (alloc - slots.length) none) }

/-- `binlog_mem_add`. -/
def binlogMemAdd (bl : Binlog) (buf : Bytes) : Binlog :=
  let grown := if bl.alloc ≤ bl.writeIndex then binlogGrow bl else bl
  { grown with
    cache := grown.cache.map fun slots => slots.set grown.writeIndex (some buf)
    writeIndex := uint (grown.writeIndex + 1)
    memSize := uint (grown.memSize + (buf.length + entryOverhead))
    memAvail := uint (grown.memAvail + buf.length) }

/-- `binlog_file_add`, with its two writes. -/
def binlogFileAdd (buf : Bytes) (header body : WriteOutcome) :
    Int × BinlogState :=
  if state.bl.maxFileSize < state.bl.fileSize + buf.length then
    (binlogEnospc, state)
  else
    let opened := binlogOpen state
    if opened.1 < 0 then
      opened
    else
      let headed := safeWrite opened.2 (leBytes 4 buf.length) header
      if headed.1 ≠ 0 then
        headed
      else
        let bodied := safeWrite headed.2 buf body
        (bodied.1,
          { bodied.2 with
            bl :=
              { bodied.2.bl with
                fileSize := bodied.2.bl.fileSize + (buf.length + 4 : Nat)
                fileEntries := uint (bodied.2.bl.fileEntries + 1) } })

/-- `binlog_add`, with the writes it may make. -/
def binlogAddWrites (buf : Bytes) (header body : WriteOutcome) :
    Int × BinlogState :=
  if state.bl.isValid = false then
    (binlogEinvalid, state)
  else if state.bl.fd = none ∧ uint (state.bl.memSize + buf.length) < state.bl.maxMemSize then
    (0, { state with bl := binlogMemAdd state.bl buf })
  else
    binlogFileAdd state buf header body

/-- `binlog_add` with every write complete. -/
def binlogAdd (buf : Bytes) : Int × BinlogState :=
  binlogAddWrites state buf .full .full

/-- `binlog_mem_read`. -/
def binlogMemRead (bl : Binlog) : Except Int Bytes × Binlog :=
  let reset := { bl with readIndex := 0, writeIndex := 0 }
  match bl.cache with
  | none => (.error binlogEmpty, reset)
  | some slots =>
    if bl.writeIndex ≤ bl.readIndex then
      (.error binlogEmpty, reset)
    else
      match (slots[bl.readIndex]?).join with
      | none => (.error binlogEinvalid, reset)
      | some buf =>
        let taken :=
          { bl with
            cache := some (slots.set bl.readIndex none)
            readIndex := bl.readIndex + 1
            memAvail := uint (bl.memAvail + 2 ^ 32 - uint buf.length) }
        if taken.writeIndex ≤ taken.readIndex then
          (.ok buf, { taken with readIndex := 0, writeIndex := 0, memAvail := 0 })
        else
          (.ok buf, taken)

/-- `binlog_file_read`. -/
def binlogFileRead : Except Int Bytes × BinlogState :=
  if state.bl.fileSize ≤ state.bl.fileReadPos then
    let closed := binlogClose state
    (.error binlogEmpty,
      { bl :=
          { closed.bl with
            fileReadPos := 0
            fileWritePos := 0
            fileSize := 0
            fileEntries := 0 }
        disk := closed.disk.unlink closed.bl.path })
  else
    match state.bl.fd with
    | none => (.error (-1), state)
    | some fd =>
      let content := (state.disk.get fd.target).getD []
      let start := state.bl.fileReadPos.toNat
      let header := slice content start 4
      let length := leValue header
      let body := slice content (start + header.length) length
      let position := start + header.length + body.length
      (.ok (body ++ List.replicate (length - body.length) 0),
        { state with
          bl :=
            { state.bl with
              fileReadPos := position
              fileEntries := uint (state.bl.fileEntries + (2 ^ 32 - 1))
              fd := some { fd with position := position } } })

/-- `binlog_read`: memory first, then the file. -/
def binlogRead : Except Int Bytes × BinlogState :=
  if state.bl.isValid = false then
    (.error binlogEinvalid, state)
  else
    match binlogMemRead state.bl with
    | (.ok buf, bl) => (.ok buf, { state with bl := bl })
    | (.error _, bl) => binlogFileRead { state with bl := bl }

/-- `binlog_num_entries`. -/
def binlogNumEntries (bl : Binlog) : Nat :=
  let entries := if bl.fileSize ≠ 0 ∧ bl.fileReadPos < bl.fileSize then bl.fileEntries else 0
  if bl.cache.isSome ∧ bl.readIndex < bl.writeIndex then
    uint (entries + (bl.writeIndex - bl.readIndex))
  else
    entries

/-- `binlog_file_unread`. -/
def binlogFileUnread (bl : Binlog) (length : Nat) : Binlog :=
  { bl with
    fileReadPos := bl.fileReadPos - length
    fileEntries := uint (bl.fileEntries + 1) }

/-- `binlog_mem_unread`. -/
def binlogMemUnread (bl : Binlog) (buf : Bytes) : Int × Binlog :=
  match bl.cache with
  | none => (binlogEdropped, bl)
  | some slots =>
    if bl.isValid = false then
      (binlogEdropped, bl)
    else if bl.readIndex = 0 ∧ bl.writeIndex = 1 then
      (binlogEdropped, bl)
    else if bl.readIndex = 0 then
      (0,
        { bl with
          cache := some (slots.set 0 (some buf))
          writeIndex := 1
          memAvail := uint (bl.memAvail + buf.length) })
    else
      (0,
        { bl with
          cache := some (slots.set (bl.readIndex - 1) (some buf))
          readIndex := bl.readIndex - 1
          memAvail := uint (bl.memAvail + buf.length) })

/-- `binlog_unread`. -/
def binlogUnread (buf : Bytes) : Int × BinlogState :=
  if buf.length = 0 then
    (binlogEaddress, state)
  else if binlogNumEntries state.bl = 0 then
    binlogAdd state buf
  else
    let bl :=
      if (buf.length : Int) ≤ state.bl.fileReadPos then
        binlogFileUnread state.bl buf.length
      else
        state.bl
    let result := binlogMemUnread bl buf
    (result.1, { state with bl := result.2 })

end

def flushEntries : Nat → BinlogState → BinlogState
  | 0, state => state
  | count + 1, state =>
    let slot := ((state.bl.cache.getD [])[state.bl.readIndex]?).join
    let advanced := { state with bl := { state.bl with readIndex := state.bl.readIndex + 1 } }
    match slot with
    | none => flushEntries count advanced
    | some buf => flushEntries count (binlogFileAdd advanced buf .full .full).2

variable (state : BinlogState)

/-- `binlog_flush`. -/
def binlogFlush : BinlogState :=
  let flushed :=
    if state.bl.cache.isSome then
      flushEntries (state.bl.writeIndex - state.bl.readIndex) state
    else
      state
  { flushed with
    bl :=
      { flushed.bl with
        cache := none
        memSize := 0
        writeIndex := 0
        readIndex := 0
        alloc := 0 } }

/-- `binlog_wipe`. -/
def binlogWipe (unlinkFile : Bool) : BinlogState :=
  let flushed := if unlinkFile then state else binlogFlush state
  let closed := binlogClose flushed
  let disk :=
    if unlinkFile = false ∨ closed.bl.fileReadPos = closed.bl.fileWritePos then
      closed.disk.unlink closed.bl.path
    else
      closed.disk
  { bl := zeroedBinlog state.bl.path state.bl.maxMemSize state.bl.maxFileSize
    disk := disk }

/-- `binlog_write_file_metadata`. -/
def binlogWriteFileMetadata : Int × BinlogState :=
  let flushed := binlogFlush state
  if flushed.bl.fileMetadataPath then
    (0, { flushed with disk := { flushed.disk with metadata := some flushed.bl } })
  else
    (-1, flushed)

/-- `rename`; the open descriptor stays with its file. -/
def renameToSave : Int × BinlogState :=
  match state.bl.path with
  | none => (-1, state)
  | some name =>
    if state.bl.fileSavePath = false then
      (-1, state)
    else
      match state.disk.get name with
      | none => (-1, state)
      | some content =>
        (0,
          { bl :=
              { state.bl with
                fd := state.bl.fd.map fun fd =>
                  if fd.target = name then { fd with target := .save } else fd }
            disk := (state.disk.set name none).set .save (some content) })

/-- `binlog_save`. -/
def binlogSave : Int × BinlogState :=
  if 0 < binlogNumEntries state.bl then
    let dumped := binlogWriteFileMetadata state
    if dumped.1 ≠ 0 then
      (-1, dumped.2)
    else
      let renamed := renameToSave dumped.2
      if renamed.1 ≠ 0 then
        (-1, renamed.2)
      else
        (0, renamed.2)
  else
    (0, state)

/-- `binlog_get_saved`. -/
def binlogGetSaved (disk : Disk) : Option BinlogState × Disk :=
  match disk.metadata, disk.save with
  | none, _ => (none, disk)
  | some _, none => (none, { disk with metadata := none })
  | some dumped, some _ =>
    let bl := { dumped with fileMetadataPath := true, path := some .save, fd := none }
    let opened := (binlogOpen { bl := bl, disk := disk }).2
    let cleaned := { opened.disk with metadata := none }
    (some { opened with disk := cleaned }, cleaned)

end MonitorMerlin
