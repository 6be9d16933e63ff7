import MonitorMerlin.Binlog.Simulation
import MonitorMerlin.Packet

/-! # The backlog of a node -/

namespace MonitorMerlin

open ByteImage

structure BacklogConfig where
  path : Bytes
  maxMemorySize : Nat
  maxFileSize : Nat
  persist : Bool
  deriving DecidableEq, Repr

/-- `node_create_binlog`. -/
def nodeCreateBinlog
    (config : BacklogConfig) (binlog : Option Binlog) (disk : Disk) :
    Int × Option Binlog × Disk :=
  match binlog with
  | some bl => (0, some bl, disk)
  | none =>
    if config.path.length < 15 then
      (-1, none, disk)
    else
      match
        binlogCreate (some config.path) (config.maxMemorySize * 1024 * 1024)
          (config.maxFileSize * 1024 * 1024) true disk with
      | none => (-1, none, disk)
      | some state => (0, some state.bl, state.disk)

def BacklogConfig.fresh (config : BacklogConfig) : Binlog :=
  freshBinlog (config.maxMemorySize * 1024 * 1024) (config.maxFileSize * 1024 * 1024)

theorem nodeCreateBinlog_none (config : BacklogConfig) (disk : Disk) :
    nodeCreateBinlog config none disk =
      if config.path.length < 15 then (-1, none, disk)
      else (0, some config.fresh, disk.unlink config.fresh.path) := by
  rw [nodeCreateBinlog]
  split_ifs
  · rfl
  · rw [binlogCreate, if_neg (by simp), if_neg (by rw [Option.elim_some]; omega)]
    rfl

def readSavedLoop :
    (fuel : Nat) → (saved bl : Binlog) → Disk → Option (Bool × Binlog × Binlog × Disk)
  | 0, _, _, _ => none
  | fuel + 1, saved, bl, disk =>
    match binlogRead ⟨saved, disk⟩ with
    | (.error _, after) => some (true, after.bl, bl, after.disk)
    | (.ok pkt, after) =>
      if AcceptsEntry pkt then
        let added := (binlogAdd ⟨bl, after.disk⟩ pkt).2
        readSavedLoop fuel after.bl added.bl added.disk
      else
        some (false, after.bl, bl, after.disk)

/-- `node_binlog_read_saved`. -/
def nodeBinlogReadSaved
    (fuel : Nat) (config : BacklogConfig) (binlog : Option Binlog) (disk : Disk) :
    Option (Int × Option Binlog × Disk) :=
  if config.persist = false then
    some (0, binlog, disk)
  else
    match nodeCreateBinlog config binlog disk with
    | (0, some bl, disk) =>
      match binlogGetSaved disk with
      | (none, disk) => some (0, some bl, disk)
      | (some saved, _) =>
        match readSavedLoop fuel saved.bl bl saved.disk with
        | none => none
        | some (true, saved, bl, disk) => some (0, some bl, (binlogWipe ⟨saved, disk⟩ true).disk)
        | some (false, _, bl, disk) => some (-1, none, (binlogWipe ⟨bl, disk⟩ true).disk)
    | (_, binlog, disk) => some (-1, binlog, disk)

end MonitorMerlin
