import Mathlib.Data.List.Infix
import MonitorMerlin.Packet

/-! # What a node says about itself -/

namespace MonitorMerlin

open ByteImage MachineInt

inductive NodeType where
  | master
  | peer
  | poller
  deriving DecidableEq, Repr

/-- `sizeof(merlin_nodeinfo)`. -/
def nodeinfoSize : Nat := 100

def infoVersion (info : Bytes) : Nat := leValue (slice info 0 4)
def infoWordSize (info : Bytes) : Nat := leValue (slice info 4 4)
def infoByteOrder (info : Bytes) : Nat := leValue (slice info 8 4)
def infoObjectStructureVersion (info : Bytes) : Nat := leValue (slice info 12 4)
def infoStartSec (info : Bytes) : Int := toInt64 (leValue (slice info 16 8))
def infoStartUsec (info : Bytes) : Int := toInt64 (leValue (slice info 24 8))
def infoLastCfgChange (info : Bytes) : Int := toInt64 (leValue (slice info 32 8))
def infoConfigHash (info : Bytes) : Bytes := slice info 40 20
def infoConfiguredPeers (info : Bytes) : Nat := leValue (slice info 68 4)
def infoConfiguredPollers (info : Bytes) : Nat := leValue (slice info 76 4)
def infoConfiguredMasters (info : Bytes) : Nat := leValue (slice info 84 4)

structure BuildInfo where
  wordSize : Nat
  byteOrder : Nat
  objectStructureVersion : Nat
  deriving DecidableEq, Repr

structure Expected where
  nodeType : NodeType
  lastCfgChange : Int
  configHash : Bytes
  fetchCmd : Option Bytes
  totalNodes : Nat
  deriving DecidableEq, Repr

def esyncEversion : Int := -2
def esyncEwordsize : Int := -3
def esyncEendian : Int := -4
def esyncEobjects : Int := -5
def esyncEproto : Int := -7
def esyncEnodes : Int := -9

/-- `node_compat_cmp`. -/
def nodeCompatCmp (build : BuildInfo) (len : Nat) (info : Bytes) : Int :=
  if len < nodeinfoSize then
    esyncEproto
  else if toInt (infoVersion info + (2 ^ 32 - 1)) < 0 then
    esyncEversion
  else if infoWordSize info ≠ build.wordSize then
    esyncEwordsize
  else if infoByteOrder info ≠ build.byteOrder then
    esyncEendian
  else if infoObjectStructureVersion info ≠ build.objectStructureVersion then
    esyncEobjects
  else
    0

/-- `node_mconf_cmp`. -/
def nodeMconfCmp (expected : Expected) (ipc info : Bytes) : Int :=
  let agrees : Bool :=
    match expected.nodeType with
    | .peer =>
      infoConfiguredPeers info = infoConfiguredPeers ipc &&
        infoConfiguredMasters info = infoConfiguredMasters ipc &&
          infoConfiguredPollers info = infoConfiguredPollers ipc
    | .poller =>
      infoConfiguredMasters info = (infoConfiguredPeers ipc + 1) % 2 ^ 32 &&
        infoConfiguredPeers info = (expected.totalNodes + (2 ^ 32 - 1)) % 2 ^ 32
    | .master => infoConfiguredPeers info = (infoConfiguredMasters ipc + (2 ^ 32 - 1)) % 2 ^ 32
  if agrees then 0 else esyncEnodes

def monOconfFetch : Bytes := [109, 111, 110, 32, 111, 99, 111, 110, 102, 32, 102, 101, 116, 99, 104]

def fetchesConfig (cmd : Option Bytes) : Bool :=
  match cmd with
  | none => false
  | some text => text ≠ [110, 111] && decide (monOconfFetch <:+: text)

/-- `node_oconf_cmp`. -/
def nodeOconfCmp (expected : Expected) (ipc info : Bytes) : Int :=
  let tdelta := truncateInt (infoLastCfgChange info - expected.lastCfgChange)
  match expected.nodeType with
  | .master =>
    if fetchesConfig expected.fetchCmd then
      if 0 < tdelta then 1 else if tdelta < 0 then -1 else 0
    else
      0
  | nodeType =>
    if infoConfigHash info = expected.configHash then
      0
    else if tdelta ≠ 0 then
      tdelta
    else if nodeType = .poller then
      -1
    else if infoStartSec ipc < infoStartSec info then
      -1
    else if infoStartSec info < infoStartSec ipc then
      1
    else if infoStartUsec ipc ≤ infoStartUsec info then
      -1
    else
      1

end MonitorMerlin
