import Mathlib.Data.BitVec
import Mathlib.Data.List.Basic

/-! # Nodes with a common address -/

namespace MonitorMerlin

open List

universe u

variable {ι : Type u}

structure TableNode (ι : Type u) where
  name : ι
  address : BitVec 32
  port : BitVec 16
  validUuid : Bool
  fixedSrcport : Bool
  deriving DecidableEq

/-- `net_source_port`. -/
def netSourcePort (defaultPort : BitVec 16) (node : TableNode ι) : BitVec 16 :=
  node.port + defaultPort

def findNodeFrom (defaultPort : BitVec 16) (address : BitVec 32) (port : BitVec 16) :
    Option (TableNode ι) → List (TableNode ι) → Option (TableNode ι)
  | first, [] => first
  | first, node :: nodes =>
    if node.address = address ∧ node.validUuid = false then
      if port = netSourcePort defaultPort node then
        some node
      else if first.isNone ∧ node.fixedSrcport = false then
        findNodeFrom defaultPort address port (some node) nodes
      else
        findNodeFrom defaultPort address port first nodes
    else
      findNodeFrom defaultPort address port first nodes

/-- `find_node`. -/
def findNode (defaultPort : BitVec 16) (nodeTable : List (TableNode ι)) (address : BitVec 32)
    (port : BitVec 16) : Option (TableNode ι) :=
  findNodeFrom defaultPort address port none nodeTable

def connectPort (defaultPort anyPort : BitVec 16) (node : TableNode ι) : BitVec 16 :=
  if node.fixedSrcport ∧ netSourcePort defaultPort node ≠ 0 then
    netSourcePort defaultPort node
  else
    anyPort

structure SharedAddress (ι : Type u) where
  address : BitVec 32
  port : ι → BitVec 16
  distinct : Function.Injective port
  noWrap : ∀ first second, first ≠ second → port first + port second ≠ 0
  nodeTable : ι → List (TableNode ι)
  configured : ∀ own other, own ≠ other →
    ⟨other, address, port other, false, true⟩ ∈ nodeTable own
  others : ∀ own, ∀ node ∈ nodeTable own, node.address = address → node.validUuid = false →
    node = ⟨node.name, address, port node.name, false, true⟩

namespace SharedAddress

variable (shared : SharedAddress ι)

def entry (name : ι) : TableNode ι := ⟨name, shared.address, shared.port name, false, true⟩

theorem findNodeFrom_eq {table : List (TableNode ι)} {own other : ι}
    (configured : shared.entry other ∈ table)
    (others : ∀ node ∈ table, node.address = shared.address → node.validUuid = false →
      node = shared.entry node.name) :
    findNodeFrom (shared.port own) shared.address (shared.port own + shared.port other) none table =
      some (shared.entry other) := by
  induction table with
  | nil => cases configured
  | cons node table ih =>
    have goesOn (notNode : node ≠ shared.entry other) :
        findNodeFrom (shared.port own) shared.address (shared.port own + shared.port other) none
          table = some (shared.entry other) :=
      ih ((mem_cons.mp configured).resolve_left (Ne.symm notNode))
        fun node member => others node (mem_cons_of_mem _ member)
    rw [findNodeFrom]
    split_ifs with here matched unfixed
    · have isEntry := others node mem_cons_self here.1 here.2
      rw [isEntry, netSourcePort, BitVec.add_comm, BitVec.add_left_inj] at matched
      rw [isEntry, ← shared.distinct matched]
    · have isEntry := others node mem_cons_self here.1 here.2
      rw [isEntry] at unfixed
      cases unfixed.2
    · apply goesOn
      rintro rfl
      exact matched (BitVec.add_comm _ _)
    · apply goesOn
      rintro rfl
      exact here ⟨rfl, rfl⟩

/-- `find_node` gives the node that a connection is from. -/
theorem findNode_connectPort {own other : ι} (different : own ≠ other) (anyPort : BitVec 16) :
    findNode (shared.port own) (shared.nodeTable own) shared.address
        (connectPort (shared.port other) anyPort (shared.entry own)) =
      some (shared.entry other) := by
  rw [findNode, connectPort, if_pos ⟨rfl, shared.noWrap own other different⟩]
  exact shared.findNodeFrom_eq (shared.configured own other different) (shared.others own)

end SharedAddress

def twoInstances : SharedAddress Bool where
  address := 1
  port := fun name => if name then 15551 else 15552
  distinct := by decide
  noWrap := by decide
  nodeTable := fun own => [⟨!own, 1, if own then 15552 else 15551, false, true⟩]
  configured := by decide
  others := by decide

theorem findNode_twoInstances :
    findNode 15551 (twoInstances.nodeTable true) 1
        (connectPort 15552 40000 (twoInstances.entry true)) =
      some (twoInstances.entry false) :=
  twoInstances.findNode_connectPort (by decide : true ≠ false) 40000

end MonitorMerlin
