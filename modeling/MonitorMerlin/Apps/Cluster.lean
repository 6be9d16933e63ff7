import MonitorMerlin.Node.Compat
import MonitorMerlin.Pgroup.SameGroup

/-! # Updates of a cluster -/

namespace MonitorMerlin

open List

structure ShownNode where
  type : NodeType
  address : Option (List Char)
  port : Option (List Char)
  hostgroup : Option (List Char)

/-- What `parse_mon_node_show` returns. -/
abbrev ClusterInfo := List (List Char × Option ShownNode)

def clusterKeys (info : ClusterInfo) : List (List Char) := info.map Prod.fst

def setEmpty (name : List Char) (info : ClusterInfo) : ClusterInfo :=
  (name, none) :: info.filter fun entry => entry.1 ≠ name

structure ClusterTool where
  pollerName : List Char
  masterName : List Char
  pollerHostgroups : List (List Char)
  isspace : Char → Bool

structure UpdateRun where
  added : List (List Char)
  removed : List (List Char)
  restarted : Bool

namespace ClusterTool

variable (tool : ClusterTool)

/-- The nodes that the first loop of `update` adds. -/
def adds (node : ShownNode) : Bool :=
  match node.type with
  | .peer => true
  | .poller => node.hostgroup.any fun hostgroup =>
      parseHostgroups tool.isspace hostgroup == tool.pollerHostgroups
  | .master => false

def complete (node : ShownNode) : Bool :=
  match node.type with
  | .peer => node.address.isSome && node.port.isSome
  | .poller => node.hostgroup.isSome && (!tool.adds node || node.address.isSome)
  | .master => true

variable (localInfo remoteInfo : ClusterInfo)

def nodesToAdd : ClusterInfo :=
  (setEmpty tool.masterName remoteInfo).filter fun entry =>
    !(clusterKeys (setEmpty tool.pollerName localInfo)).contains entry.1

def nodesToRemove : ClusterInfo :=
  (setEmpty tool.pollerName localInfo).filter fun entry =>
    !(clusterKeys (setEmpty tool.masterName remoteInfo)).contains entry.1

/-- `update`; a missing key is an exception. -/
def update : Option UpdateRun :=
  let nodesToAdd := tool.nodesToAdd localInfo remoteInfo
  let nodesToRemove := tool.nodesToRemove localInfo remoteInfo
  if nodesToAdd = [] ∧ nodesToRemove = [] then
    some ⟨[], [], false⟩
  else if nodesToAdd.all (fun entry => entry.2.any tool.complete) &&
      nodesToRemove.all (fun entry => entry.2.isSome) then
    some ⟨clusterKeys (nodesToAdd.filter fun entry => entry.2.any tool.adds),
      clusterKeys nodesToRemove, true⟩
  else
    none

def Configured (run : UpdateRun) (later : ClusterInfo) : Prop :=
  ∀ name, name ∈ clusterKeys later ↔
    name ∈ clusterKeys localInfo ∧ name ∉ run.removed ∨ name ∈ run.added

variable {tool localInfo remoteInfo}

private theorem mem_keys_setEmpty {name key : List Char} {info : ClusterInfo} :
    key ∈ clusterKeys (setEmpty name info) ↔ key = name ∨ key ∈ clusterKeys info := by
  by_cases same : key = name
  · simp [clusterKeys, setEmpty, same]
  · simp [clusterKeys, setEmpty, same]

private theorem mem_keys_filter {key : List Char} {info : ClusterInfo} {keys : List (List Char)} :
    key ∈ clusterKeys (info.filter fun entry => !keys.contains entry.1) ↔
      key ∈ clusterKeys info ∧ key ∉ keys := by
  simp only [clusterKeys, mem_map, mem_filter, Bool.not_eq_true', ← Bool.not_eq_true,
    contains_iff_mem]
  constructor
  · rintro ⟨entry, ⟨member, new⟩, rfl⟩
    exact ⟨⟨entry, member, rfl⟩, new⟩
  · rintro ⟨⟨entry, member, rfl⟩, new⟩
    exact ⟨entry, ⟨member, new⟩, rfl⟩

private theorem filter_keys_eq_nil_iff {info : ClusterInfo} {keys : List (List Char)} :
    (info.filter fun entry => !keys.contains entry.1) = [] ↔
      ∀ key ∈ clusterKeys info, key ∈ keys := by
  rw [filter_eq_nil_iff]
  simp only [clusterKeys, forall_mem_map, Bool.not_eq_true', Bool.not_eq_false, contains_iff_mem]

private theorem update_quiet_iff :
    tool.update localInfo remoteInfo = some ⟨[], [], false⟩ ↔
      ∀ key, (key = tool.pollerName ∨ key ∈ clusterKeys localInfo) ↔
        (key = tool.masterName ∨ key ∈ clusterKeys remoteInfo) := by
  have empty : tool.nodesToAdd localInfo remoteInfo = [] ∧
        tool.nodesToRemove localInfo remoteInfo = [] ↔
      ∀ key, (key = tool.pollerName ∨ key ∈ clusterKeys localInfo) ↔
        (key = tool.masterName ∨ key ∈ clusterKeys remoteInfo) := by
    rw [nodesToAdd, filter_keys_eq_nil_iff, nodesToRemove, filter_keys_eq_nil_iff]
    simp only [mem_keys_setEmpty]
    exact ⟨fun both key => ⟨both.2 key, both.1 key⟩,
      fun same => ⟨fun key => (same key).mpr, fun key => (same key).mp⟩⟩
  rw [← empty, update]
  split_ifs with quiet complete
  · simp [quiet]
  · simp [quiet]
  · simp [quiet]

section Run

variable {run : UpdateRun} (ran : tool.update localInfo remoteInfo = some run)

include ran

private theorem mem_of_update :
    (∀ entry ∈ tool.nodesToAdd localInfo remoteInfo, entry.2 ≠ none) ∧
      (∀ entry ∈ tool.nodesToRemove localInfo remoteInfo, entry.2 ≠ none) ∧
      run.added = clusterKeys ((tool.nodesToAdd localInfo remoteInfo).filter fun entry =>
        entry.2.any tool.adds) ∧
      run.removed = clusterKeys (tool.nodesToRemove localInfo remoteInfo) := by
  rw [update] at ran
  split_ifs at ran with quiet complete
  · cases ran
    rw [quiet.1, quiet.2]
    simp [clusterKeys]
  · rw [Bool.and_eq_true, all_eq_true, all_eq_true] at complete
    cases ran
    refine ⟨fun entry member isNone => ?_, fun entry member isNone => ?_, rfl, rfl⟩
    · have found := complete.1 entry member
      rw [isNone] at found
      cases found
    · have found := complete.2 entry member
      rw [isNone] at found
      cases found

private theorem masterName_known :
    tool.masterName = tool.pollerName ∨ tool.masterName ∈ clusterKeys localInfo := by
  rw [← mem_keys_setEmpty]
  by_contra new
  exact (mem_of_update ran).1 (tool.masterName, none)
    (mem_filter.mpr ⟨mem_cons_self, by simpa using new⟩) rfl

private theorem pollerName_known :
    tool.pollerName = tool.masterName ∨ tool.pollerName ∈ clusterKeys remoteInfo := by
  rw [← mem_keys_setEmpty]
  by_contra new
  exact (mem_of_update ran).2.1 (tool.pollerName, none)
    (mem_filter.mpr ⟨mem_cons_self, by simpa using new⟩) rfl

variable {key : List Char}

private theorem remote_of_mem_added (member : key ∈ run.added) :
    key = tool.masterName ∨ key ∈ clusterKeys remoteInfo := by
  obtain ⟨-, -, isAdded, -⟩ := mem_of_update ran
  rw [isAdded] at member
  have isNew := (filter_sublist.map Prod.fst).subset member
  exact mem_keys_setEmpty.mp (mem_keys_filter.mp isNew).1

variable (distinct : (clusterKeys remoteInfo).Nodup)

include distinct

private theorem mem_added_iff {entry : List Char × Option ShownNode} (member : entry ∈ remoteInfo)
    (notMaster : entry.1 ≠ tool.masterName) :
    entry.1 ∈ run.added ↔
      ¬ (entry.1 = tool.pollerName ∨ entry.1 ∈ clusterKeys localInfo) ∧
        entry.2.any tool.adds = true := by
  obtain ⟨-, -, isAdded, -⟩ := mem_of_update ran
  rw [isAdded, clusterKeys, mem_map, ← mem_keys_setEmpty]
  constructor
  · rintro ⟨other, isOther, same⟩
    obtain ⟨isNew, isAdded⟩ := mem_filter.mp isOther
    obtain ⟨isRemote, new⟩ := mem_filter.mp isNew
    have inRemote : other ∈ remoteInfo := by
      rcases mem_cons.mp isRemote with rfl | later
      · exact absurd same.symm notMaster
      · exact (mem_filter.mp later).1
    obtain rfl := inj_on_of_nodup_map distinct inRemote member same
    exact ⟨by simpa using new, isAdded⟩
  · rintro ⟨new, isAdded⟩
    have inRemote : entry ∈ setEmpty tool.masterName remoteInfo :=
      mem_cons_of_mem _ (mem_filter.mpr ⟨member, by simpa using notMaster⟩)
    exact ⟨entry, mem_filter.mpr ⟨mem_filter.mpr ⟨inRemote, by simpa using new⟩, isAdded⟩, rfl⟩

end Run

/-- A run is the last one that does anything when all new nodes are peers of the master
or pollers with the same hostgroups in the same order. -/
theorem update_converges_iff {run : UpdateRun} {later : ClusterInfo}
    (distinct : (clusterKeys remoteInfo).Nodup)
    (ran : tool.update localInfo remoteInfo = some run)
    (configured : Configured localInfo run later) :
    tool.update later remoteInfo = some ⟨[], [], false⟩ ↔
      ∀ entry ∈ remoteInfo, entry.1 ≠ tool.masterName → entry.1 ≠ tool.pollerName →
        entry.1 ∉ clusterKeys localInfo → entry.2.any tool.adds = true := by
  rw [update_quiet_iff]
  constructor
  · intro same entry member notMaster notPoller new
    have inLater := ((same entry.1).mpr (.inr (mem_map_of_mem member))).resolve_left notPoller
    have isNew := ((configured entry.1).mp inLater).resolve_left fun kept => new kept.1
    exact ((mem_added_iff ran distinct member notMaster).mp isNew).2
  · intro addsAll key
    obtain ⟨-, -, -, isRemoved⟩ := mem_of_update ran
    rw [configured key, isRemoved, nodesToRemove, mem_keys_filter, mem_keys_setEmpty,
      mem_keys_setEmpty]
    constructor
    · rintro (rfl | ⟨_, kept⟩ | isNew)
      · exact pollerName_known ran
      · tauto
      · exact remote_of_mem_added ran isNew
    · intro isRemote
      by_cases known : key = tool.pollerName ∨ key ∈ clusterKeys localInfo
      · tauto
      · have notMaster : key ≠ tool.masterName := by
          rintro rfl
          exact known (masterName_known ran)
        obtain ⟨entry, member, rfl⟩ := mem_map.mp (isRemote.resolve_left notMaster)
        obtain ⟨notPoller, new⟩ := not_or.mp known
        exact .inr (.inr ((mem_added_iff ran distinct member notMaster).mpr
          ⟨known, addsAll entry member notMaster notPoller new⟩))

end ClusterTool

def onePoller : ClusterTool := ⟨['p'], ['m'], [['g']], fun char => char == ' '⟩

def shownPoller (hostgroup : Char) : ShownNode :=
  ⟨.poller, some ['1'], some ['2'], some [hostgroup]⟩

theorem update_converges_sameGroup :
    onePoller.update [(['m'], some ⟨.master, none, none, none⟩), (['q'], some (shownPoller 'g'))]
        [(['p'], some (shownPoller 'g')), (['q'], some (shownPoller 'g'))] =
      some ⟨[], [], false⟩ := by
  have ran : onePoller.update [(['m'], some ⟨.master, none, none, none⟩)]
      [(['p'], some (shownPoller 'g')), (['q'], some (shownPoller 'g'))] =
        some ⟨[['q']], [], true⟩ := rfl
  apply (ClusterTool.update_converges_iff (by decide) ran ?_).mpr (by decide)
  simp [ClusterTool.Configured, clusterKeys]

theorem update_again_otherGroup :
    onePoller.update [(['m'], some ⟨.master, none, none, none⟩)]
          [(['p'], some (shownPoller 'g')), (['q'], some (shownPoller 'h'))] =
        some ⟨[], [], true⟩ ∧
      ClusterTool.Configured [(['m'], some ⟨.master, none, none, none⟩)] ⟨[], [], true⟩
        [(['m'], some ⟨.master, none, none, none⟩)] :=
  ⟨rfl, by simp [ClusterTool.Configured]⟩

end MonitorMerlin
