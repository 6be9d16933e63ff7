import MonitorMerlin.Module.Configured

/-! # Numbers of checks and responsibility -/

namespace MonitorMerlin

open Tally
open List hiding Disjoint

universe u

variable {ι : Type u}

section Right

variable [DecidableEq ι]

/-- The numbers of checks are right for every node. -/
def LoadRight (config : ModuleConfig ι) (module : ModuleState ι) : Prop :=
  ∀ node ∈ config.members .ipc ++ config.pollers, ∀ kind : ObjectKind,
    load kind module node =
      if IsActive config module node then (responsibility kind config module node : Int) else 0

def Idle (config : ModuleConfig ι) (active : ι → Prop) (node : ι) : Prop :=
  (node ∈ config.peers ∧ ¬ active node) ∨
    ∃ spec ∈ config.pollerGroups, node ∈ spec.nodes ∧ ∀ other ∈ spec.nodes, ¬ active other

def Unextended (config : ModuleConfig ι) (module : ModuleState ι) : Prop :=
  ∀ poller ∈ config.pollers, ∀ kind : ObjectKind, kind.count (module.extra poller) = 0

variable {config : ModuleConfig ι} {qsort : Sorting.Sorter (PeerNode ι)}
  {module after : ModuleState ι} {node : ι}

theorem responsibility_onlyLoad (onlyLoad : OnlyLoad module after) (kind : ObjectKind) :
    responsibility kind config after node = responsibility kind config module node := by
  cases module
  cases after
  rcases onlyLoad with ⟨rfl, rfl, rfl, _, rfl, rfl, _⟩
  rfl

section

variable (arranged : Arranged config none module)

include arranged

theorem activeNodes_eq_zero_iff {group : PollerGroup ι × GroupState ι}
    (member : group ∈ pairs config module) :
    group.2.activeNodes = 0 ↔ ∀ other ∈ group.1.nodes, ¬ IsActive config module other := by
  obtain ⟨index, spec, state⟩ := mem_pairs.mp member
  rw [(arranged.sortedAt state).count, countP_eq_zero]
  simp only [arranged.mem_groupNodes_iff member, decide_eq_true_eq]

theorem load_eq_responsibility (tables : ∀ kind, TablesFor kind config)
    (unextended : Unextended config module)
    (counts : module.state config.me = .connected ∨ ∀ kind, takenOver kind config module = ∅)
    (member : node ∈ config.members .ipc ++ config.pollers) (active : IsActive config module node)
    (kind : ObjectKind) :
    load kind (pgroupReassignChecks config module) node =
      responsibility kind config module node := by
  rcases mem_append.mp member with own | inPollers
  · rw [load, reassign_extra arranged, if_pos ⟨own, active⟩, reassign_current_of_ipc arranged own,
      resetNodes_current arranged, if_pos ⟨own, active⟩, kind.count_tableCell _ ObjectTables.assign,
      responsibility_of_active arranged (tables kind) own active, Nat.cast_add]
    congr 1
    by_cases connected : module.state node = .connected
    · rw [if_pos connected]
    · have isLocal : node = config.me := active.resolve_right connected
      have within := arranged.ipcSorted.peerId_lt
        ((arranged.members .ipc _ rfl).mem_iff.mpr own) active
      rw [isLocal] at connected
      rw [if_neg (isLocal ▸ connected), inherited_eq arranged (tables kind) within,
        counts.resolve_left connected kind, share_empty]
      rfl
  · obtain ⟨group, pair, inGroup⟩ := arranged.exists_group inPollers
    have connected : module.state node = .connected := by
      apply active.resolve_left
      rintro rfl
      exact me_not_mem_nodesOf config .poller inPollers
    have alive : group.2.activeNodes ≠ 0 := by
      rw [Ne, activeNodes_eq_zero_iff arranged pair]
      exact fun none => none node ((arranged.mem_groupNodes_iff pair).mp inGroup) active
    rw [load_of_poller arranged pair inGroup, if_neg alive, if_neg (not_not.mpr connected),
      unextended node inPollers kind, Int.add_zero,
      responsibility_of_poller arranged (tables kind) pair inGroup active]

theorem load_eq_zero_iff (unextended : Unextended config module) :
    (∀ node ∈ config.members .ipc ++ config.pollers, ¬ IsActive config module node →
        ∀ kind : ObjectKind, load kind (pgroupReassignChecks config module) node = 0) ↔
      ∀ node, Idle config (IsActive config module) node →
        ∀ kind : ObjectKind, load kind module node = 0 := by
  constructor
  · rintro zero node (⟨inPeers, inactive⟩ | ⟨spec, isSpec, inSpec, none⟩) kind
    · have own : node ∈ config.members .ipc := mem_cons_of_mem _ inPeers
      rw [← load_of_inactive arranged own inactive]
      exact zero node (mem_append_left _ own) inactive kind
    · have inPollers : node ∈ config.pollers := mem_flatMap.mpr ⟨spec, isSpec, inSpec⟩
      have isZero := zero node (mem_append_right _ inPollers) (none node inSpec) kind
      obtain ⟨index, state, found, isState, pair⟩ := arranged.exists_pair isSpec
      rw [load_of_poller arranged pair ((arranged.mem_groupNodes_iff pair).mpr inSpec),
        if_pos ((activeNodes_eq_zero_iff arranged pair).mpr none)] at isZero
      exact isZero
  · intro zero node member inactive kind
    rcases mem_append.mp member with own | inPollers
    · rw [load_of_inactive arranged own inactive]
      apply zero node (.inl ⟨_, inactive⟩) kind
      exact (mem_cons.mp own).resolve_left fun isLocal => inactive (.inl isLocal)
    · obtain ⟨group, pair, inGroup⟩ := arranged.exists_group inPollers
      obtain ⟨index, spec, _⟩ := mem_pairs.mp pair
      rw [load_of_poller arranged pair inGroup]
      by_cases dead : group.2.activeNodes = 0
      · rw [if_pos dead]
        apply zero node (.inr ⟨group.1, mem_of_getElem? spec, _, _⟩) kind
        · exact (arranged.mem_groupNodes_iff pair).mp inGroup
        · exact (activeNodes_eq_zero_iff arranged pair).mp dead
      · have unconnected : module.state node ≠ .connected := fun connected =>
          inactive (.inr connected)
        rw [if_neg dead, if_pos unconnected, unextended node inPollers kind, Int.add_zero]

theorem reassign_loadRight_iff (tables : ∀ kind, TablesFor kind config)
    (unextended : Unextended config module)
    (counts : module.state config.me = .connected ∨ ∀ kind, takenOver kind config module = ∅) :
    LoadRight config (pgroupReassignChecks config module) ↔
      ∀ node, Idle config (IsActive config module) node →
        ∀ kind : ObjectKind, load kind module node = 0 := by
  have onlyLoad := pgroupReassignChecks_onlyLoad config module
  have sameActive (other : ι) :
      IsActive config (pgroupReassignChecks config module) other ↔
        IsActive config module other := by
    rw [IsActive, onlyLoad.state, IsActive]
  rw [← load_eq_zero_iff arranged unextended]
  unfold LoadRight
  simp only [sameActive, responsibility_onlyLoad onlyLoad]
  constructor
  · intro right node member inactive kind
    rw [right node member kind, if_neg inactive]
  · intro zero node member kind
    split_ifs with active
    · exact load_eq_responsibility arranged tables unextended counts member active kind
    · exact zero node member active kind

end

theorem pgroupAssign_sorted (sortsWell : SortsWell qsort module) {ref : GroupRef}
    {group : GroupState ι} (arranged : Arranged config (some ref) module)
    (found : module.groupAt ref = some group) :
    ∃ sorted, Arranged config none sorted ∧
      pgroupAssign config qsort module (some ref) = pgroupReassignChecks config sorted ∧
      sorted.state = module.state ∧ sorted.current = module.current ∧
      sorted.extra = module.extra := by
  refine ⟨_, arranged.setGroup (sortsWell.activeFirst group) found, pgroupAssign_eq found, ?_⟩
  cases ref <;> exact ⟨rfl, rfl, rfl⟩

theorem moduleRun_unextended (config : ModuleConfig ι) (qsort : Sorting.Sorter (PeerNode ι))
    (ipcState : NodeState) {ipcStart : Timeval} (ipcFits : ipcStart.Bounded)
    {calls : List (ModuleCall ι)} (fits : ∀ call ∈ calls, call.Fits) :
    Unextended config (moduleRun config qsort ipcState ipcStart calls) := by
  apply moduleRun_keeps_counts _ _ (fun _ _ kind => kind.count_zero) (.inr ⟨ipcFits, fits⟩)
  · intro module after unextended extra _
    rwa [Unextended, extra]
  · intro module arranged unextended poller inPollers kind
    rw [reassign_extra arranged, if_neg fun both => not_mem_pollers both.1 inPollers]
    exact unextended poller inPollers kind

end Right

section Configured

def TakeoverCounted (config : ModuleConfig ι) (module : ModuleState ι) (active : ι → Prop) : Prop :=
  module.state config.me = .connected ∨
    ∀ spec ∈ config.pollerGroups, spec.takeover = true →
      (∃ node ∈ spec.nodes, active node) ∨ spec.tables.hosts.map = ∅

namespace Configured

variable {config : ModuleConfig ι} {objects : ObjectConfig} {specs : List GroupSpec}
  {mapped : Mapped} [DecidableEq ι] {module : ModuleState ι} {qsort : Sorting.Sorter (PeerNode ι)}

theorem takenOver_eq_empty
    (configured : Configured config objects specs mapped) (arranged : Arranged config none module)
    (counted : ∀ spec ∈ config.pollerGroups, spec.takeover = true →
      (∃ node ∈ spec.nodes, IsActive config module node) ∨ spec.tables.hosts.map = ∅)
    (kind : ObjectKind) : takenOver kind config module = ∅ := by
  apply Finset.eq_empty_of_forall_notMem
  intro object inTaken
  obtain ⟨group, pair, taken, inMap⟩ := mem_takenOver.mp inTaken
  obtain ⟨index, found, _⟩ := mem_pairs.mp pair
  obtain ⟨_, _, _, memberLists, mapsTo⟩ := configured.mapsTo found
  rcases counted group.1 (mem_of_getElem? found) taken.2 with ⟨node, inSpec, active⟩ | noHosts
  · exact (activeNodes_eq_zero_iff arranged pair).mp taken.1 node inSpec active
  · cases kind with
    | host =>
      rw [ObjectKind.tables, noHosts] at inMap
      exact Finset.notMem_empty object inMap
    | service =>
      rw [ObjectKind.tables, mapsTo.servicesMap, noHosts] at inMap
      exact Finset.notMem_empty object inMap

theorem assign_loadRight_iff (configured : Configured config objects specs mapped)
    (tables : ∀ kind, TablesFor kind config) {ref : GroupRef} {group : GroupState ι}
    (arranged : Arranged config (some ref) module) (sortsWell : SortsWell qsort module)
    (found : module.groupAt ref = some group) (unextended : Unextended config module)
    (counted : TakeoverCounted config module (IsActive config module)) :
    LoadRight config (pgroupAssign config qsort module (some ref)) ↔
      ∀ node, Idle config (IsActive config module) node →
        ∀ kind : ObjectKind, load kind module node = 0 := by
  obtain ⟨sorted, sortedBalanced, isSorted, sameState, sameCurrent, sameExtra⟩ :=
    pgroupAssign_sorted sortsWell arranged found
  have sameActive : IsActive config sorted = IsActive config module := by
    funext node
    rw [IsActive, sameState, IsActive]
  have counts : sorted.state config.me = .connected ∨ ∀ kind, takenOver kind config sorted = ∅ := by
    rcases counted with connected | nothing
    · exact .inl (sameState ▸ connected)
    · rw [← sameActive] at nothing
      exact .inr (configured.takenOver_eq_empty sortedBalanced nothing)
  rw [isSorted, reassign_loadRight_iff sortedBalanced tables _ counts, sameActive]
  · simp only [load, sameCurrent, sameExtra]
  · rw [Unextended, sameExtra]
    exact unextended

end Configured

end Configured

section Runs

variable [DecidableEq ι]

def ActiveAfter (config : ModuleConfig ι) (module : ModuleState ι) (changed node : ι) : Prop :=
  if node = changed then ¬ IsActive config module node else IsActive config module node

instance ActiveAfter.decidable (config : ModuleConfig ι) (module : ModuleState ι)
    (changed node : ι) : Decidable (ActiveAfter config module changed node) :=
  inferInstanceAs (Decidable (ite _ _ _))

/-- The numbers are right at first, and after a call that connects or disconnects a node
exactly if the nodes whose numbers are not written had none. -/
theorem moduleRun_load
    (config : ModuleConfig ι) (qsort : Sorting.Sorter (PeerNode ι)) (objects : ObjectConfig)
    (specs : List GroupSpec) (mapped : Mapped)
    (configured : Configured config objects specs mapped)
    (disjoint : (mapped.groups.map fun pg => pg.hosts.map).Pairwise Disjoint)
    (lastOnly : ∀ spec ∈ specs, ∀ name ∈ spec.hostgroups.dropLast, objects.hostgroup name = some [])
    (ipcState : NodeState) (ipcStart : Timeval) (ipcFits : ipcStart.Bounded) :
    ((ipcState = .connected ∨ ∀ spec ∈ config.pollerGroups, spec.takeover = true →
        spec.tables.hosts.map = ∅) →
      LoadRight config (moduleRun config qsort ipcState ipcStart [])) ∧
    ∀ calls call node, (∀ other ∈ calls ++ [call], ModuleCall.Fits other) →
      let module := moduleRun config qsort ipcState ipcStart calls
      call.Toggles config module node → config.pgroup node ≠ none →
      TakeoverCounted config module (ActiveAfter config module node) →
      (LoadRight config (moduleRun config qsort ipcState ipcStart (calls ++ [call])) ↔
        ∀ other, Idle config (ActiveAfter config module node) other →
          ∀ kind : ObjectKind, load kind module other = 0) := by
  have tables := configured.tablesFor disjoint lastOnly
  constructor
  · intro counted
    apply (configured.assign_loadRight_iff tables
      (initialModule_arranged config ipcState ipcStart)
      (.inr (initialModule_starts config ipcState ipcFits)) rfl _ _).mpr
    · intro _ _ kind
      rw [load, initialModule]
      simp
    · intro _ _ kind
      exact kind.count_zero
    · rcases counted with connected | nothing
      · exact .inl (by simp [initialModule, connected])
      · exact .inr fun spec isSpec takeover => .inr (nothing spec isSpec takeover)
  · intro calls call node fits module toggles grouped counted
    obtain ⟨early, late⟩ := forall_mem_append.mp fits
    have callFits := late call (mem_singleton_self call)
    have resortable : Resortable config qsort module :=
      moduleRun_resortable config ipcState (.inr ⟨ipcFits, early⟩)
    have unextended := moduleRun_unextended config qsort ipcState ipcFits early
    have run : moduleRun config qsort ipcState ipcStart (calls ++ [call]) =
        moduleStep config qsort module call := by
      rw [moduleRun, foldl_append]
      rfl
    have result : StepResult config qsort module call _ := moduleStep_result module call
    rw [run]
    generalize moduleStep config qsort module call = after at result ⊢
    cases result with
    | quiet untoggled quiet => exact absurd toggles (untoggled node)
    | sorts togglesOther flips =>
      rename_i other changed
      obtain rfl := toggles_unique toggles togglesOther
      obtain ⟨ref, isRef⟩ := Option.ne_none_iff_exists'.mp grouped
      have except := resortable.arranged.flips flips
      have sortsWell := flips.toUntouched.sortsWell resortable.sortsWell (.inr callFits)
      rw [isRef] at except ⊢
      obtain ⟨group, found⟩ := except.exists_groupAt (pgroup_eq_some_iff.mp isRef)
      have sameActive : IsActive config changed = ActiveAfter config module node := by
        funext other
        rw [ActiveAfter]
        split_ifs with isNode
        · rw [isNode]
          exact propext flips.flipped
        · exact propext (flips.others other isNode)
      rw [configured.assign_loadRight_iff tables except sortsWell found, sameActive]
      · simp only [load, flips.current, flips.extra]
      · intro poller inPollers kind
        rw [flips.extra]
        exact unextended poller inPollers kind
      · rw [TakeoverCounted, flips.ipcState, sameActive]
        exact counted

end Runs

def oneMapped : Mapped := (pgroupMapObjects threeHosts 1 [⟨["c"], 1⟩]).get (by decide)

def oneOfEach : ModuleConfig Nat where
  me := 0
  masters := []
  peers := [1]
  pollerGroups := oneMapped.groups.map fun tables => ⟨[2], true, tables⟩
  ipcTables := oneMapped.ipc
  numHosts := 3
  numServices := 3
  hostId2pg := oneMapped.mapping.hostId2pg
  serviceId2pg := oneMapped.mapping.serviceId2pg
  distinct := by decide +kernel
  few := by decide +kernel

theorem oneOfEach_configured : Configured oneOfEach threeHosts [⟨["c"], 1⟩] oneMapped where
  isMapped := (Option.some_get _).symm
  ipcTables := rfl
  groupTables := by
    rw [oneOfEach, map_map]
    exact map_id _
  totalNodes := by decide +kernel
  numHosts := rfl
  numServices := rfl
  hostId2pg := rfl
  serviceId2pg := rfl

theorem moduleRun_load_peerConnects :
    LoadRight oneOfEach (moduleRun oneOfEach (Sorting.insertionSorter _) .connected ⟨7, 0⟩ []) ∧
    LoadRight oneOfEach
      (moduleRun oneOfEach (Sorting.insertionSorter _) .connected ⟨7, 0⟩ peerConnects) := by
  have result := moduleRun_load oneOfEach (Sorting.insertionSorter _) threeHosts [⟨["c"], 1⟩]
    oneMapped oneOfEach_configured (by decide +kernel) (by decide) .connected ⟨7, 0⟩
    ⟨by decide, by decide, by decide, by decide⟩
  apply And.intro (result.1 (.inl rfl))
  apply (result.2 (peerConnects.take 2) (.setState 1 .connected .sent) 1 peerConnects_fits
    (by decide +kernel) (by decide +kernel) (.inl (by decide +kernel))).mpr
  rintro other (⟨inPeers, inactive⟩ | ⟨spec, isSpec, inSpec, none⟩) kind
  · rw [mem_singleton.mp inPeers] at inactive
    exact absurd inactive (by decide +kernel)
  · have inPollers : other ∈ oneOfEach.pollers := mem_flatMap.mpr ⟨spec, isSpec, inSpec⟩
    rw [show oneOfEach.pollers = [2] by decide +kernel, mem_singleton] at inPollers
    rw [inPollers]
    cases kind <;> decide +kernel

theorem moduleRun_load_wrong :
    ¬ LoadRight oneOfEach (moduleRun oneOfEach (Sorting.insertionSorter _) .connected ⟨7, 0⟩
      (peerConnects ++ [.disconnect 1])) ∧
    ¬ LoadRight oneOfEach (moduleRun oneOfEach (Sorting.insertionSorter _) .connected ⟨7, 0⟩
      [.setState 2 .pending .sent, .setState 2 .connected .sent, .disconnect 2]) ∧
    ¬ LoadRight oneOfEach (moduleRun oneOfEach (Sorting.insertionSorter _) .pending ⟨7, 0⟩ []) := by
  refine ⟨?_, ?_, ?_⟩
  · intro right
    exact absurd (right 1 (by decide +kernel) .host) (by decide +kernel)
  · intro right
    exact absurd (right 2 (by decide +kernel) .host) (by decide +kernel)
  · intro right
    exact absurd (right 0 (by decide +kernel) .host) (by decide +kernel)

end MonitorMerlin
