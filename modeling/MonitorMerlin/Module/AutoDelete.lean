import MonitorMerlin.Module.Balance

/-! # Pollers that are deleted -/

namespace MonitorMerlin

open ByteImage List

universe u

variable {ι : Type u}

structure Deletion (config : ModuleConfig ι) where
  name : ι → Bytes
  noTerminator : ∀ node, 0 ∉ name node
  autoDelete : ι → Nat
  fits : ∀ node, autoDelete node < 2 ^ 32
  onlyPollers : ∀ node, node ∉ config.pollers → autoDelete node = 0
  pulseInterval : Int

structure Seen (ι : Type u) where
  now : Int
  connectTime : Int
  lastAction : ι → Int

/-- `auto_del_last_seen_delta`. -/
def Seen.lastSeenDelta (seen : Seen ι) (node : ι) : Int :=
  if seen.lastAction node ≤ 0 then seen.now - seen.connectTime
  else seen.now - seen.lastAction node

namespace Deletion

variable {config : ModuleConfig ι} (deletion : Deletion config) (module : ModuleState ι)
  (seen : Seen ι)

def Recent (node : ι) : Prop :=
  seen.lastSeenDelta node < MachineInt.truncateInt (deletion.pulseInterval * 2)

instance : DecidablePred (deletion.Recent seen) := fun _ => inferInstanceAs (Decidable (_ < _))

def Due (node : ι) : Prop :=
  0 < deletion.autoDelete node ∧ module.state node ≠ .connected ∧
    (deletion.autoDelete node : Int) < seen.lastSeenDelta node

instance : DecidablePred (deletion.Due module seen) :=
  fun _ => inferInstanceAs (Decidable (_ ∧ _ ∧ _))

variable [DecidableEq ι]

/-- `auto_delete_pgroup_recently_seen`. -/
def pgroupRecentlySeen (group : GroupState ι) (node : ι) : Bool :=
  group.nodes.any fun other => other ≠ node ∧ deletion.Recent seen other

/-- `should_auto_delete`. -/
def shouldAutoDelete (node : ι) : Bool :=
  if deletion.Due module seen node then
    match (config.pgroup node).bind module.groupAt with
    | none => false
    | some group =>
      if group.nodes.length = 1 then
        false
      else if group.activeNodes = 0 ∧ deletion.pgroupRecentlySeen seen group node = false then
        false
      else
        true
  else
    false

def autoDeleted : List ι :=
  if module.state config.me = .connected then
    (config.masters ++ config.peers ++ config.pollers).filter
      (deletion.shouldAutoDelete module seen)
  else
    []

def Emptied (index : Nat) : Prop :=
  config.members (.poller index) ≠ [] ∧
    ∀ node ∈ config.members (.poller index), node ∈ deletion.autoDeleted module seen

omit [DecidableEq ι] in
def LongGone (index : Nat) : Prop :=
  (∀ node ∈ config.members (.poller index), deletion.Due module seen node) ∧
    ∃ first ∈ config.members (.poller index), ∃ second ∈ config.members (.poller index),
      first ≠ second ∧ deletion.Recent seen first ∧ deletion.Recent seen second

variable {deletion module seen} {group : GroupState ι} {node : ι} {index : Nat}

theorem pgroupRecentlySeen_iff :
    deletion.pgroupRecentlySeen seen group node = true ↔
      ∃ other ∈ group.nodes, other ≠ node ∧ deletion.Recent seen other := by
  rw [pgroupRecentlySeen, any_eq_true]
  simp only [decide_eq_true_eq]

theorem shouldAutoDelete_iff (member : node ∈ config.members (.poller index))
    (found : module.groupAt (.poller index) = some group) :
    deletion.shouldAutoDelete module seen node = true ↔
      deletion.Due module seen node ∧ group.nodes.length ≠ 1 ∧
        (group.activeNodes = 0 → ∃ other ∈ group.nodes, other ≠ node ∧
          deletion.Recent seen other) := by
  rw [← pgroupRecentlySeen_iff, shouldAutoDelete, pgroup_eq_some_iff.mpr member, Option.bind_some,
    found]
  by_cases due : deletion.Due module seen node
  · simp [due, imp_iff_not_or]
  · simp [due]

theorem mem_autoDeleted_iff (connected : module.state config.me = .connected)
    (member : node ∈ config.members (.poller index)) :
    node ∈ deletion.autoDeleted module seen ↔
      deletion.shouldAutoDelete module seen node = true := by
  rw [autoDeleted, if_pos connected, mem_filter]
  exact and_iff_right (mem_append_right _ (mem_pollers_of_mem_members member))

section

variable (arranged : Arranged config none module)

include arranged

theorem activeNodes_eq_zero (found : module.groupAt (.poller index) = some group)
    (gone : ∀ node ∈ config.members (.poller index), module.state node ≠ .connected) :
    group.activeNodes = 0 := by
  have perm := arranged.members _ group found
  rw [(arranged.sortedAt found).count, countP_eq_zero]
  intro node inGroup
  have member := perm.mem_iff.mp inGroup
  rw [decide_eq_true_iff]
  rintro (rfl | isConnected)
  · exact me_not_mem_nodesOf config .poller (mem_pollers_of_mem_members member)
  · exact gone node member isConnected

theorem longGone_of_emptied (connected : module.state config.me = .connected)
    (emptied : deletion.Emptied module seen index) : deletion.LongGone module seen index := by
  obtain ⟨notEmpty, chosen⟩ := emptied
  obtain ⟨node, member⟩ := exists_mem_of_ne_nil _ notEmpty
  obtain ⟨group, found⟩ := arranged.exists_groupAt member
  have perm := arranged.members _ group found
  have decided : ∀ node ∈ config.members (.poller index), deletion.Due module seen node ∧
      group.nodes.length ≠ 1 ∧ (group.activeNodes = 0 → ∃ other ∈ group.nodes, other ≠ node ∧
        deletion.Recent seen other) := by
    intro node member
    rw [← shouldAutoDelete_iff member found, ← mem_autoDeleted_iff connected member]
    exact chosen node member
  have inactive : group.activeNodes = 0 :=
    activeNodes_eq_zero arranged found fun node member => (decided node member).1.2.1
  obtain ⟨first, inFirst, -, recentFirst⟩ := (decided node member).2.2 inactive
  have memberFirst := perm.mem_iff.mp inFirst
  obtain ⟨second, inSecond, different, recentSecond⟩ := (decided first memberFirst).2.2 inactive
  exact ⟨fun node member => (decided node member).1, first, memberFirst, second,
    perm.mem_iff.mp inSecond, different.symm, recentFirst, recentSecond⟩

theorem emptied_of_longGone (connected : module.state config.me = .connected)
    (longGone : deletion.LongGone module seen index) : deletion.Emptied module seen index := by
  obtain ⟨due, first, memberFirst, second, memberSecond, different, recentFirst, recentSecond⟩ :=
    longGone
  obtain ⟨group, found⟩ := arranged.exists_groupAt memberFirst
  have perm := arranged.members _ group found
  have several : group.nodes.length ≠ 1 := by
    intro single
    obtain ⟨only, isOnly⟩ := length_eq_one_iff.mp single
    rw [isOnly] at perm
    have isFirst := mem_singleton.mp (perm.mem_iff.mpr memberFirst)
    have isSecond := mem_singleton.mp (perm.mem_iff.mpr memberSecond)
    exact different (isFirst.trans isSecond.symm)
  refine ⟨ne_nil_of_mem memberFirst, fun node member => ?_⟩
  rw [mem_autoDeleted_iff connected member, shouldAutoDelete_iff member found]
  refine ⟨due node member, several, fun _ => ?_⟩
  by_cases isFirst : node = first
  · rw [isFirst]
    exact ⟨second, perm.mem_iff.mpr memberSecond, different.symm, recentSecond⟩
  · exact ⟨first, perm.mem_iff.mpr memberFirst, fun same => isFirst same.symm, recentFirst⟩

end

omit [DecidableEq ι] in
theorem not_longGone_of_two_pulses
    (late : ∀ node ∈ config.pollers,
      MachineInt.truncateInt (deletion.pulseInterval * 2) ≤ deletion.autoDelete node) :
    ¬deletion.LongGone module seen index := by
  intro ⟨due, first, member, _, _, _, recent, _⟩
  have long := late first (mem_pollers_of_mem_members member)
  have gone := (due first member).2.2
  rw [Recent] at recent
  omega

end Deletion

/-- No group is emptied if and only if there is none of which all pollers are due and
two were seen for the last two pulses. -/
theorem not_emptied_iff [DecidableEq ι] {config : ModuleConfig ι} (deletion : Deletion config)
    {module : ModuleState ι} (seen : Seen ι) (arranged : Arranged config none module)
    (connected : module.state config.me = .connected) :
    (∀ index, ¬deletion.Emptied module seen index) ↔
      ∀ index, ¬deletion.LongGone module seen index :=
  forall_congr' fun _ => not_congr
    ⟨Deletion.longGone_of_emptied arranged connected,
      Deletion.emptied_of_longGone arranged connected⟩

def pollerPair : ModuleConfig Nat where
  me := 0
  masters := []
  peers := []
  pollerGroups := [⟨[1, 2], true, pgroupAllocCounters 1 2⟩]
  ipcTables := pgroupAllocCounters 1 1
  numHosts := 0
  numServices := 0
  hostId2pg := []
  serviceId2pg := []
  distinct := by decide
  few := by decide

def pollerPairDeletion (seconds : Fin 100) : Deletion pollerPair where
  name _ := [112]
  noTerminator _ := by decide
  autoDelete node := if node ∈ pollerPair.pollers then seconds else 0
  fits node := by
    split
    · omega
    · decide
  onlyPollers node other := if_neg other
  pulseInterval := 10

def pollerPairModule : ModuleState Nat :=
  moduleRun pollerPair (Sorting.insertionSorter _) .connected ⟨7, 0⟩ []

theorem not_emptied_pollerPair :
    ¬ ∃ index,
      (pollerPairDeletion 20).Emptied pollerPairModule ⟨100, 50, fun _ => 85⟩ index := by
  have arranged : Arranged pollerPair none pollerPairModule :=
    (moduleRun_resortable pollerPair .connected
      (.inl (Sorting.insertionSorter_frontFirst _))).arranged
  refine not_exists.mpr ((not_emptied_iff (pollerPairDeletion 20) ⟨100, 50, fun _ => 85⟩
    arranged (by decide)).mpr fun index => Deletion.not_longGone_of_two_pulses ?_)
  intro node member
  change _ ≤ ((if node ∈ pollerPair.pollers then (20 : Fin 100) else 0 : Nat) : Int)
  rw [if_pos member]
  decide

theorem autoDeleted_pollerPair :
    (pollerPairDeletion 10).autoDeleted pollerPairModule ⟨100, 50, fun _ => 85⟩ =
      pollerPair.members (.poller 0) := by
  decide

end MonitorMerlin
