import MonitorMerlin.Oconfsplit.Split

/-! # What the parts of a file refer to -/

namespace MonitorMerlin

open Ledger List

universe u

variable {τ : Type u}

def Slave.level : Slave τ → Nat
  | .command _ => 0
  | .timeperiod _ => 0
  | .contact _ => 1
  | .contactgroup _ => 2

def SlaveBelow (level : Nat) (record : Written τ) : Prop :=
  ∃ ref : Slave τ, record = .slave ref ∧ ref.level < level

variable {record : Written τ}

theorem SlaveBelow.mono {level higher : Nat} (le : level ≤ higher)
    (below : SlaveBelow level record) : SlaveBelow higher record := by
  obtain ⟨ref, same, lower⟩ := below
  exact ⟨ref, same, lower.trans_le le⟩

theorem SlaveBelow.slaveId_ne {ref : Slave τ} (below : SlaveBelow ref.level record) :
    record.slaveId ≠ some ref := by
  obtain ⟨other, rfl, lower⟩ := below
  intro same
  cases same
  exact lower.ne rfl

section Slaves

variable [DecidableEq τ] (graph : ObjectGraph τ)

theorem covers_below
    {graph : ObjectGraph τ} {level higher : Nat} (le : level ≤ higher) {wanted : List (Slave τ)}
    {before after : SplitFile τ}
    (covers : Covers graph.format (SlaveBelow level) wanted before after) :
    Covers graph.format (SlaveBelow higher) wanted before after :=
  covers.mono fun _ below => below.mono le

theorem nsplitCacheCommand_covers (command : Option Nat) (file : SplitFile τ) :
    Covers graph.format (SlaveBelow 1) (commandRefs command.toList) file
      (nsplitCacheCommand file command) := by
  cases command with
  | none => exact Covers.refl _ _ (by simp [commandRefs])
  | some id =>
    rw [nsplitCacheCommand]
    split_ifs with present
    · exact Covers.refl _ _ (by simpa [commandRefs] using present)
    · have unchanged : Covers graph.format (SlaveBelow 1) [] file file := Covers.refl _ _ (by simp)
      apply unchanged.then_enter ⟨.command id, rfl, Nat.zero_lt_one⟩ rfl present
      intro ref isRef
      cases isRef

theorem nsplitCacheCommands_covers (commands : List Nat) (file : SplitFile τ) :
    Covers graph.format (SlaveBelow 1) (commandRefs commands) file
      (nsplitCacheCommands commands file) := by
  have covers : Covers graph.format (SlaveBelow 1)
      (commands.flatMap fun id => commandRefs (some id).toList) file
      (nsplitCacheCommands commands file) :=
    Covers.foldl fun id _ book _ => nsplitCacheCommand_covers graph (some id) book
  apply covers.wants
  intro ref member
  simpa [commandRefs, eq_comm] using member

variable [Fintype τ]

theorem nsplitCacheTimeperiod_covers (period : Option τ) (file : SplitFile τ) :
    Covers graph.format (SlaveBelow 1) (periodRefs period) file
      (nsplitCacheTimeperiod graph period file) := by
  cases period with
  | none => exact Covers.refl _ _ (by simp [periodRefs])
  | some id =>
    apply visit_covers (fun _ => True) ∅
    · exact fun vertex _ _ => ⟨.timeperiod vertex, rfl, Nat.zero_lt_one⟩
    · exact fun _ _ _ _ _ => trivial
    · exact fun _ => rfl
    · exact fun _ => rfl
    · exact Nat.lt_succ_of_le (Finset.card_filter_le _ _)
    · exact Finset.empty_subset _
    · trivial

/-- Whatever is marked and however the exclusions are linked, the calls end: more
depth than `nsplitCacheTimeperiod` allows changes nothing. -/
theorem nsplitCacheTimeperiod_writes_reached (period : τ) (file : SplitFile τ) :
    (∀ depth, Fintype.card τ < depth →
      visit Slave.timeperiod (fun id => .slave (.timeperiod id)) graph.exclusions depth period
        file =
        nsplitCacheTimeperiod graph (some period) file) ∧
      ∃ periods : List τ, periods.Nodup ∧
        (∀ other, other ∈ periods ↔
          Reaches Slave.timeperiod graph.exclusions file.marked period other) ∧
        nsplitCacheTimeperiod graph (some period) file =
          ⟨file.marked ∪ (periods.map Slave.timeperiod).toFinset,
            file.out ++ periods.map fun id => .slave (.timeperiod id)⟩ := by
  have enough : (unmarked Slave.timeperiod file).card < Fintype.card τ + 1 :=
    Nat.lt_succ_of_le (Finset.card_filter_le _ _)
  have isKey : ∀ id : τ, graph.format.key (.slave (.timeperiod id)) = some (.timeperiod id) :=
    fun _ => rfl
  constructor
  · exact fun depth le => visit_of_le enough le period
  · exact visit_trail (fun _ _ same => Slave.timeperiod.inj same) isKey (fun _ => rfl) enough period

theorem nsplitCacheContact_covers (id : Nat) (file : SplitFile τ) :
    Covers graph.format (SlaveBelow 2) [.contact id] file (nsplitCacheContact graph file id) := by
  rw [nsplitCacheContact]
  split_ifs with present
  · exact Covers.refl _ _ (by simpa using present)
  · have hostPeriod :=
      nsplitCacheTimeperiod_covers graph (graph.contact id).hostNotificationPeriod file
    have periods := hostPeriod.trans
      (nsplitCacheTimeperiod_covers graph (graph.contact id).serviceNotificationPeriod _)
    have hostCommands := periods.trans
      (nsplitCacheCommands_covers graph (graph.contact id).hostNotificationCommands _)
    have refs := hostCommands.trans
      (nsplitCacheCommands_covers graph (graph.contact id).serviceNotificationCommands _)
    have unmarked := refs.notMem present fun _ below => SlaveBelow.slaveId_ne below
    have lower := covers_below (Nat.le_succ 1) refs
    exact lower.then_enter ⟨.contact id, rfl, Nat.lt_succ_self 1⟩ rfl unmarked fun _ isRef => isRef

theorem nsplitCacheContacts_covers (contacts : List Nat) (file : SplitFile τ) :
    Covers graph.format (SlaveBelow 2) (contacts.map .contact) file
      (nsplitCacheContacts graph contacts file) := by
  rw [map_eq_flatMap]
  exact Covers.foldl fun id _ book _ => nsplitCacheContact_covers graph id book

theorem nsplitCacheContactgroup_covers (id : Nat) (file : SplitFile τ) :
    Covers graph.format (SlaveBelow 3) [.contactgroup id] file
      (nsplitCacheContactgroup graph file id) := by
  rw [nsplitCacheContactgroup]
  split_ifs with present
  · exact Covers.refl _ _ (by simpa using present)
  · have refs := nsplitCacheContacts_covers graph (graph.contactgroupMembers id) file
    have unmarked := refs.notMem present fun _ below => SlaveBelow.slaveId_ne below
    have lower := covers_below (Nat.le_succ 2) refs
    exact lower.then_enter ⟨.contactgroup id, rfl, Nat.lt_succ_self 2⟩ rfl unmarked
      fun _ isRef => isRef

theorem nsplitCacheContactgroups_covers (contactgroups : List Nat) (file : SplitFile τ) :
    Covers graph.format (SlaveBelow 3) (contactgroups.map .contactgroup) file
      (nsplitCacheContactgroups graph contactgroups file) := by
  rw [map_eq_flatMap]
  exact Covers.foldl fun id _ book _ => nsplitCacheContactgroup_covers graph id book

end Slaves

structure OnSelected (graph : ObjectGraph τ) (selected : Finset Nat) (id : Nat) : Prop where
  host : graph.hostOf id ∈ selected
  member : id ∈ graph.services (graph.hostOf id)

/-- Records that may be written for the selected hosts. -/
inductive Produced (graph : ObjectGraph τ) (selected : Finset Nat) : Written τ → Prop where
  | slave (ref : Slave τ) : Produced graph selected (.slave ref)
  | host {id : Nat} (isSelected : id ∈ selected) :
      Produced graph selected
        (.host id ((graph.host id).parents.filter fun parent => parent ∈ selected))
  | service {id : Nat} (isSelected : OnSelected graph selected id) :
      Produced graph selected (.service id (graph.service id).parents)
  | hostdependency {id : Nat} {dependency : Dependency τ} (isSelected : id ∈ selected)
      (master : dependency.master ∈ selected) :
      Produced graph selected (.hostdependency id dependency)
  | servicedependency {id : Nat} {dependency : Dependency τ}
      (isSelected : graph.hostOf id ∈ selected)
      (master : graph.hostOf dependency.master ∈ selected) :
      Produced graph selected (.servicedependency id dependency)
  | hostescalation {id : Nat} (escalation : Escalation τ) (isSelected : id ∈ selected) :
      Produced graph selected (.hostescalation id escalation)
  | serviceescalation {id : Nat} (escalation : Escalation τ)
      (isSelected : graph.hostOf id ∈ selected) :
      Produced graph selected (.serviceescalation id escalation)
  | hostgroup (name : String) {members : List Nat}
      (areSelected : ∀ id ∈ members, id ∈ selected) :
      Produced graph selected (.hostgroup name members)
  | servicegroup (name : String) {members : List Nat}
      (areSelected : ∀ id ∈ members, graph.hostOf id ∈ selected) :
      Produced graph selected (.servicegroup name members)

structure Attached (graph : ObjectGraph τ) (selected : Finset Nat) (record : Written τ) :
    Prop where
  produced : Produced graph selected record
  hostId : record.hostId = none
  serviceId : record.serviceId = none

theorem SlaveBelow.attached {graph : ObjectGraph τ} {selected : Finset Nat} {level : Nat}
    (below : SlaveBelow level record) : Attached graph selected record := by
  obtain ⟨ref, rfl, _⟩ := below
  exact ⟨.slave ref, rfl, rfl⟩

section Records

variable [DecidableEq τ]

theorem covers_attached
    {graph : ObjectGraph τ} (selected : Finset Nat) {level : Nat} {wanted : List (Slave τ)}
    {before after : SplitFile τ}
    (covers : Covers graph.format (SlaveBelow level) wanted before after) :
    Covers graph.format (Attached graph selected) wanted before after :=
  covers.mono fun _ below => below.attached

variable [Fintype τ] (graph : ObjectGraph τ) (selected : Finset Nat)

theorem nsplitCacheSlaves_attached (slaves : SlaveRefs τ) (file : SplitFile τ) :
    Covers graph.format (Attached graph selected) slaves.refs file
      (nsplitCacheSlaves graph slaves file) := by
  have eventHandler := nsplitCacheCommand_covers graph slaves.eventHandler file
  have commands := eventHandler.trans (nsplitCacheCommand_covers graph slaves.checkCommand _)
  have checkPeriod := commands.trans (nsplitCacheTimeperiod_covers graph slaves.checkPeriod _)
  have periods := checkPeriod.trans (nsplitCacheTimeperiod_covers graph slaves.notificationPeriod _)
  have contactgroups := (covers_attached selected periods).trans
    (covers_attached selected (nsplitCacheContactgroups_covers graph slaves.contactGroups _))
  exact contactgroups.trans
    (covers_attached selected (nsplitCacheContacts_covers graph slaves.contacts _))

theorem nsplitCacheDependencies_attached
    {isSelected : Nat → Prop} [DecidablePred isSelected] {record : Dependency τ → Written τ}
    (attached : ∀ dependency : Dependency τ, isSelected dependency.master →
      Attached graph selected (record dependency))
    (untracked : ∀ dependency, (record dependency).slaveId = none)
    (refs : ∀ dependency, (record dependency).slaveRefs graph =
      periodRefs dependency.dependencyPeriod) (olist : List (Dependency τ)) (file : SplitFile τ) :
    Covers graph.format (Attached graph selected) [] file
      (nsplitCacheDependencies graph isSelected record olist file) := by
  apply Covers.foldl_nil
  intro dependency _ book
  split_ifs with isMaster
  · have period := covers_attached selected
      (nsplitCacheTimeperiod_covers graph dependency.dependencyPeriod book)
    have written := period.then_write (attached dependency isMaster) (untracked dependency)
      fun ref isRef => refs dependency ▸ isRef
    exact written.wants (by simp)
  · exact Covers.refl _ _ (by simp)

variable {id : Nat}

theorem nsplitCacheHostdependencies_attached (isSelected : id ∈ selected)
    (olist : List (Dependency τ)) (file : SplitFile τ) :
    Covers graph.format (Attached graph selected) [] file
      (nsplitCacheHostdependencies graph selected id olist file) := by
  apply nsplitCacheDependencies_attached
  · exact fun dependency master => ⟨.hostdependency isSelected master, rfl, rfl⟩
  · exact fun _ => rfl
  · exact fun _ => rfl

theorem nsplitCacheServicedependencies_attached (isSelected : graph.hostOf id ∈ selected)
    (olist : List (Dependency τ)) (file : SplitFile τ) :
    Covers graph.format (Attached graph selected) [] file
      (nsplitCacheServicedependencies graph selected id olist file) := by
  apply nsplitCacheDependencies_attached
  · exact fun dependency master => ⟨.servicedependency isSelected master, rfl, rfl⟩
  · exact fun _ => rfl
  · exact fun _ => rfl

theorem nsplitCacheEscalations_attached {record : Escalation τ → Written τ}
    (attached : ∀ escalation, Attached graph selected (record escalation))
    (untracked : ∀ escalation, (record escalation).slaveId = none)
    (refs : ∀ escalation, (record escalation).slaveRefs graph = escalation.refs)
    (escalationList : List (Escalation τ)) (file : SplitFile τ) :
    Covers graph.format (Attached graph selected) [] file
      (nsplitCacheEscalations graph record escalationList file) := by
  apply Covers.foldl_nil
  intro escalation _ book
  have period := covers_attached selected
    (nsplitCacheTimeperiod_covers graph escalation.escalationPeriod book)
  have contactgroups := period.trans
    (covers_attached selected (nsplitCacheContactgroups_covers graph escalation.contactGroups _))
  have contacts := contactgroups.trans
    (covers_attached selected (nsplitCacheContacts_covers graph escalation.contacts _))
  have written := contacts.then_write (attached escalation) (untracked escalation) (by
    intro ref isRef
    rw [show graph.format.refs (record escalation) = _ from refs escalation] at isRef
    exact isRef)
  exact written.wants (by simp)

end Records

def writtenHosts (out : List (Written τ)) : List Nat := out.filterMap Written.hostId

def writtenServices (out : List (Written τ)) : List Nat := out.filterMap Written.serviceId

def writtenSlaves (out : List (Written τ)) : List (Slave τ) := out.filterMap Written.slaveId

variable [DecidableEq τ]

structure WritesObjects (graph : ObjectGraph τ) (selected : Finset Nat) (hosts services : List Nat)
    (before after : SplitFile τ) : Prop where
  covers : Covers graph.format (Produced graph selected) [] before after
  hosts : writtenHosts after.out = writtenHosts before.out ++ hosts
  services : writtenServices after.out = writtenServices before.out ++ services

variable {graph : ObjectGraph τ} {selected : Finset Nat} {hosts services : List Nat}
  {before middle after : SplitFile τ}

theorem WritesObjects.trans
    {otherHosts otherServices : List Nat}
    (early : WritesObjects graph selected hosts services before middle)
    (late : WritesObjects graph selected otherHosts otherServices middle after) :
    WritesObjects graph selected (hosts ++ otherHosts) (services ++ otherServices)
      before after where
  covers := early.covers.trans late.covers
  hosts := by
    rw [late.hosts, early.hosts, append_assoc]
  services := by
    rw [late.services, early.services, append_assoc]

theorem writesObjects_of_attached
    {wanted : List (Slave τ)}
    (covers : Covers graph.format (Attached graph selected) wanted before after) :
    WritesObjects graph selected [] [] before after where
  covers := (covers.mono fun _ attached => attached.produced).wants (by simp)
  hosts := by
    obtain ⟨⟨new, adds⟩, _⟩ := covers
    rw [writtenHosts, adds.out, filterMap_append]
    congr 1
    exact filterMap_eq_nil_iff.mpr fun record member => (adds.kind record member).hostId
  services := by
    obtain ⟨⟨new, adds⟩, _⟩ := covers
    rw [writtenServices, adds.out, filterMap_append]
    congr 1
    exact filterMap_eq_nil_iff.mpr fun record member => (adds.kind record member).serviceId

variable {id : Nat}

theorem writesObjects_write {record : Written τ}
    (covers : Covers graph.format (Produced graph selected) [] before (before.write record)) :
    WritesObjects graph selected record.hostId.toList record.serviceId.toList before
      (before.write record) where
  covers := covers
  hosts := by
    rw [writtenHosts, Book.write, filterMap_append]
    cases record <;> rfl
  services := by
    rw [writtenServices, Book.write, filterMap_append]
    cases record <;> rfl

variable [Fintype τ]

theorem nsplitCacheService_writesObjects (isSelected : OnSelected graph selected id)
    (file : SplitFile τ) :
    WritesObjects graph selected [] [id] file (nsplitCacheService graph selected file id) := by
  have copied := nsplitCacheSlaves_attached graph selected (graph.service id).slaves file
  have slaves := nsplitCacheSlaves_attached graph selected (graph.service id).slaves
    ((nsplitCacheSlaves graph (graph.service id).slaves file).write
      (.service id (graph.service id).parents))
  have execDeps := slaves.trans
    (nsplitCacheServicedependencies_attached graph selected isSelected.host
      (graph.service id).execDeps _)
  have notifyDeps := execDeps.trans
    (nsplitCacheServicedependencies_attached graph selected isSelected.host
      (graph.service id).notifyDeps _)
  have escalations := notifyDeps.trans
    (nsplitCacheEscalations_attached graph selected
      (fun escalation => ⟨.serviceescalation escalation isSelected.host, rfl, rfl⟩)
      (fun _ => rfl) (fun _ => rfl) (graph.service id).escalationList _)
  exact ((writesObjects_of_attached copied).trans
    (writesObjects_write (.write (.service isSelected) rfl copied.2))).trans
    (writesObjects_of_attached escalations)

theorem nsplitCacheService_foldl
    {ids : List Nat} (areSelected : ∀ id ∈ ids, OnSelected graph selected id) (file : SplitFile τ) :
    WritesObjects graph selected [] ids file
      (ids.foldl (nsplitCacheService graph selected) file) := by
  induction ids generalizing file with
  | nil =>
    have unchanged : Covers graph.format (Attached graph selected) [] file file :=
      Covers.refl _ _ (by simp)
    exact writesObjects_of_attached unchanged
  | cons id ids ih =>
    exact (nsplitCacheService_writesObjects (areSelected id mem_cons_self) file).trans
      (ih (fun other member => areSelected other (mem_cons_of_mem _ member)) _)

theorem nsplitWriteHost_writesObjects (isSelected : id ∈ selected)
    (areServices : ∀ service ∈ graph.services id, graph.hostOf service = id) (file : SplitFile τ) :
    WritesObjects graph selected [id] (graph.services id) file
      (nsplitWriteHost graph selected id file) := by
  have slaves := nsplitCacheSlaves_attached graph selected (graph.host id).slaves file
  have execDeps := nsplitCacheHostdependencies_attached graph selected isSelected
    (graph.host id).execDeps
    ((nsplitCacheSlaves graph (graph.host id).slaves file).write
      (.host id ((graph.host id).parents.filter fun parent => parent ∈ selected)))
  have notifyDeps := execDeps.trans
    (nsplitCacheHostdependencies_attached graph selected isSelected (graph.host id).notifyDeps _)
  have escalations := notifyDeps.trans
    (nsplitCacheEscalations_attached graph selected
      (fun escalation => ⟨.hostescalation escalation isSelected, rfl, rfl⟩)
      (fun _ => rfl) (fun _ => rfl) (graph.host id).escalationList _)
  have host := ((writesObjects_of_attached slaves).trans
    (writesObjects_write (.write (.host isSelected) rfl slaves.2))).trans
    (writesObjects_of_attached escalations)
  have servicesSelected : ∀ service ∈ graph.services id, OnSelected graph selected service := by
    intro service member
    constructor
    · rw [areServices service member]
      exact isSelected
    · rw [areServices service member]
      exact member
  exact host.trans (nsplitCacheService_foldl servicesSelected _)

end MonitorMerlin
