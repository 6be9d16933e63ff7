import MonitorMerlin.Oconfsplit.Graph

/-! # Splitting the configuration -/

namespace MonitorMerlin

open Ledger
open Sorting
open Text

universe u

variable {τ : Type u} [DecidableEq τ]

/-- What is written, with the bitmaps. -/
abbrev SplitFile (τ : Type u) := Book (Slave τ) (Written τ)

/-- `nsplit_cache_command`. -/
def nsplitCacheCommand (file : SplitFile τ) : Option Nat → SplitFile τ
  | none => file
  | some id =>
    if Slave.command id ∈ file.marked then
      file
    else
      file.enter (.command id) (.slave (.command id))

def nsplitCacheCommands (commands : List Nat) (file : SplitFile τ) : SplitFile τ :=
  commands.foldl (fun file id => nsplitCacheCommand file (some id)) file

variable [Fintype τ] (graph : ObjectGraph τ)

/-- `nsplit_cache_timeperiod`. -/
def nsplitCacheTimeperiod (period : Option τ) (file : SplitFile τ) : SplitFile τ :=
  match period with
  | none => file
  | some id =>
    visit Slave.timeperiod (fun id => .slave (.timeperiod id)) graph.exclusions
      (Fintype.card τ + 1) id file

/-- `nsplit_cache_contacts`, for one. -/
def nsplitCacheContact (file : SplitFile τ) (id : Nat) : SplitFile τ :=
  if Slave.contact id ∈ file.marked then
    file
  else
    let contact := graph.contact id
    let file := nsplitCacheTimeperiod graph contact.hostNotificationPeriod file
    let file := nsplitCacheTimeperiod graph contact.serviceNotificationPeriod file
    let file := nsplitCacheCommands contact.hostNotificationCommands file
    let file := nsplitCacheCommands contact.serviceNotificationCommands file
    file.enter (.contact id) (.slave (.contact id))

/-- `nsplit_cache_contacts`. -/
def nsplitCacheContacts (contacts : List Nat) (file : SplitFile τ) : SplitFile τ :=
  contacts.foldl (nsplitCacheContact graph) file

/-- `nsplit_cache_contactgroups`, for one. -/
def nsplitCacheContactgroup (file : SplitFile τ) (id : Nat) : SplitFile τ :=
  if Slave.contactgroup id ∈ file.marked then
    file
  else
    (nsplitCacheContacts graph (graph.contactgroupMembers id) file).enter
      (.contactgroup id) (.slave (.contactgroup id))

/-- `nsplit_cache_contactgroups`. -/
def nsplitCacheContactgroups (contactgroups : List Nat) (file : SplitFile τ) : SplitFile τ :=
  contactgroups.foldl (nsplitCacheContactgroup graph) file

def nsplitCacheSlaves (slaves : SlaveRefs τ) (file : SplitFile τ) : SplitFile τ :=
  let file := nsplitCacheCommand file slaves.eventHandler
  let file := nsplitCacheCommand file slaves.checkCommand
  let file := nsplitCacheTimeperiod graph slaves.checkPeriod file
  let file := nsplitCacheTimeperiod graph slaves.notificationPeriod file
  let file := nsplitCacheContactgroups graph slaves.contactGroups file
  nsplitCacheContacts graph slaves.contacts file

def nsplitCacheDependencies (isSelected : Nat → Prop) [DecidablePred isSelected]
    (record : Dependency τ → Written τ) (olist : List (Dependency τ)) (file : SplitFile τ) :
    SplitFile τ :=
  olist.foldl (fun file dependency =>
      if isSelected dependency.master then
        (nsplitCacheTimeperiod graph dependency.dependencyPeriod file).write (record dependency)
      else
        file)
    file

section

variable (selected : Finset Nat)

/-- `nsplit_cache_hostdependencies`. -/
def nsplitCacheHostdependencies (id : Nat) :
    List (Dependency τ) → SplitFile τ → SplitFile τ :=
  nsplitCacheDependencies graph (fun master => master ∈ selected) (.hostdependency id)

/-- `nsplit_cache_servicedependencies`. -/
def nsplitCacheServicedependencies (id : Nat) :
    List (Dependency τ) → SplitFile τ → SplitFile τ :=
  nsplitCacheDependencies graph (fun master => graph.hostOf master ∈ selected)
    (.servicedependency id)

def nsplitCacheEscalations (record : Escalation τ → Written τ)
    (escalationList : List (Escalation τ)) (file : SplitFile τ) : SplitFile τ :=
  escalationList.foldl (fun file escalation =>
      let file := nsplitCacheTimeperiod graph escalation.escalationPeriod file
      let file := nsplitCacheContactgroups graph escalation.contactGroups file
      let file := nsplitCacheContacts graph escalation.contacts file
      file.write (record escalation))
    file

/-- `nsplit_cache_host`, for a service. -/
def nsplitCacheService (file : SplitFile τ) (id : Nat) : SplitFile τ :=
  let service := graph.service id
  let file := nsplitCacheSlaves graph service.slaves file
  let file := file.write (.service id service.parents)
  let file := nsplitCacheSlaves graph service.slaves file
  let file := nsplitCacheServicedependencies graph selected id service.execDeps file
  let file := nsplitCacheServicedependencies graph selected id service.notifyDeps file
  nsplitCacheEscalations graph (.serviceescalation id) service.escalationList file

def nsplitWriteHost (id : Nat) (file : SplitFile τ) : SplitFile τ :=
  let host := graph.host id
  let file := nsplitCacheSlaves graph host.slaves file
  let file := file.write (.host id (host.parents.filter fun parent => parent ∈ selected))
  let file := nsplitCacheHostdependencies graph selected id host.execDeps file
  let file := nsplitCacheHostdependencies graph selected id host.notifyDeps file
  let file := nsplitCacheEscalations graph (.hostescalation id) host.escalationList file
  (graph.services id).foldl (nsplitCacheService graph selected) file

structure SplitState (τ : Type u) where
  htrack : Finset Nat
  hostgroups : Finset String
  file : SplitFile τ

/-- `nsplit_cache_host`. -/
def nsplitCacheHost (state : SplitState τ) (id : Nat) : SplitState τ :=
  if id ∈ state.htrack then
    state
  else
    { state with
      htrack := insert id state.htrack
      file := nsplitWriteHost graph selected id state.file }

/-- `map_hostgroup_hosts`, for all groups. -/
def mapGroupHosts (objects : ObjectConfig) : List String → Option (Finset Nat)
  | [] => some ∅
  | name :: names =>
    (objects.hostgroup name).bind fun members =>
      (mapGroupHosts objects names).map fun hosts => members.toFinset ∪ hosts

/-- `nsplit_cache_stuff`, for a group. -/
def nsplitCacheGroup (state : SplitState τ) (name : String) :
    SplitState τ :=
  let members := graph.members name
  members.foldl (nsplitCacheHost graph selected)
    { state with
      hostgroups := insert name state.hostgroups
      file := state.file.write (.hostgroup name members) }

end

/-- `nsplit_cache_stuff`. -/
def nsplitCacheStuff (origGroups : List Char) (file : SplitFile τ) :
    Option (Finset Nat × SplitState τ) :=
  let names := (origGroups.splitOn ',').map String.ofList
  (mapGroupHosts graph.toObjectConfig names).map fun selected =>
    (selected, names.foldl (nsplitCacheGroup graph selected) ⟨∅, ∅, file⟩)

/-- `service_cmp`. -/
def serviceCmp (first second : Nat) : Int :=
  let val := strcmp (graph.hostName (graph.hostOf second)) (graph.hostName (graph.hostOf first))
  if val = 0 then strcmp (graph.description second) (graph.description first) else val

/-- The members of `tmpsg`. -/
def partialServicegroup (sorter : Sorter Nat) (selected : Finset Nat) (members : List Nat) :
    List Nat :=
  (sorter.sort (serviceCmp graph)
    (members.filter fun service => graph.hostOf service ∈ selected).reverse).reverse

/-- The loops of `nsplit_partial_groups`. -/
def nsplitPartialHostgroup (selected : Finset Nat) (hostgroups : Finset String)
    (file : SplitFile τ) (name : String) : SplitFile τ :=
  if name ∈ hostgroups then
    file
  else
    let members := (graph.members name).filter fun host => host ∈ selected
    if members = [] then file else file.write (.hostgroup name members)

def nsplitPartialServicegroup (sorter : Sorter Nat) (selected : Finset Nat) (file : SplitFile τ)
    (servicegroup : String × List Nat) : SplitFile τ :=
  let members := partialServicegroup graph sorter selected servicegroup.2
  if members = [] then file else file.write (.servicegroup servicegroup.1 members)

/-- `nsplit_partial_groups`. -/
def nsplitPartialGroups (sorter : Sorter Nat) (selected : Finset Nat) (state : SplitState τ) :
    SplitFile τ :=
  graph.servicegroupList.foldl (nsplitPartialServicegroup graph sorter selected)
    (graph.hostgroupList.foldl (nsplitPartialHostgroup graph selected state.hostgroups) state.file)

/-- `split_config` for a poller, by its hostgroups. -/
def splitConfig (sorter : Sorter Nat) (groups : List Char) : Option (List (Written τ)) :=
  (nsplitCacheStuff graph groups (graph.globalCommands.foldl nsplitCacheCommand ⟨∅, []⟩)).map
    fun (selected, state) => (nsplitPartialGroups graph sorter selected state).out

end MonitorMerlin
