import MonitorMerlin.Library.Ledger
import MonitorMerlin.Pgroup.Init

/-! # Configurations for pollers -/

namespace MonitorMerlin

open Ledger

universe u

structure SlaveRefs (τ : Type u) where
  eventHandler : Option Nat
  checkCommand : Option Nat
  checkPeriod : Option τ
  notificationPeriod : Option τ
  contactGroups : List Nat
  contacts : List Nat

structure Contact (τ : Type u) where
  hostNotificationPeriod : Option τ
  serviceNotificationPeriod : Option τ
  hostNotificationCommands : List Nat
  serviceNotificationCommands : List Nat

structure Dependency (τ : Type u) where
  master : Nat
  dependencyPeriod : Option τ
  deriving DecidableEq, Repr

structure Escalation (τ : Type u) where
  escalationPeriod : Option τ
  contactGroups : List Nat
  contacts : List Nat
  deriving DecidableEq, Repr

structure Checked (τ : Type u) where
  slaves : SlaveRefs τ
  parents : List Nat
  execDeps : List (Dependency τ)
  notifyDeps : List (Dependency τ)
  escalationList : List (Escalation τ)

/-- The objects, and how they refer to each other. -/
structure ObjectGraph (τ : Type u) extends HostgroupConfig where
  host : Nat → Checked τ
  service : Nat → Checked τ
  hostOf : Nat → Nat
  hostName : Nat → List Char
  description : Nat → List Char
  contact : Nat → Contact τ
  contactgroupMembers : Nat → List Nat
  exclusions : τ → List τ
  servicegroupList : List (String × List Nat)
  globalCommands : List (Option Nat)
  hostOf_eq : ∀ id < numHosts, ∀ service ∈ services id, hostOf service = id

inductive Slave (τ : Type u) where
  | command (id : Nat)
  | timeperiod (id : τ)
  | contact (id : Nat)
  | contactgroup (id : Nat)
  deriving DecidableEq, Repr

/-- The records of a file. -/
inductive Written (τ : Type u) where
  | slave (ref : Slave τ)
  | host (id : Nat) (parents : List Nat)
  | service (id : Nat) (parents : List Nat)
  | hostdependency (id : Nat) (dependency : Dependency τ)
  | servicedependency (id : Nat) (dependency : Dependency τ)
  | hostescalation (id : Nat) (escalation : Escalation τ)
  | serviceescalation (id : Nat) (escalation : Escalation τ)
  | hostgroup (name : String) (members : List Nat)
  | servicegroup (name : String) (members : List Nat)
  deriving DecidableEq, Repr

variable {τ : Type u}

def commandRefs (ids : List Nat) : List (Slave τ) := ids.map Slave.command

def periodRefs (period : Option τ) : List (Slave τ) := period.toList.map Slave.timeperiod

def SlaveRefs.refs (slaves : SlaveRefs τ) : List (Slave τ) :=
  commandRefs slaves.eventHandler.toList ++ commandRefs slaves.checkCommand.toList ++
    periodRefs slaves.checkPeriod ++ periodRefs slaves.notificationPeriod ++
    slaves.contactGroups.map Slave.contactgroup ++ slaves.contacts.map Slave.contact

def Contact.refs (contact : Contact τ) : List (Slave τ) :=
  periodRefs contact.hostNotificationPeriod ++ periodRefs contact.serviceNotificationPeriod ++
    commandRefs contact.hostNotificationCommands ++
    commandRefs contact.serviceNotificationCommands

def Escalation.refs (escalation : Escalation τ) : List (Slave τ) :=
  periodRefs escalation.escalationPeriod ++
    escalation.contactGroups.map Slave.contactgroup ++ escalation.contacts.map Slave.contact

variable (graph : ObjectGraph τ)

def Slave.refs : Slave τ → List (Slave τ)
  | .command _ => []
  | .timeperiod id => (graph.exclusions id).map .timeperiod
  | .contact id => (graph.contact id).refs
  | .contactgroup id => (graph.contactgroupMembers id).map .contact

namespace Written

def slaveRefs : Written τ → List (Slave τ)
  | .slave ref => ref.refs graph
  | .host id _ => (graph.host id).slaves.refs
  | .service id _ => (graph.service id).slaves.refs
  | .hostdependency _ dependency => periodRefs dependency.dependencyPeriod
  | .servicedependency _ dependency => periodRefs dependency.dependencyPeriod
  | .hostescalation _ escalation => escalation.refs
  | .serviceescalation _ escalation => escalation.refs
  | .hostgroup _ _ => []
  | .servicegroup _ _ => []

def hostRefs : Written τ → List Nat
  | .host id parents => id :: parents
  | .hostdependency id dependency => [id, dependency.master]
  | .hostescalation id _ => [id]
  | .hostgroup _ members => members
  | _ => []

def serviceRefs : Written τ → List Nat
  | .service id parents => id :: parents
  | .servicedependency id dependency => [id, dependency.master]
  | .serviceescalation id _ => [id]
  | .servicegroup _ members => members
  | _ => []

def slaveId : Written τ → Option (Slave τ)
  | .slave ref => some ref
  | _ => none

def hostId : Written τ → Option Nat
  | .host id _ => some id
  | _ => none

def serviceId : Written τ → Option Nat
  | .service id _ => some id
  | _ => none

end Written

def ObjectGraph.format : Format (Slave τ) (Written τ) where
  key := Written.slaveId
  refs := Written.slaveRefs graph

end MonitorMerlin
