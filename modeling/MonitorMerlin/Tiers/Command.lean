import MonitorMerlin.Library.Relay
import MonitorMerlin.Tiers.Sending
import MonitorMerlin.Tiers.TwoTier

/-! # Passive check results -/

namespace MonitorMerlin

open List Relay

universe u

structure ObjectName where
  host : List Char
  description : Option (List Char)
  deriving DecidableEq, Repr

def ObjectName.kind (name : ObjectName) : ObjectKind :=
  if name.description = none then .host else .service

structure PassiveResult where
  kind : ObjectKind
  args : List Char

def cutAtSemicolon : List Char → Option (List Char × List Char)
  | [] => none
  | char :: rest =>
    if char = ';' then
      some ([], rest)
    else
      (cutAtSemicolon rest).map fun (before, behind) => (char :: before, behind)

def PassiveResult.target (command : PassiveResult) : Option ObjectName :=
  (cutAtSemicolon command.args).bind fun (host, rest) =>
    match command.kind with
    | .host => some ⟨host, none⟩
    | .service => (cutAtSemicolon rest).map fun (description, _) => ⟨host, some description⟩

def PassiveResult.hostName (command : PassiveResult) : List Char :=
  ((cutAtSemicolon command.args).map Prod.fst).getD command.args

theorem PassiveResult.target_kind
    {command : PassiveResult} {name : ObjectName} (target : command.target = some name) :
    name.kind = command.kind ∧ command.hostName = name.host := by
  obtain ⟨kind, args⟩ := command
  rw [PassiveResult.target] at target
  obtain ⟨⟨host, rest⟩, cut, target⟩ := Option.bind_eq_some_iff.mp target
  rw [PassiveResult.hostName, show cutAtSemicolon args = _ from cut]
  cases kind with
  | host =>
    cases target
    exact ⟨rfl, rfl⟩
  | service =>
    obtain ⟨_, _, rfl⟩ := Option.map_eq_some_iff.mp target
    exact ⟨rfl, rfl⟩

section Hosts

/-- `host_hash_table_add_host`. -/
def hashAddHost (selection : Nat) (table : Nat → Option Nat) (host : Nat) : Nat → Option Nat :=
  if (table host).isSome then table else Function.update table host (some selection)

variable {ι : Type u}

def hashAddHostgroup (objects : ObjectConfig) (selections : List (NodeSelection ι))
    (table : Nat → Option Nat) (name : String) : Nat → Option Nat :=
  match nodeSelectionByName selections name with
  | none => table
  | some selection => ((objects.hostgroup name).getD []).foldl (hashAddHost selection) table

/-- `setup_host_hash_tables`. -/
def setupHostHashTables (objects : ObjectConfig) (hostgroupList : List String)
    (node : Neighbours ι) : Nat → Option Nat :=
  if hostgroupList = [] ∨ node.pollers = [] ∨ node.selections = [] then
    fun _ => none
  else
    hostgroupList.foldl (hashAddHostgroup objects node.selections) fun _ => none

variable {host : Nat} {table : Nat → Option Nat} {α : Type u}

theorem isSome_foldl {step : (Nat → Option Nat) → α → Nat → Option Nat}
    (keeps : ∀ table item, (table host).isSome → (step table item host).isSome) (items : List α)
    (start : (table host).isSome) : ((items.foldl step table) host).isSome := by
  induction items generalizing table with
  | nil => exact start
  | cons item items hypothesis => exact hypothesis (keeps table item start)

theorem isSome_foldl_of_mem {step : (Nat → Option Nat) → α → Nat → Option Nat}
    (keeps : ∀ table item, (table host).isSome → (step table item host).isSome) {items : List α}
    {item : α} (member : item ∈ items) (adds : ∀ table, (step table item host).isSome) :
    ((items.foldl step table) host).isSome := by
  obtain ⟨before, behind, rfl⟩ := append_of_mem member
  rw [foldl_append, foldl_cons]
  exact isSome_foldl keeps behind (adds _)

variable {selection : Nat}

theorem hashAddHost_keeps (table : Nat → Option Nat) (other : Nat) (found : (table host).isSome) :
    (hashAddHost selection table other host).isSome := by
  rw [hashAddHost]
  split_ifs with present
  · exact found
  · rw [Function.update_apply]
    split_ifs
    · rfl
    · exact found

theorem hashAddHost_adds (table : Nat → Option Nat) :
    (hashAddHost selection table host host).isSome := by
  rw [hashAddHost]
  split_ifs with present
  · exact present
  · rw [Function.update_self]
    rfl

variable {objects : ObjectConfig}

theorem hashAddHostgroup_keeps {selections : List (NodeSelection ι)} (table : Nat → Option Nat)
    (name : String) (found : (table host).isSome) :
    (hashAddHostgroup objects selections table name host).isSome := by
  rw [hashAddHostgroup]
  cases nodeSelectionByName selections name with
  | none => exact found
  | some selection => exact isSome_foldl hashAddHost_keeps _ found

variable {hostgroupList : List String} {node : Neighbours ι}

theorem isSome_setupHostHashTables (polls : node.pollers ≠ []) {name : String}
    (inList : name ∈ hostgroupList) {other : ι} (listed : (name, other) ∈ node.listings)
    {members : List Nat} (isHostgroup : objects.hostgroup name = some members)
    (member : host ∈ members) : (setupHostHashTables objects hostgroupList node host).isSome := by
  have named := mem_names_selectionTable listed
  obtain ⟨selection, found⟩ := exists_nodeSelectionByName named
  have selects : node.selections ≠ [] := by
    intro none
    rw [show selectionTable node.listings = [] from none] at named
    cases named
  rw [setupHostHashTables, if_neg (by simp [polls, selects, ne_nil_of_mem inList])]
  apply isSome_foldl_of_mem hashAddHostgroup_keeps inList
  intro table
  rw [hashAddHostgroup, show nodeSelectionByName node.selections name = _ from found, isHostgroup]
  exact isSome_foldl_of_mem hashAddHost_keeps member hashAddHost_adds

theorem setupHostHashTables_eq_none (bottom : node.pollers = []) (host : Nat) :
    setupHostHashTables objects hostgroupList node host = none := by
  rw [setupHostHashTables, if_pos (.inr (.inl bottom))]

end Hosts

section Addresses

variable {ι : Type u} [DecidableEq ι]

def Neighbours.AddressesOnce (node : Neighbours ι) (selection : Nat) (receiver : ι) : Prop :=
  if Selects selection destMagic then
    Selects selection (if receiver ∈ node.pollers then destPollers else destPeers)
  else
    (node.nodesBySelId selection).count receiver = if receiver ∈ node.pollers then 1 else 0

variable {node : Neighbours ι} {selection : Nat} {receiver : ι}

theorem Neighbours.count_sendGeneric
    (top : node.masters = []) (distinct : (node.peers ++ node.pollers).Nodup)
    (isNeighbour : receiver ∈ node.peers ++ node.pollers)
    (polls : Selects selection destMagic ∨ node.pollers ≠ []) :
    (node.sendGeneric selection).count receiver = 1 ↔ node.AddressesOnce selection receiver := by
  have one := count_eq_one_of_mem distinct isNeighbour
  rw [count_append] at one
  rw [AddressesOnce, sendGeneric, top]
  by_cases isPoller : receiver ∈ node.pollers
  · have found := count_pos_iff.mpr isPoller
    have noPeer : node.peers.count receiver = 0 := by omega
    have onePoller : node.pollers.count receiver = 1 := by omega
    simp only [if_pos isPoller]
    split_ifs <;> simp_all
  · have noPoller := count_eq_zero_of_not_mem isPoller
    have onePeer : node.peers.count receiver = 1 := by omega
    simp only [if_neg isPoller]
    split_ifs <;> simp_all

end Addresses

section Cluster

variable {ι : Type u} [DecidableEq ι]

def ClusterNode.neighbours (node : ClusterNode ι) (listings : List (String × ι)) : Neighbours ι :=
  ⟨node.config.masters, node.config.peers, node.config.pollers, listings⟩

/-- `hook_external_command`. -/
def hookExternalCommand (node : ClusterNode ι) (find : ObjectName → Option Nat)
    (command : PassiveResult) : NebResult :=
  match command.target with
  | none => .ok
  | some name =>
    match find name with
    | none => .cancel "No callback result description available"
    | some id =>
      if objectNode command.kind node.config node.module id = some node.config.me then
        .ok
      else
        .cancel "No callback result description available"

/-- `get_cmd_selection`. -/
def getCmdSelection (find : ObjectName → Option Nat) (hostSelection : Nat → Option Nat)
    (command : PassiveResult) : Nat :=
  getSelection ((find ⟨command.hostName, none⟩).bind hostSelection)

structure CommandCluster (ι : Type u) [DecidableEq ι] extends TwoTier ι where
  named : ObjectName → Option Nat
  find : ι → ObjectName → Option Nat
  hostgroupList : ι → List String
  listings : ι → List (String × ι)
  bound : ∀ name id, named name = some id → id < total name.kind
  onMaster : ∀ me ∈ masters, find me = named
  onPoller : ∀ tier ∈ groups, ∀ me ∈ tier.pollers, ∀ name,
    find me name = (named name).bind fun id =>
      if id ∈ tier.map name.kind then some (localId me name.kind id) else none
  hasHost : ∀ host description id, named ⟨host, some description⟩ = some id →
    ∃ hostId, named ⟨host, none⟩ = some hostId ∧ ∀ me ∈ masters,
      id ∈ (node me).objects.services hostId
  hasHostgroups : ∀ me ∈ masters, ∀ name, (node me).objects.hostgroup name ≠ none →
    name ∈ hostgroupList me
  lists : ∀ me ∈ masters, ((node me).neighbours (listings me)).ListsNeighbours
  listsGroups : ∀ me ∈ masters, ∀ (index : Nat) (group : PollerGroup ι) (spec : GroupSpec),
    (node me).config.pollerGroups[index]? = some group → (node me).specs[index]? = some spec →
    ∀ poller ∈ group.nodes, ∀ name ∈ spec.hostgroups, (name, poller) ∈ listings me

namespace CommandCluster

variable (system : CommandCluster ι)

def neighbours (me : ι) : Neighbours ι := (system.node me).neighbours (system.listings me)

/-- `node_selection_by_hostname`. -/
def hostSelection (me : ι) : Nat → Option Nat :=
  setupHostHashTables (system.node me).objects (system.hostgroupList me) (system.neighbours me)

def pass (sender receiver : ι) : List ι :=
  (system.neighbours receiver).handleEventRelays .externalCommand sender

def sent (origin : ι) (command : PassiveResult) : List ι :=
  (system.neighbours origin).sendGeneric
    (getCmdSelection (system.find origin) (system.hostSelection origin) command)

def executions (origin : ι) (command : PassiveResult) (handled : List (ι × ι)) : List ι :=
  (origin :: handled.map Prod.snd).filter fun me =>
    hookExternalCommand (system.node me) (system.find me) command = .ok

def ExecutedOnce (origin : ι) (command : PassiveResult) (kind : ObjectKind) (id : Nat) : Prop :=
  ∀ net, Reaches (passOn system.pass)
      ((system.sent origin command).map fun receiver => (origin, receiver)) net →
    net.inflight = [] → ∃ owner, system.owner kind id = some owner ∧
      system.executions origin command net.handled = [owner]

variable {system} {command : PassiveResult} {name : ObjectName} {id : Nat} {tier : Tier ι}
  {origin me owner : ι}

def nodes (system : CommandCluster ι) : List ι :=
  system.masters ++ system.groups.flatMap Tier.pollers

theorem mem_nodes :
    me ∈ system.nodes ↔ me ∈ system.masters ∨ ∃ tier ∈ system.groups, me ∈ tier.pollers := by
  rw [nodes, mem_append, mem_flatMap]

theorem owner_of_poller
    (isTier : tier ∈ system.groups) (isPoller : me ∈ tier.pollers) {kind : ObjectKind}
    (isOwner : system.owner kind id = some me) : id ∈ tier.map kind := by
  cases polled : system.tierOf kind id with
  | none =>
    obtain ⟨node, isMaster, isNode⟩ := TwoTier.exists_owner_unpolled polled
    rw [isOwner] at isNode
    cases isNode
    exact absurd rfl (TwoTier.master_ne_poller isMaster isTier isPoller)
  | some other =>
    obtain ⟨isOther, inMap⟩ := TwoTier.tierOf_some polled
    obtain ⟨node, inOther, isNode⟩ := TwoTier.exists_owner_polled polled
    rw [isOwner] at isNode
    cases isNode
    rw [TwoTier.tier_unique_of_poller isTier isOther isPoller inOther]
    exact inMap

theorem pollers_eq_nil (isTier : tier ∈ system.groups) (isPoller : me ∈ tier.pollers) :
    (system.neighbours me).pollers = [] := by
  change (system.node me).config.pollers = []
  rw [ModuleConfig.pollers, (system.isPoller tier isTier me isPoller).leaf]
  rfl

theorem pass_eq_nil (isNode : me ∈ system.nodes) (sender : ι) : system.pass sender me = [] := by
  apply Neighbours.handleEventRelays_eq_nil
  rcases mem_nodes.mp isNode with isMaster | ⟨tier, isTier, isPoller⟩
  · exact .inl (system.isMaster me isMaster).top
  · exact .inr (pollers_eq_nil isTier isPoller)

theorem sent_of_poller
    (isTier : tier ∈ system.groups) (isPoller : origin ∈ tier.pollers) :
    system.sent origin command =
      (system.node origin).config.masters ++ (system.node origin).config.peers := by
  have noSelection : ∀ host, system.hostSelection origin host = none :=
    setupHostHashTables_eq_none (pollers_eq_nil isTier isPoller)
  have selection :
      getCmdSelection (system.find origin) (system.hostSelection origin) command =
        destPeersMasters := by
    rw [getCmdSelection, Option.bind_congr (fun host _ => noSelection host), Option.bind_fun_none]
    rfl
  rw [sent, selection, Neighbours.sendGeneric_peersMasters]
  rfl

theorem mem_nodes_of_sent
    (isNode : origin ∈ system.nodes) (member : me ∈ system.sent origin command) :
    me ∈ system.nodes := by
  rcases mem_nodes.mp isNode with isMaster | ⟨tier, isTier, isPoller⟩
  · rcases Neighbours.mem_sendGeneric (system.lists origin isMaster) member with
      inMasters | isPeer | isPoller
    · exact absurd inMasters (eq_nil_iff_forall_not_mem.mp (system.isMaster origin isMaster).top me)
    · exact mem_nodes.mpr (.inl ((TwoTier.masters_perm isMaster).mem_iff.mpr
        (mem_cons_of_mem origin isPeer)))
    · exact mem_nodes.mpr (.inr ((TwoTier.mem_pollers_iff isMaster).mp isPoller))
  · rw [sent_of_poller isTier isPoller, mem_append] at member
    rcases member with inMasters | isPeer
    · exact mem_nodes.mpr (.inl
        ((system.isPoller tier isTier origin isPoller).masters.mem_iff.mp inMasters))
    · exact mem_nodes.mpr (.inr ⟨tier, isTier, (TwoTier.pollers_perm isTier isPoller).mem_iff.mpr
        (mem_cons_of_mem origin isPeer)⟩)

section Submitted

variable (target : command.target = some name) (isNamed : system.named name = some id)

include target isNamed

theorem hookExternalCommand_eq_ok_iff (isNode : me ∈ system.nodes) :
    hookExternalCommand (system.node me) (system.find me) command = .ok ↔
      system.owner name.kind id = some me := by
  rw [hookExternalCommand, target, ← (PassiveResult.target_kind target).1]
  rcases mem_nodes.mp isNode with isMaster | ⟨tier, isTier, isPoller⟩
  · simp only [system.onMaster me isMaster, isNamed,
      TwoTier.objectNode_master isMaster (system.bound name id isNamed),
      (system.isMaster me isMaster).isMe]
    split_ifs with owns <;> simp [owns]
  · simp only [system.onPoller tier isTier me isPoller, isNamed, Option.bind_some]
    by_cases inMap : id ∈ tier.map name.kind
    · simp only [if_pos inMap, TwoTier.objectNode_poller isTier isPoller inMap,
        (system.isPoller tier isTier me isPoller).isMe]
      split_ifs with owns <;> simp [owns]
    · simp only [if_neg inMap, reduceCtorEq, false_iff]
      exact fun isOwner => inMap (owner_of_poller isTier isPoller isOwner)

variable (isOwner : system.owner name.kind id = some owner)

include isOwner

theorem filter_executes {nodes : List ι} (areNodes : ∀ me ∈ nodes, me ∈ system.nodes) :
    nodes.filter (fun me => hookExternalCommand (system.node me) (system.find me) command = .ok) =
      replicate (nodes.count owner) owner := by
  rw [← filter_eq]
  apply filter_congr
  intro me member
  rw [decide_eq_decide, hookExternalCommand_eq_ok_iff target isNamed (areNodes me member), isOwner,
    Option.some_inj]
  exact eq_comm

theorem executedOnce_iff_count (isNode : origin ∈ system.nodes) :
    system.ExecutedOnce origin command name.kind id ↔
      (origin :: system.sent origin command).count owner = 1 := by
  have ends : ∀ message ∈ (system.sent origin command).map fun receiver => (origin, receiver),
      Ends (passOn system.pass) 0 message := by
    intro message member
    obtain ⟨receiver, isReceiver, rfl⟩ := mem_map.mp member
    rw [Ends, passOn, pass_eq_nil (mem_nodes_of_sent isNode isReceiver)]
    rfl
  have executed : ∀ net, Reaches (passOn system.pass)
      ((system.sent origin command).map fun receiver => (origin, receiver)) net →
      net.inflight = [] → system.executions origin command net.handled =
        replicate ((origin :: system.sent origin command).count owner) owner := by
    intro net reaches completed
    have handled := (reaches.handled_perm ends completed).map Prod.snd
    simp only [flatMap_cascade_zero, map_map, Function.comp_def, map_id'] at handled
    rw [executions, filter_executes target isNamed isOwner, (handled.cons origin).count_eq]
    intro me member
    rcases mem_cons.mp member with rfl | isReceiver
    · exact isNode
    · exact mem_nodes_of_sent isNode (handled.mem_iff.mp isReceiver)
  constructor
  · intro once
    obtain ⟨net, reaches, completed⟩ :=
      Reaches.exists_completed (Relation.ReflTransGen.refl (r := Step (passOn system.pass))) ends
    obtain ⟨other, isOther, single⟩ := once net reaches completed
    rw [executed net reaches completed] at single
    rw [← length_replicate (n := List.count owner _) (a := owner), single]
    rfl
  · intro one net reaches completed
    refine ⟨owner, isOwner, ?_⟩
    rw [executed net reaches completed, one]
    rfl

theorem executedOnce_on_poller (isTier : tier ∈ system.groups) (isPoller : origin ∈ tier.pollers)
    (inTier : owner ∈ tier.pollers) : system.ExecutedOnce origin command name.kind id := by
  have isNode := mem_nodes.mpr (.inr ⟨tier, isTier, isPoller⟩)
  have all : (origin :: system.sent origin command).Perm (system.masters ++ tier.pollers) := by
    rw [sent_of_poller isTier isPoller]
    refine List.perm_middle.symm.trans ?_
    exact (system.isPoller tier isTier origin isPoller).masters.append
      (TwoTier.pollers_perm isTier isPoller).symm
  have nodup : (system.masters ++ tier.pollers).Nodup := by
    apply List.Nodup.sublist _ system.distinct
    apply (List.Sublist.refl _).append
    exact sublist_flatten_of_mem (mem_map_of_mem isTier)
  rw [executedOnce_iff_count target isNamed isOwner isNode, all.count_eq]
  exact count_eq_one_of_mem nodup (mem_append_right _ inTier)

end Submitted

theorem exists_host (isNamed : system.named name = some id) :
    ∃ host, system.named ⟨name.host, none⟩ = some host ∧
      ∀ tier ∈ system.groups, id ∈ tier.map name.kind → host ∈ tier.map .host := by
  obtain ⟨hostName, description⟩ := name
  cases description with
  | none => exact ⟨id, isNamed, fun _ _ inMap => inMap⟩
  | some description =>
    obtain ⟨host, hostNamed, serves⟩ := system.hasHost hostName description id isNamed
    refine ⟨host, hostNamed, ?_⟩
    intro tier isTier inMap
    obtain ⟨master, isMaster⟩ := exists_mem_of_ne_nil _ system.someMaster
    obtain ⟨index, pair, found⟩ := TwoTier.exists_foundAt isMaster isTier
    obtain ⟨_, _, _, _, mapsTo⟩ := (system.node master).configured.mapsTo found.spec
    have inServices : id ∈ pair.1.tables.services.map := by
      rw [show pair.1.tables.services.map = tier.map .service from found.hits.map .service]
      exact inMap
    have bound := system.bound _ _ hostNamed
    rw [← (system.isMaster master isMaster).total] at bound
    rw [mapsTo.servicesMap, mem_servicesOf_iff mapsTo.hostBound
      ((system.node master).configured.numHosts ▸ bound) (serves master isMaster)] at inServices
    rw [← found.hits.map .host]
    exact inServices

section Master

variable (isMaster : origin ∈ system.masters)

include isMaster

theorem distinct_neighbours :
    (origin :: ((system.neighbours origin).peers ++ (system.neighbours origin).pollers)).Nodup := by
  have view := system.isMaster origin isMaster
  have distinct := (system.node origin).config.distinct
  rw [view.isMe, view.top] at distinct
  exact distinct

theorem not_mem_sent : origin ∉ system.sent origin command := by
  intro member
  apply (nodup_cons.mp (distinct_neighbours isMaster)).1
  rw [mem_append]
  rcases Neighbours.mem_sendGeneric (system.lists origin isMaster) member with inMasters | other
  · exact absurd inMasters
      (eq_nil_iff_forall_not_mem.mp (system.isMaster origin isMaster).top origin)
  · exact other

variable {host : Nat}

theorem exists_hostSelection (isTier : tier ∈ system.groups) (inMap : host ∈ tier.map .host) :
    ∃ selection, system.hostSelection origin host = some selection := by
  obtain ⟨index, pair, found⟩ := TwoTier.exists_foundAt isMaster isTier
  obtain ⟨spec, isSpec, _, memberLists, mapsTo⟩ := (system.node origin).configured.mapsTo found.spec
  have inHosts : host ∈ pair.1.tables.hosts.map := by
    rw [show pair.1.tables.hosts.map = tier.map .host from found.hits.map .host]
    exact inMap
  rw [mapsTo.hostsMap, mem_toFinset, mem_flatten] at inHosts
  obtain ⟨members, isMembers, inMembers⟩ := inHosts
  obtain ⟨name, isName, isHostgroup⟩ := mapsTo.members.exists_name isMembers
  obtain ⟨poller, inTier⟩ := exists_mem_of_ne_nil _ (system.somePoller tier isTier)
  obtain ⟨group, isGroup, inGroup⟩ :=
    ModuleConfig.mem_members_poller.mp (found.mem_members.mpr inTier)
  have isPoller := (TwoTier.mem_pollers_iff isMaster).mpr ⟨tier, isTier, inTier⟩
  have inList : name ∈ system.hostgroupList origin := by
    apply system.hasHostgroups origin isMaster
    rw [isHostgroup]
    exact Option.some_ne_none members
  have listed := system.listsGroups origin isMaster index group spec isGroup isSpec poller inGroup
    name isName
  apply Option.isSome_iff_exists.mp
  exact isSome_setupHostHashTables (ne_nil_of_mem isPoller) inList listed isHostgroup inMembers

variable (target : command.target = some name) (isNamed : system.named name = some id)
  (isOwner : system.owner name.kind id = some owner)
  (hostNamed : system.named ⟨name.host, none⟩ = some host)

include target isNamed isOwner

theorem executedOnce_on_owner (own : owner = origin) :
    system.ExecutedOnce origin command name.kind id := by
  subst own
  rw [executedOnce_iff_count target isNamed isOwner (mem_nodes.mpr (.inl isMaster)),
    count_cons_self, count_eq_zero_of_not_mem (not_mem_sent isMaster)]

include hostNamed

theorem executedOnce_iff_sent (remote : owner ≠ origin) :
    system.ExecutedOnce origin command name.kind id ↔
      ((system.neighbours origin).sendGeneric
        (getSelection (system.hostSelection origin host))).count owner = 1 := by
  rw [executedOnce_iff_count target isNamed isOwner (mem_nodes.mpr (.inl isMaster)),
    count_cons_of_ne remote.symm, sent, getCmdSelection,
    (PassiveResult.target_kind target).2, system.onMaster origin isMaster, hostNamed,
    Option.bind_some]

theorem executedOnce_iff_of_neighbour (remote : owner ≠ origin)
    (isNeighbour : owner ∈ (system.neighbours origin).peers ∨
      owner ∈ (system.neighbours origin).pollers ∧
        ∃ selection, system.hostSelection origin host = some selection) :
    system.ExecutedOnce origin command name.kind id ↔
      ∀ selection, system.hostSelection origin host = some selection →
        (system.neighbours origin).AddressesOnce (selection &&& 0xffff) owner := by
  have top : (system.neighbours origin).masters = [] := (system.isMaster origin isMaster).top
  have distinct := (nodup_cons.mp (distinct_neighbours isMaster)).2
  rw [executedOnce_iff_sent isMaster target isNamed isOwner hostNamed remote]
  cases selected : system.hostSelection origin host with
  | none =>
    have isPeer := isNeighbour.resolve_right (by simp [selected])
    have one := count_eq_one_of_mem (nodup_append.mp distinct).1 isPeer
    rw [show getSelection none = destPeersMasters from rfl, Neighbours.sendGeneric_peersMasters,
      top, nil_append, one]
    simp
  | some selection =>
    have polls : (system.neighbours origin).pollers ≠ [] := by
      intro bottom
      rw [hostSelection, setupHostHashTables_eq_none bottom] at selected
      cases selected
    rw [Neighbours.count_sendGeneric top distinct (mem_append.mpr (isNeighbour.imp_right And.left))
      (.inr polls)]
    simp only [Option.some.injEq, forall_eq']
    rfl

theorem executedOnce_on_master :
    system.ExecutedOnce origin command name.kind id ↔
      (owner ≠ origin → ∀ selection, system.hostSelection origin host = some selection →
        (system.neighbours origin).AddressesOnce (selection &&& 0xffff) owner) := by
  by_cases own : owner = origin
  · exact iff_of_true (executedOnce_on_owner isMaster target isNamed isOwner own)
      fun remote => absurd own remote
  · rw [forall_prop_of_true own]
    apply executedOnce_iff_of_neighbour isMaster target isNamed isOwner hostNamed own
    cases polled : system.tierOf name.kind id with
    | none =>
      obtain ⟨node, ownerMaster, isNode⟩ := TwoTier.exists_owner_unpolled polled
      cases isOwner.symm.trans isNode
      have isMember := (TwoTier.masters_perm isMaster).mem_iff.mp ownerMaster
      exact .inl ((mem_cons.mp isMember).resolve_left own)
    | some tier =>
      obtain ⟨node, inTier, isNode⟩ := TwoTier.exists_owner_polled polled
      obtain ⟨isTier, inMap⟩ := TwoTier.tierOf_some polled
      obtain ⟨known, hostKnown, inHosts⟩ := exists_host isNamed
      cases isOwner.symm.trans isNode
      cases hostNamed.symm.trans hostKnown
      exact .inr ⟨(TwoTier.mem_pollers_iff isMaster).mpr ⟨tier, isTier, inTier⟩,
        exists_hostSelection isMaster isTier (inHosts tier isTier inMap)⟩

end Master

end CommandCluster

/-- The owner alone runs a command with a check result, once, exactly when it is submitted
on a poller or on the owner, or the host has no selection on that master, or its id, cut to
16 bits, stands for the owner once. -/
theorem passive_result_once_iff
    (system : CommandCluster ι) (command : PassiveResult) (name : ObjectName)
    (target : command.target = some name) (id : Nat) (isNamed : system.named name = some id)
    (origin : ι) (hasObject : ∃ localId, (origin, localId) ∈ system.holders name.kind id) :
    system.ExecutedOnce origin command name.kind id ↔
      (origin ∈ system.masters → ∀ owner host selection,
        system.owner name.kind id = some owner → owner ≠ origin →
        system.named ⟨name.host, none⟩ = some host →
        system.hostSelection origin host = some selection →
          (system.neighbours origin).AddressesOnce (selection &&& 0xffff) owner) := by
  obtain ⟨localId, isHolder⟩ := hasObject
  by_cases isMaster : origin ∈ system.masters
  · obtain ⟨owner, isOwner⟩ := system.exists_owner name.kind id
    obtain ⟨host, hostNamed, _⟩ := CommandCluster.exists_host isNamed
    rw [CommandCluster.executedOnce_on_master isMaster target isNamed isOwner hostNamed]
    constructor
    · intro addressed _ other otherHost selection isOther remote otherNamed
      cases isOwner.symm.trans isOther
      cases hostNamed.symm.trans otherNamed
      exact addressed remote selection
    · intro condition remote selection
      exact condition isMaster owner host selection isOwner remote hostNamed
  · apply iff_of_true _ fun isHere => absurd isHere isMaster
    rcases TwoTier.mem_holders.mp isHolder with ⟨isHere, _⟩ | ⟨tier, polled, isPoller, _⟩
    · exact absurd isHere isMaster
    · obtain ⟨owner, inTier, isOwner⟩ := TwoTier.exists_owner_polled polled
      exact CommandCluster.executedOnce_on_poller target isNamed isOwner
        (TwoTier.tierOf_some polled).1 isPoller inTier

end Cluster

def threeNamed (name : ObjectName) : Option Nat :=
  if name.description = none ∨ name.description = some ['s'] then
    if name.host = ['a'] then some 0 else if name.host = ['b'] then some 1 else
      if name.host = ['c'] then some 2 else none
  else
    none

theorem masterConfig_nodes : ∀ group ∈ masterConfig.pollerGroups, group.nodes = [1, 2] := by
  decide +kernel

theorem pollers_listed :
    (((twoBelow fun _ => true).node 0).neighbours
      (pollerHostgroups.map (fun name => (name, 1)) ++
        pollerHostgroups.map fun name => (name, 2))).ListsNeighbours := by
  unfold Neighbours.ListsNeighbours
  decide +kernel

def listsTwice : CommandCluster Nat where
  toTwoTier := twoBelow fun _ => true
  named := threeNamed
  find me name :=
    if me = 0 then
      threeNamed name
    else
      (threeNamed name).bind fun id => if id ∈ ({1, 2} : Finset Nat) then some (id - 1) else none
  hostgroupList _ := ["a", "b", "c", "none"]
  listings me :=
    if me = 0 then
      pollerHostgroups.map (fun name => (name, 1)) ++ pollerHostgroups.map fun name => (name, 2)
    else
      []
  bound name id isNamed := by
    change id < 3
    unfold threeNamed at isNamed
    split_ifs at isNamed <;> cases isNamed <;> decide
  onMaster me isMaster := by
    rw [mem_singleton.mp isMaster]
    rfl
  onPoller tier isTier me isPoller name := by
    rw [mem_singleton.mp isTier] at isPoller ⊢
    rcases mem_pair.mp isPoller with rfl | rfl <;> rfl
  hasHost host description id isNamed := by
    unfold threeNamed at isNamed ⊢
    refine ⟨id, ?_, ?_⟩
    · split_ifs at isNamed with _ isA isB isC <;> cases isNamed <;> simp_all
    · intro me isMaster
      rw [mem_singleton.mp isMaster]
      exact mem_singleton_self id
  hasHostgroups me isMaster name found := by
    rw [mem_singleton.mp isMaster] at found
    change threeHosts.hostgroup name ≠ none at found
    simp only [threeHosts, oneServiceEach] at found
    split_ifs at found <;> simp_all
  lists me isMaster := by
    rw [mem_singleton.mp isMaster]
    exact pollers_listed
  listsGroups me isMaster index group spec isGroup isSpec poller inGroup name isName := by
    rw [mem_singleton.mp isMaster] at isGroup isSpec ⊢
    have onlySpec : spec = ⟨pollerHostgroups, 2⟩ := mem_singleton.mp (mem_of_getElem? isSpec)
    rw [masterConfig_nodes group (mem_of_getElem? isGroup)] at inGroup
    rw [onlySpec] at isName
    rw [if_pos rfl, mem_append]
    rcases mem_pair.mp inGroup with rfl | rfl
    · exact Or.inl (mem_map_of_mem isName)
    · exact Or.inr (mem_map_of_mem isName)

theorem passive_result_once_listsTwice :
    PassiveResult.target ⟨.host, ['b', ';', '0', ';', 'O', 'K']⟩ = some ⟨['b'], none⟩ ∧
    listsTwice.ExecutedOnce 0 ⟨.host, ['b', ';', '0', ';', 'O', 'K']⟩ .host 1 := by
  apply And.intro rfl
  apply (passive_result_once_iff listsTwice ⟨.host, ['b', ';', '0', ';', 'O', 'K']⟩ ⟨['b'], none⟩
    rfl 1 rfl 0 ⟨1, by decide +kernel⟩).mpr
  intro _ owner host selection isOwner _ hostNamed selected
  have isFirst : listsTwice.owner .host 1 = some 1 := by decide +kernel
  cases isFirst.symm.trans isOwner
  cases hostNamed
  rw [show listsTwice.hostSelection 0 1 = some 0 by decide +kernel] at selected
  cases selected
  unfold Neighbours.AddressesOnce
  decide +kernel

theorem passive_result_twice :
    ¬ listsTwice.ExecutedOnce 0 ⟨.host, ['c', ';', '0', ';', 'O', 'K']⟩ .host 2 := by
  have isOwner : listsTwice.owner .host 2 = some 2 := by decide +kernel
  have isNode : (0 : Nat) ∈ listsTwice.nodes := by decide +kernel
  have target : PassiveResult.target ⟨.host, ['c', ';', '0', ';', 'O', 'K']⟩ =
    some ⟨['c'], none⟩ := rfl
  have isNamed : listsTwice.named ⟨['c'], none⟩ = some 2 := rfl
  intro once
  have one := (CommandCluster.executedOnce_iff_count target isNamed isOwner isNode).mp once
  exact absurd one (by decide +kernel)

end MonitorMerlin
