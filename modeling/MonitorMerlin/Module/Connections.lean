import MonitorMerlin.Module.State

/-! # The counters of connected nodes -/

namespace MonitorMerlin

open List

universe u

section OnlyLoad

variable {ι : Type u}

structure OnlyLoad (before after : ModuleState ι) : Prop where
  state : after.state = before.state
  start : after.start = before.start
  peerId : after.peerId = before.peerId
  active : after.active = before.active
  ipcGroup : after.ipcGroup = before.ipcGroup
  groups : after.groups = before.groups
  writes : after.writes = before.writes

theorem OnlyLoad.refl (module : ModuleState ι) : OnlyLoad module module :=
  ⟨rfl, rfl, rfl, rfl, rfl, rfl, rfl⟩

theorem OnlyLoad.trans
    {first second third : ModuleState ι}
    (early : OnlyLoad first second) (late : OnlyLoad second third) : OnlyLoad first third where
  state := late.state.trans early.state
  start := late.start.trans early.start
  peerId := late.peerId.trans early.peerId
  active := late.active.trans early.active
  ipcGroup := late.ipcGroup.trans early.ipcGroup
  groups := late.groups.trans early.groups
  writes := late.writes.trans early.writes

theorem OnlyLoad.foldl {α : Type u} {step : ModuleState ι → α → ModuleState ι}
    (onlyLoad : ∀ module item, OnlyLoad module (step module item))
    (items : List α) (module : ModuleState ι) : OnlyLoad module (items.foldl step module) := by
  induction items generalizing module with
  | nil => exact .refl module
  | cons item items ih => exact (onlyLoad module item).trans (ih (step module item))

variable [DecidableEq ι] {config : ModuleConfig ι}

theorem resetNode_onlyLoad (module : ModuleState ι) (node : ι) :
    OnlyLoad module (resetNode config module node) := ⟨rfl, rfl, rfl, rfl, rfl, rfl, rfl⟩

theorem inheritNode_onlyLoad (tables : MappedGroup) (module : ModuleState ι) (node : ι) :
    OnlyLoad module (inheritNode tables module node) := by
  unfold inheritNode
  split
  · exact .refl module
  · exact ⟨rfl, rfl, rfl, rfl, rfl, rfl, rfl⟩

theorem assignNode_onlyLoad
    (tables : MappedGroup) (active : Nat) (module : ModuleState ι) (node : ι) :
    OnlyLoad module (assignNode tables active module node) := by
  unfold assignNode
  split <;> exact ⟨rfl, rfl, rfl, rfl, rfl, rfl, rfl⟩

theorem reassignGroup_onlyLoad (module : ModuleState ι) (group : PollerGroup ι × GroupState ι) :
    OnlyLoad module (reassignGroup module group) := by
  unfold reassignGroup
  split_ifs
  · exact .refl module
  · exact .foldl (inheritNode_onlyLoad _) _ _
  · apply OnlyLoad.trans _ (.foldl (assignNode_onlyLoad _ _) _ _)
    exact ⟨rfl, rfl, rfl, rfl, rfl, rfl, rfl⟩

theorem pgroupReassignChecks_onlyLoad (config : ModuleConfig ι) (module : ModuleState ι) :
    OnlyLoad module (pgroupReassignChecks config module) := by
  apply OnlyLoad.trans _ (.foldl reassignGroup_onlyLoad _ _)
  apply OnlyLoad.trans _ (.foldl resetNode_onlyLoad _ _)
  exact ⟨rfl, rfl, rfl, rfl, rfl, rfl, rfl⟩

end OnlyLoad

section Results

variable {ι : Type u} [DecidableEq ι] {config : ModuleConfig ι}
  {qsort : Sorting.Sorter (PeerNode ι)} {module : ModuleState ι} {node : ι} {next : NodeState}
  {outcome : CtrlOutcome}

structure SameConnections (before after : ModuleState ι) : Prop where
  state : after.state = before.state
  active : after.active = before.active
  writes : after.writes = before.writes

theorem pgroupAssign_poller
    {index : Nat} {group : GroupState ι} (found : module.groups[index]? = some group) :
    pgroupAssign config qsort module (some (.poller index)) =
      pgroupReassignChecks config { module with
        groups := module.groups.set index (sortGroup config qsort module group).1
        peerId := (sortGroup config qsort module group).2 } := by
  simp only [pgroupAssign, found]

theorem pgroupAssign_same (module : ModuleState ι) (group : Option GroupRef) :
    SameConnections module (pgroupAssign config qsort module group) := by
  have reassigned (sorted : ModuleState ι) (same : SameConnections module sorted) :
      SameConnections module (pgroupReassignChecks config sorted) := by
    have onlyLoad := pgroupReassignChecks_onlyLoad config sorted
    exact ⟨onlyLoad.state.trans same.state, onlyLoad.active.trans same.active,
      onlyLoad.writes.trans same.writes⟩
  rcases group with _ | _ | index
  · exact ⟨rfl, rfl, rfl⟩
  · exact reassigned _ ⟨rfl, rfl, rfl⟩
  · cases found : module.groups[index]? with
    | none =>
      simp only [pgroupAssign, found]
      exact ⟨rfl, rfl, rfl⟩
    | some group =>
      rw [pgroupAssign_poller found]
      exact reassigned _ ⟨rfl, rfl, rfl⟩

theorem clearInfo_same (module : ModuleState ι) (node : ι) :
    SameConnections module (clearInfo module node) := ⟨rfl, rfl, rfl⟩

theorem setNone_state (module : ModuleState ι) (node : ι) :
    (setNone config qsort module node).state = Function.update module.state node .none := by
  unfold setNone
  split_ifs with same skipped
  · rw [← same, Function.update_eq_self]
  · rfl
  · rw [(pgroupAssign_same _ _).state]
    rfl

theorem nodeDisconnect_state (module : ModuleState ι) (node : ι) :
    (nodeDisconnect config qsort module node).state = Function.update module.state node .none := by
  unfold nodeDisconnect
  split
  · exact setNone_state module node
  · exact setNone_state module node

theorem nodeSendCtrlActive_state_ne
    (unconnected : module.state node ≠ .connected) (outcome : CtrlOutcome) :
    (nodeSendCtrlActive config qsort module node outcome).state node ≠ .connected := by
  cases outcome with
  | sent => exact unconnected
  | failed | encryptionFailed =>
    rw [nodeSendCtrlActive, nodeDisconnect_state, Function.update_self]
    decide

/-- The ways in which `node_set_state` ends. -/
inductive SetStateResult
    (config : ModuleConfig ι) (qsort : Sorting.Sorter (PeerNode ι)) (module : ModuleState ι)
    (node : ι) (outcome : CtrlOutcome) : NodeState → ModuleState ι → Prop
  | same {next : NodeState} (same : module.state node = next) :
      SetStateResult config qsort module node outcome next module
  | forbidden {next : NodeState} (remote : node ≠ config.me) (changes : module.state node ≠ next)
      (notAllowed : (module.state node).allows next = false) :
      SetStateResult config qsort module node outcome next (nodeDisconnect config qsort module node)
  | none : SetStateResult config qsort module node outcome .none (setNone config qsort module node)
  | pending (remote : node ≠ config.me) (prev : module.state node = .none) :
      SetStateResult config qsort module node outcome .pending
        (writeState config module node .pending)
  | negotiating (remote : node ≠ config.me)
      (prev : module.state node = .none ∨ module.state node = .pending) :
      SetStateResult config qsort module node outcome .negotiating
        (nodeSendCtrlActive config qsort (writeState config module node .negotiating) node outcome)
  | connected (remote : node ≠ config.me)
      (prev : module.state node = .pending ∨ module.state node = .negotiating) :
      SetStateResult config qsort module node outcome .connected
        (pgroupAssign config qsort (writeState config module node .connected) (config.pgroup node))
  | localUnconnected {next : NodeState} (isLocal : node = config.me)
      (changes : module.state node ≠ next) :
      SetStateResult config qsort module node outcome next (writeState config module node next)
  | localConnected (isLocal : node = config.me) (changes : module.state node ≠ .connected) :
      SetStateResult config qsort module node outcome .connected
        (nodeSendCtrlActive config qsort (writeState config module node .connected) node outcome)

theorem writeState_state :
    (writeState config module node next).state = Function.update module.state node next := rfl

theorem moduleSetState_local (isLocal : node = config.me) (changes : module.state node ≠ next) :
    SetStateResult config qsort module node outcome next
      (moduleSetState config qsort module node next outcome) := by
  have written : (writeState config module node next).state node = next :=
    Function.update_self _ _ _
  unfold moduleSetState
  rw [if_neg changes, if_neg fun all => all.2.1 isLocal]
  simp only [ne_eq, isLocal, not_true_eq_false, and_false, if_false]
  rw [← isLocal, written]
  by_cases connects : next = .connected
  · subst connects
    rw [if_neg fun both => both.1 rfl]
    unfold nodeAction
    rw [if_pos isLocal, written, if_neg]
    · exact .localConnected isLocal changes
    · rintro (same | unconnected)
      · exact changes same.symm
      · exact unconnected rfl
  · have skips : nodeAction config qsort (writeState config module node next) node
        (module.state node) outcome = writeState config module node next := by
      unfold nodeAction
      rw [if_pos isLocal, written, if_pos (.inr connects)]
    rw [skips, ite_self]
    exact .localUnconnected isLocal changes

section

variable (remote : node ≠ config.me) (changes : module.state node ≠ next)
  (allows : (module.state node).allows next = true)

include remote changes allows

theorem moduleSetState_unconnected (unconnected : module.state node ≠ .connected) :
    moduleSetState config qsort module node next outcome =
      let written := writeState config module node next
      let sent :=
        if next = .negotiating then nodeSendCtrlActive config qsort written node outcome
        else written
      if sent.state node ≠ .connected then sent
      else nodeAction config qsort sent node (module.state node) outcome := by
  have notForbidden :
      ¬ (next ≠ .none ∧ node ≠ config.me ∧ (module.state node).allows next = false) := by
    rw [allows]
    simp
  unfold moduleSetState
  rw [if_neg changes, if_neg notForbidden]
  simp only [and_iff_left remote, and_iff_left unconnected]

theorem moduleSetState_remote :
    SetStateResult config qsort module node outcome next
      (moduleSetState config qsort module node next outcome) := by
  have written : (writeState config module node next).state node = next :=
    Function.update_self _ _ _
  cases next with
  | none =>
    rw [moduleSetState_none]
    exact .none
  | pending =>
    have prev := ((NodeState.allows_pending_iff _).mp allows).resolve_right changes
    rw [moduleSetState_unconnected remote changes allows (by rw [prev]; decide)]
    simp only [reduceCtorEq, if_false, written]
    exact .pending remote prev
  | negotiating =>
    have prev := (NodeState.allows_negotiating_iff _).mp allows
    have unconnected : module.state node ≠ .connected := by
      rcases prev with prev | prev <;> rw [prev] <;> decide
    have stays : (nodeSendCtrlActive config qsort (writeState config module node .negotiating)
        node outcome).state node ≠ .connected :=
      nodeSendCtrlActive_state_ne (by rw [written]; decide) outcome
    rw [moduleSetState_unconnected remote changes allows unconnected]
    simp only [if_true]
    rw [if_pos stays]
    exact .negotiating remote prev
  | connected =>
    have prev := (NodeState.allows_connected_iff _).mp allows
    have unconnected : module.state node ≠ .connected := by
      rcases prev with prev | prev <;> rw [prev] <;> decide
    rw [moduleSetState_unconnected remote changes allows unconnected]
    simp only [reduceCtorEq, if_false]
    rw [if_neg (not_not.mpr written)]
    unfold nodeAction
    rw [if_neg remote, written]
    exact .connected remote prev

end

theorem moduleSetState_result
    (module : ModuleState ι) (node : ι) (next : NodeState) (outcome : CtrlOutcome) :
    SetStateResult config qsort module node outcome next
      (moduleSetState config qsort module node next outcome) := by
  by_cases same : module.state node = next
  · have unchanged : moduleSetState config qsort module node next outcome = module := if_pos same
    rw [unchanged]
    exact .same same
  by_cases isLocal : node = config.me
  · exact moduleSetState_local isLocal same
  cases allows : (module.state node).allows next with
  | true => exact moduleSetState_remote isLocal same allows
  | false =>
    have notNone : next ≠ .none := by
      rintro rfl
      rw [NodeState.allows_none] at allows
      cases allows
    unfold moduleSetState
    rw [if_neg same, if_pos ⟨notNone, isLocal, allows⟩]
    exact .forbidden isLocal same allows

end Results

section Counting

variable {α : Type u} [DecidableEq α] {items : List α} {value : α → NodeState} {item : α}
  {state next : NodeState}

theorem countP_update_of_not_mem (outside : item ∉ items) :
    items.countP (fun other => Function.update value item next other = state) =
      items.countP fun other => value other = state := by
  apply countP_congr
  intro other member
  have different : other ≠ item := fun same => outside (same ▸ member)
  rw [Function.update_of_ne different]

theorem countP_update_of_mem (distinct : items.Nodup) (inside : item ∈ items) :
    (items.countP (fun other => Function.update value item next other = state) : Int) =
      items.countP (fun other => value other = state) + (if next = state then 1 else 0) -
        if value item = state then 1 else 0 := by
  induction items with
  | nil => exact absurd inside not_mem_nil
  | cons first rest ih =>
    obtain ⟨notInRest, distinctRest⟩ := nodup_cons.mp distinct
    rw [countP_cons, countP_cons]
    rcases mem_cons.mp inside with rfl | later
    · rw [countP_update_of_not_mem notInRest, Function.update_self]
      simp only [decide_eq_true_eq]
      split_ifs <;> omega
    · have different : first ≠ item := fun same => notInRest (same ▸ later)
      rw [Function.update_of_ne different]
      push_cast
      rw [ih distinctRest later]
      omega

end Counting

section Types

variable {ι : Type u} (config : ModuleConfig ι) (type : NodeType)

theorem nodesOf_sublist :
    (config.nodesOf type).Sublist (config.masters ++ config.peers ++ config.pollers) := by
  cases type with
  | master => exact (sublist_append_left _ _).trans (sublist_append_left _ _)
  | peer => exact (sublist_append_right _ _).trans (sublist_append_left _ _)
  | poller => exact sublist_append_right _ _

theorem me_not_mem_nodesOf : config.me ∉ config.nodesOf type := by
  intro member
  apply (nodup_cons.mp config.distinct).1
  exact (nodesOf_sublist config type).subset member

theorem nodesOf_nodup : (config.nodesOf type).Nodup :=
  (nodup_cons.mp config.distinct).2.sublist (nodesOf_sublist config type)

theorem nodesOf_length : (config.nodesOf type).length < 2 ^ 32 :=
  lt_of_le_of_lt (((nodesOf_sublist config type).cons config.me).length_le) config.few

variable {config type} [DecidableEq ι] {node : ι}

theorem mem_nodesOf_of_typeOf (isType : config.typeOf node = some type) :
    node ∈ config.nodesOf type := by
  unfold ModuleConfig.typeOf at isType
  split_ifs at isType with inMasters inPeers inPollers
  · cases isType
    exact inMasters
  · cases isType
    exact inPeers
  · cases isType
    exact inPollers

theorem typeOf_of_mem_nodesOf (member : node ∈ config.nodesOf type) :
    config.typeOf node = some type := by
  have distinct := (nodup_cons.mp config.distinct).2
  obtain ⟨distinctUpper, _, apartPollers⟩ := nodup_append.mp distinct
  obtain ⟨_, _, apartPeers⟩ := nodup_append.mp distinctUpper
  unfold ModuleConfig.typeOf
  cases type with
  | master => exact if_pos member
  | peer =>
    rw [if_neg fun inMasters => apartPeers node inMasters node member rfl]
    exact if_pos member
  | poller =>
    have notUpper : node ∉ config.masters ++ config.peers := fun inUpper =>
      apartPollers node inUpper node member rfl
    rw [mem_append, not_or] at notUpper
    rw [if_neg notUpper.1, if_neg notUpper.2]
    exact if_pos member

theorem typeOf_eq_some_iff : config.typeOf node = some type ↔ node ∈ config.nodesOf type :=
  ⟨mem_nodesOf_of_typeOf, typeOf_of_mem_nodesOf⟩

theorem not_mem_nodesOf
    {other : NodeType} (isType : config.typeOf node = some type) (different : other ≠ type) :
    node ∉ config.nodesOf other := by
  intro member
  rw [typeOf_eq_some_iff.mpr member] at isType
  exact different (Option.some.inj isType)

end Types

section History

variable {ι : Type u} [DecidableEq ι]

def replay (state : ι → NodeState) : List (StateWrite ι) → Option (ι → NodeState)
  | [] => some state
  | write :: writes =>
    if state write.node = write.prev then
      replay (Function.update state write.node write.next) writes
    else
      none

theorem replay_append (state : ι → NodeState) (first second : List (StateWrite ι)) :
    replay state (first ++ second) = (replay state first).bind fun middle =>
      replay middle second := by
  induction first generalizing state with
  | nil => rfl
  | cons write first ih =>
    rw [cons_append, replay, replay]
    split
    · exact ih _
    · rfl

end History

variable {ι : Type u} [DecidableEq ι] (config : ModuleConfig ι)

/-- The counters are exact, and the history is allowed. -/
structure Exact (initial : ι → NodeState) (module : ModuleState ι) : Prop where
  counters : ∀ type, module.active type =
    (config.nodesOf type).countP fun node => module.state node = .connected
  history : replay initial module.writes = some module.state
  allowed : ∀ write ∈ module.writes, write.node ≠ config.me →
    write.prev ≠ write.next ∧ write.prev.allows write.next = true
  counted : ∀ write ∈ module.writes, 0 ≤ write.counter ∧ write.counter < 2 ^ 32

variable {config} {qsort : Sorting.Sorter (PeerNode ι)} {module after : ModuleState ι}
  {initial : ι → NodeState} {node : ι} {next : NodeState}

section

variable (exact : Exact config initial module)

include exact

theorem Exact.of_same (same : SameConnections module after) : Exact config initial after where
  counters := by
    intro type
    rw [same.active, same.state]
    exact exact.counters type
  history := by
    rw [same.writes, same.state]
    exact exact.history
  allowed := by
    rw [same.writes]
    exact exact.allowed
  counted := by
    rw [same.writes]
    exact exact.counted

theorem writeState_counter (changes : module.state node ≠ next) {type : NodeType}
    (isType : config.typeOf node = some type) :
    (module.active type : Int) +
        (if next = .connected then 1 else if module.state node = .connected then -1 else 0) =
      (config.nodesOf type).countP fun other =>
        Function.update module.state node next other = .connected := by
  rw [countP_update_of_mem (nodesOf_nodup config type) (typeOf_eq_some_iff.mp isType),
    exact.counters type]
  by_cases connects : next = .connected
  · rw [if_pos connects, if_pos connects, if_neg (connects ▸ changes)]
    omega
  · rw [if_neg connects, if_neg connects]
    split_ifs <;> omega

theorem Exact.written {active : NodeType → Nat} {counter : Int}
    (changes : module.state node ≠ next)
    (allows : node ≠ config.me → (module.state node).allows next = true)
    (bounds : 0 ≤ counter ∧ counter < 2 ^ 32)
    (counters : ∀ type, active type =
      (config.nodesOf type).countP fun other =>
        Function.update module.state node next other = .connected) :
    Exact config initial
      { module with
        active := active
        state := Function.update module.state node next
        writes := module.writes ++ [⟨node, module.state node, next, counter⟩] } where
  counters := counters
  history := by
    rw [replay_append, exact.history]
    simp [replay]
  allowed := forall_mem_append.mpr
    ⟨exact.allowed, forall_mem_singleton.mpr fun remote => ⟨changes, allows remote⟩⟩
  counted := forall_mem_append.mpr ⟨exact.counted, forall_mem_singleton.mpr bounds⟩

theorem Exact.writeState (changes : module.state node ≠ next)
    (allows : node ≠ config.me → (module.state node).allows next = true) :
    Exact config initial (writeState config module node next) := by
  unfold MonitorMerlin.writeState
  cases isType : config.typeOf node with
  | none =>
    have outside (type : NodeType) : node ∉ config.nodesOf type := by
      intro member
      rw [typeOf_eq_some_iff.mpr member] at isType
      cases isType
    apply exact.written changes allows ⟨le_refl 0, Int.pow_pos (by decide)⟩
    intro type
    rw [countP_update_of_not_mem (outside type)]
    exact exact.counters type
  | some type =>
    have bound : (config.nodesOf type).countP (fun other =>
        Function.update module.state node next other = .connected) < 2 ^ 32 :=
      lt_of_le_of_lt countP_le_length (nodesOf_length config type)
    dsimp only
    rw [writeState_counter exact changes isType]
    apply exact.written changes allows ⟨Int.natCast_nonneg _, Int.ofNat_lt.mpr bound⟩
    intro other
    by_cases same : other = type
    · rw [same, Function.update_self]
      omega
    · rw [Function.update_of_ne same, countP_update_of_not_mem (not_mem_nodesOf isType same)]
      exact exact.counters other

theorem Exact.setNone (node : ι) : Exact config initial (setNone config qsort module node) := by
  unfold MonitorMerlin.setNone
  split_ifs with same skipped
  · exact exact
  · exact exact.writeState same fun _ => NodeState.allows_none _
  · have written := exact.writeState same fun _ => NodeState.allows_none _
    exact (written.of_same (clearInfo_same _ node)).of_same (pgroupAssign_same _ _)

theorem Exact.nodeDisconnect (node : ι) :
    Exact config initial (nodeDisconnect config qsort module node) := by
  unfold MonitorMerlin.nodeDisconnect
  split
  · exact exact.setNone node
  · exact (exact.setNone node).of_same (clearInfo_same _ node)

theorem Exact.nodeSendCtrlActive (node : ι) (outcome : CtrlOutcome) :
    Exact config initial (nodeSendCtrlActive config qsort module node outcome) := by
  cases outcome with
  | sent => exact exact
  | failed => exact exact.nodeDisconnect node
  | encryptionFailed => exact (exact.nodeDisconnect node).nodeDisconnect node

theorem Exact.moduleSetState (node : ι) (next : NodeState) (outcome : CtrlOutcome) :
    Exact config initial (moduleSetState config qsort module node next outcome) := by
  have result : SetStateResult config qsort module node outcome next _ :=
    moduleSetState_result module node next outcome
  generalize MonitorMerlin.moduleSetState config qsort module node next outcome = after at result ⊢
  cases result with
  | same same => exact exact
  | forbidden remote changes notAllowed => exact exact.nodeDisconnect node
  | none => exact exact.setNone node
  | pending remote prev => exact exact.writeState (by rw [prev]; decide) fun _ => by rw [prev]; rfl
  | negotiating remote prev =>
    apply Exact.nodeSendCtrlActive
    apply exact.writeState
    · rcases prev with prev | prev <;> rw [prev] <;> decide
    · exact fun _ => (NodeState.allows_negotiating_iff _).mpr prev
  | connected remote prev =>
    apply Exact.of_same _ (pgroupAssign_same _ _)
    apply exact.writeState
    · rcases prev with prev | prev <;> rw [prev] <;> decide
    · exact fun _ => (NodeState.allows_connected_iff _).mpr prev
  | localUnconnected isLocal changes =>
    exact exact.writeState changes fun remote => absurd isLocal remote
  | localConnected isLocal changes =>
    apply Exact.nodeSendCtrlActive
    exact exact.writeState changes fun remote => absurd isLocal remote

theorem Exact.moduleStep (call : ModuleCall ι) :
    Exact config initial (moduleStep config qsort module call) := by
  cases call with
  | setState node next outcome => exact exact.moduleSetState node next outcome
  | disconnect node => exact exact.nodeDisconnect node
  | setInfo node start => exact exact.of_same ⟨rfl, rfl, rfl⟩

end

theorem initialModule_exact (config : ModuleConfig ι) (ipcState : NodeState) (ipcStart : Timeval) :
    Exact config (initialModule config ipcState ipcStart).state
      (initialModule config ipcState ipcStart) where
  counters := by
    intro type
    symm
    rw [initialModule, countP_eq_zero]
    intro node member
    have remote : node ≠ config.me := by
      rintro rfl
      exact me_not_mem_nodesOf config type member
    simp [remote]
  history := rfl
  allowed := forall_mem_nil _
  counted := forall_mem_nil _

theorem moduleRun_exact
    (config : ModuleConfig ι) (qsort : Sorting.Sorter (PeerNode ι)) (ipcState : NodeState)
    (ipcStart : Timeval) (calls : List (ModuleCall ι)) :
    Exact config (initialModule config ipcState ipcStart).state
      (moduleRun config qsort ipcState ipcStart calls) := by
  apply moduleRun_keeps config qsort
  · exact (initialModule_exact config ipcState ipcStart).of_same (pgroupAssign_same _ _)
  · intro module exact call _
    exact exact.moduleStep call

/-- After any calls the counters are the numbers of connected nodes, and the states come from
a history of allowed transitions in which no counter wrapped around. -/
theorem moduleRun_counters_exact
    (config : ModuleConfig ι) (qsort : Sorting.Sorter (PeerNode ι)) (ipcState : NodeState)
    (ipcStart : Timeval) (calls : List (ModuleCall ι)) :
    let module := moduleRun config qsort ipcState ipcStart calls
    (∀ type, module.active type =
      (config.nodesOf type).countP fun node => module.state node = .connected) ∧
    replay (initialModule config ipcState ipcStart).state module.writes = some module.state ∧
    (∀ write ∈ module.writes, write.node ≠ config.me →
      write.prev ≠ write.next ∧ write.prev.allows write.next = true) ∧
    (∀ write ∈ module.writes, 0 ≤ write.counter ∧ write.counter < 2 ^ 32) ∧
    ∀ node next outcome, node ≠ config.me → module.state node ≠ next →
      (module.state node).allows next = false →
      (moduleSetState config qsort module node next outcome).state node = .none := by
  intro module
  have exact := moduleRun_exact config qsort ipcState ipcStart calls
  refine ⟨exact.counters, exact.history, exact.allowed, exact.counted, ?_⟩
  intro node next outcome remote changes notAllowed
  have notNone : next ≠ .none := by
    rintro rfl
    rw [NodeState.allows_none] at notAllowed
    cases notAllowed
  unfold moduleSetState
  rw [if_neg changes, if_pos ⟨notNone, remote, notAllowed⟩, nodeDisconnect_state,
    Function.update_self]

end MonitorMerlin
