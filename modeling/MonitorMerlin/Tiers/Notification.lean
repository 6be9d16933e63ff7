import MonitorMerlin.Tiers.TwoTier

/-! # Who notifies -/

namespace MonitorMerlin

open List

universe u

variable {ι : Type u} [DecidableEq ι]

/-- `pgroup_num_notify`. -/
def pgroupNumNotify (node : ClusterNode ι) (owner : ι) : Nat :=
  match (node.config.pgroup owner).bind node.module.groupAt with
  | none => 0
  | some group => (group.nodes.take group.activeNodes).countP fun other => node.notifies other

/-- `hook_notification` at the start. -/
def hookNotification (node : ClusterNode ι) (kind : ObjectKind) (id : Nat) : Option NebResult :=
  (objectNode kind node.config node.module id).map fun owner =>
    if node.module.active .master ≠ 0 ∧ node.notifies node.config.me = false then
      .cancel "Notification will be handled by master(s)"
    else if owner = node.config.me then
      .ok
    else
      match node.config.typeOf owner with
      | some .poller =>
        if node.notifies owner then
          .cancel ("Notification will be handled by a poller (" ++ node.name owner ++ ")")
        else if (node.config.peers.length = 0 ∨
            shouldRunCheck node.config node.module id = true) ∧ pgroupNumNotify node owner = 0 then
          .ok
        else
          .cancel "Poller can't notify, a peer will notify"
      | some .peer => .cancel ("Notification will be handled by a peer (" ++ node.name owner ++ ")")
      | _ => .ok

def CancelsNotification (node : ClusterNode ι) (kind : ObjectKind) (id : Nat) : Prop :=
  ∃ description, hookNotification node kind id = some (.cancel description)

namespace TwoTier

variable {system : TwoTier ι} {kind : ObjectKind} {id : Nat} {tier : Tier ι} {me owner : ι}

def OneNotifies (system : TwoTier ι) (kind : ObjectKind) (id : Nat) : Prop :=
  ∃ notifier ∈ system.holders kind id,
    hookNotification (system.node notifier.1) kind notifier.2 = some .ok ∧
    ∀ other ∈ system.holders kind id, other.1 ≠ notifier.1 →
      CancelsNotification (system.node other.1) kind other.2

section

variable (isMaster : me ∈ system.masters)

include isMaster

theorem activeMasters_master : (system.node me).module.active .master = 0 := by
  have view := system.isMaster me isMaster
  rw [view.connected.active, ModuleConfig.nodesOf, view.top, length_nil]

theorem master_allows_own (bound : id < system.total kind)
    (isOwner : system.owner kind id = some me) :
    hookNotification (system.node me) kind id = some .ok := by
  rw [hookNotification, objectNode_master isMaster bound, isOwner, Option.map_some,
    if_neg (fun both => both.1 (activeMasters_master isMaster)),
    if_pos (system.isMaster me isMaster).isMe.symm]

theorem master_cancels_peer (bound : id < system.total kind)
    (isOwner : system.owner kind id = some owner) (ownerMaster : owner ∈ system.masters)
    (remote : owner ≠ me) : CancelsNotification (system.node me) kind id := by
  have notMe : owner ≠ (system.node me).config.me := by
    rw [(system.isMaster me isMaster).isMe]
    exact remote
  have isPeer : owner ∈ (system.node me).config.nodesOf .peer :=
    (mem_cons.mp ((masters_perm isMaster).mem_iff.mp ownerMaster)).resolve_left remote
  rw [CancelsNotification, hookNotification, objectNode_master isMaster bound, isOwner,
    Option.map_some, if_neg (fun both => both.1 (activeMasters_master isMaster)), if_neg notMe,
    typeOf_eq_some_iff.mpr isPeer]
  exact ⟨_, rfl⟩

theorem runs_iff (id : Nat) :
    ((system.node me).config.peers.length = 0 ∨
        shouldRunCheck (system.node me).config (system.node me).module id = true) ↔
      system.masters[id % system.masters.length]? = some me := by
  have view := system.isMaster me isMaster
  rw [view.connected.shouldRunCheck_iff, view.order, view.isMe]
  apply or_iff_right_of_imp
  intro alone
  have perm := masters_perm isMaster
  rw [eq_nil_of_length_eq_zero alone, perm_singleton] at perm
  rw [perm, length_singleton, Nat.mod_one]
  rfl

theorem pgroupNumNotify_master (isTier : tier ∈ system.groups) (inTier : owner ∈ tier.pollers) :
    pgroupNumNotify (system.node me) owner =
      tier.pollers.countP fun poller => system.notifies poller := by
  have view := system.isMaster me isMaster
  obtain ⟨index, pair, found⟩ := exists_foundAt isMaster isTier
  have isRef : (system.node me).config.pgroup owner = some (.poller index) :=
    pgroup_eq_some_iff.mpr (found.mem_members.mpr inTier)
  rw [pgroupNumNotify, isRef, Option.bind_some, found.state]
  dsimp only
  rw [view.connected.activeNodes found.state, take_length, found.hits.nodes]
  apply countP_congr
  intro poller inPollers
  rw [view.flags tier isTier poller inPollers]

theorem hookNotification_polled (bound : id < system.total kind) (isTier : tier ∈ system.groups)
    (isOwner : system.owner kind id = some owner) (inTier : owner ∈ tier.pollers) :
    hookNotification (system.node me) kind id = some (if system.notifies owner then
        .cancel ("Notification will be handled by a poller (" ++ (system.node me).name owner ++ ")")
      else if system.masters[id % system.masters.length]? = some me ∧
          tier.pollers.countP (fun poller => system.notifies poller) = 0 then
        .ok
      else
        .cancel "Poller can't notify, a peer will notify") := by
  have view := system.isMaster me isMaster
  have remote : owner ≠ (system.node me).config.me := by
    rw [view.isMe]
    exact master_ne_poller isMaster isTier inTier
  rw [hookNotification, objectNode_master isMaster bound, isOwner, Option.map_some,
    if_neg (fun both => both.1 (activeMasters_master isMaster)), if_neg remote,
    typeOf_poller isMaster isTier inTier]
  simp only [runs_iff isMaster, pgroupNumNotify_master isMaster isTier inTier,
    view.flags tier isTier owner inTier]

end

section

variable (isTier : tier ∈ system.groups) (isPoller : me ∈ tier.pollers)

include isTier isPoller

theorem activeMasters_poller : (system.node me).module.active .master ≠ 0 := by
  have view := system.isPoller tier isTier me isPoller
  rw [view.connected.active, ModuleConfig.nodesOf, view.masters.length_eq]
  exact fun none => system.someMaster (eq_nil_of_length_eq_zero none)

theorem poller_allows_own (inMap : id ∈ tier.map kind) (isOwner : system.owner kind id = some me)
    (notifies : system.notifies me = true) :
    hookNotification (system.node me) kind (system.localId me kind id) = some .ok := by
  have view := system.isPoller tier isTier me isPoller
  have loud : ¬ ((system.node me).module.active .master ≠ 0 ∧ system.notifies me = false) := by
    rw [notifies]
    simp
  rw [hookNotification, objectNode_poller isTier isPoller inMap, isOwner, Option.map_some,
    view.isMe, view.flags, if_neg loud, if_pos rfl]

theorem poller_cancels (inMap : id ∈ tier.map kind) (isOwner : system.owner kind id = some owner)
    (inTier : owner ∈ tier.pollers) (silent : system.notifies me = false ∨ owner ≠ me) :
    CancelsNotification (system.node me) kind (system.localId me kind id) := by
  have view := system.isPoller tier isTier me isPoller
  rw [CancelsNotification, hookNotification, objectNode_poller isTier isPoller inMap, isOwner,
    Option.map_some, view.isMe, view.flags]
  by_cases off : system.notifies me = false
  · rw [if_pos ⟨activeMasters_poller isTier isPoller, off⟩]
    exact ⟨_, rfl⟩
  · have remote := silent.resolve_left off
    have isPeer : owner ∈ (system.node me).config.nodesOf .peer :=
      (mem_cons.mp ((pollers_perm isTier isPoller).mem_iff.mp inTier)).resolve_left remote
    rw [if_neg fun both => off both.2, if_neg remote, typeOf_eq_some_iff.mpr isPeer]
    exact ⟨_, rfl⟩

end

theorem oneNotifies_unpolled
    (bound : id < system.total kind) (unpolled : system.tierOf kind id = none) :
    system.OneNotifies kind id := by
  obtain ⟨owner, isMaster, isOwner⟩ := exists_owner_unpolled unpolled
  refine ⟨(owner, id), mem_holders.mpr (.inl ⟨isMaster, rfl⟩),
    master_allows_own isMaster bound isOwner, ?_⟩
  intro other isHolder different
  rcases mem_holders.mp isHolder with ⟨otherMaster, same⟩ | ⟨tier, polled, _⟩
  · rw [same]
    exact master_cancels_peer otherMaster bound isOwner isMaster different.symm
  · rw [unpolled] at polled
    cases polled

theorem mem_holders_polled (polled : system.tierOf kind id = some tier) {holder : ι × Nat}
    (isHolder : holder ∈ system.holders kind id) :
    (holder.1 ∈ system.masters ∧ holder.2 = id) ∨
      (holder.1 ∈ tier.pollers ∧ holder.2 = system.localId holder.1 kind id) := by
  rcases mem_holders.mp isHolder with isMaster | ⟨other, same, isPoller⟩
  · exact .inl isMaster
  · rw [polled] at same
    cases same
    exact .inr isPoller

section

variable (bound : id < system.total kind) (polled : system.tierOf kind id = some tier)
  (isOwner : system.owner kind id = some owner) (inTier : owner ∈ tier.pollers)

include bound polled isOwner inTier

theorem oneNotifies_of_owner (notifies : system.notifies owner = true) :
    system.OneNotifies kind id := by
  obtain ⟨isTier, inMap⟩ := tierOf_some polled
  refine ⟨(owner, system.localId owner kind id),
    mem_holders.mpr (.inr ⟨tier, polled, inTier, rfl⟩),
    poller_allows_own isTier inTier inMap isOwner notifies, ?_⟩
  intro other isHolder different
  rcases mem_holders_polled polled isHolder with ⟨isMaster, same⟩ | ⟨isPoller, same⟩
  · rw [same, CancelsNotification, hookNotification_polled isMaster bound isTier isOwner inTier,
      if_pos notifies]
    exact ⟨_, rfl⟩
  · rw [same]
    exact poller_cancels isTier isPoller inMap isOwner inTier (.inr different.symm)

theorem oneNotifies_iff_of_silent (silent : system.notifies owner = false) :
    system.OneNotifies kind id ↔ ∀ poller ∈ tier.pollers, system.notifies poller = false := by
  obtain ⟨isTier, inMap⟩ := tierOf_some polled
  have onMaster {me : ι} (isMaster : me ∈ system.masters) :=
    hookNotification_polled isMaster bound isTier isOwner inTier
  have onPoller {me : ι} (isPoller : me ∈ tier.pollers) :
      CancelsNotification (system.node me) kind (system.localId me kind id) := by
    apply poller_cancels isTier isPoller inMap isOwner inTier
    by_cases own : owner = me
    · exact .inl (own ▸ silent)
    · exact .inr own
  have loud : ¬ system.notifies owner = true := by
    rw [silent]
    decide
  have noneCount : tier.pollers.countP (fun poller => system.notifies poller) = 0 ↔
      ∀ poller ∈ tier.pollers, system.notifies poller = false := by
    rw [countP_eq_zero]
    simp only [Bool.not_eq_true]
  rw [← noneCount]
  constructor
  · rintro ⟨notifier, isHolder, allows, _⟩
    rcases mem_holders_polled polled isHolder with ⟨isMaster, same⟩ | ⟨isPoller, same⟩
    · rw [same, onMaster isMaster, if_neg loud] at allows
      split at allows
      · rename_i both
        exact both.2
      · cases allows
    · obtain ⟨_, cancels⟩ := onPoller isPoller
      rw [same, cancels] at allows
      cases allows
  · intro none
    have within : id % system.masters.length < system.masters.length :=
      Nat.mod_lt _ (length_pos_of_ne_nil system.someMaster)
    have isMaster := getElem_mem within
    have atPlace := getElem?_eq_getElem within
    generalize system.masters[id % system.masters.length] = master at isMaster atPlace
    refine ⟨(master, id), mem_holders.mpr (.inl ⟨isMaster, rfl⟩), ?_, ?_⟩
    · rw [onMaster isMaster, if_neg loud, if_pos ⟨atPlace, none⟩]
    · intro other isHolder different
      rcases mem_holders_polled polled isHolder with ⟨otherMaster, same⟩ | ⟨isPoller, same⟩
      · rw [same, CancelsNotification, onMaster otherMaster, if_neg loud, if_neg]
        · exact ⟨_, rfl⟩
        · rintro ⟨here, _⟩
          rw [atPlace] at here
          exact different (Option.some.inj here).symm
      · rw [same]
        exact onPoller isPoller

end

end TwoTier

/-- One node notifies and all others cancel exactly when the object is of no poller group, or
its owner notifies, or no poller of its group does. -/
theorem one_notifier_iff
    (system : TwoTier ι) (kind : ObjectKind) (id : Nat) (bound : id < system.total kind) :
    system.OneNotifies kind id ↔
      ∀ tier, system.tierOf kind id = some tier →
        (∃ owner, system.owner kind id = some owner ∧ system.notifies owner = true) ∨
          ∀ poller ∈ tier.pollers, system.notifies poller = false := by
  cases polled : system.tierOf kind id with
  | none =>
    apply iff_of_true (TwoTier.oneNotifies_unpolled bound polled)
    intro tier found
    cases found
  | some tier =>
    obtain ⟨owner, inTier, isOwner⟩ := TwoTier.exists_owner_polled polled
    cases notifies : system.notifies owner with
    | true =>
      apply iff_of_true (TwoTier.oneNotifies_of_owner bound polled isOwner inTier notifies)
      exact fun _ _ => .inl ⟨owner, isOwner, notifies⟩
    | false =>
      rw [TwoTier.oneNotifies_iff_of_silent bound polled isOwner inTier notifies]
      constructor
      · intro none other same
        cases same
        exact .inr none
      · intro condition
        rcases condition tier rfl with ⟨other, isOther, loud⟩ | none
        · rw [isOwner] at isOther
          cases isOther
          rw [notifies] at loud
          cases loud
        · exact none

theorem one_notifier_silent_pollers :
    1 < (twoBelow fun node => node = 0).total .host ∧
    (twoBelow fun node => node = 0).OneNotifies .host 1 := by
  apply And.intro (by decide)
  apply (one_notifier_iff (twoBelow fun node => node = 0) .host 1 (by decide)).mpr
  intro tier found
  cases found
  exact .inr (by decide)

theorem no_notifier_twoBelow : ¬ (twoBelow fun node => node ≠ 1).OneNotifies .host 1 := by
  have allCancel : ∀ holder ∈ (twoBelow fun node => node ≠ 1).holders .host 1,
      hookNotification ((twoBelow fun node => node ≠ 1).node holder.1) .host holder.2 ≠
        some .ok := by
    decide +kernel
  rintro ⟨notifier, isHolder, allows, _⟩
  exact allCancel notifier isHolder allows

end MonitorMerlin
