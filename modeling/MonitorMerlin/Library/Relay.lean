import Mathlib.Data.List.Flatten
import Mathlib.Data.List.Nodup
import Mathlib.Data.List.Perm.Subperm
import Mathlib.Logic.Relation

/-! # Relayed messages -/

namespace Relay

open List

universe u v

section Messages

variable {α : Type u}

/-- The messages in flight, and those handled. -/
structure Net (α : Type u) where
  inflight : List α
  handled : List α

inductive Step (relay : α → List α) : Net α → Net α → Prop where
  | handle {inflight rest handled : List α} {message : α}
      (picks : inflight.Perm (message :: rest)) :
      Step relay ⟨inflight, handled⟩ ⟨relay message ++ rest, handled ++ [message]⟩

def Reaches (relay : α → List α) (start : List α) (net : Net α) : Prop :=
  Relation.ReflTransGen (Step relay) ⟨start, []⟩ net

def Ends (relay : α → List α) : Nat → α → Prop
  | 0, message => relay message = []
  | depth + 1, message => ∀ next ∈ relay message, Ends relay depth next

/-- A message and all that follow from it. -/
def cascade (relay : α → List α) : Nat → α → List α
  | 0, message => [message]
  | depth + 1, message => message :: (relay message).flatMap (cascade relay depth)

variable {relay : α → List α} {depth : Nat} {message next : α} {start : List α}

section

variable (ends : Ends relay depth message)

include ends

theorem Ends.succ : Ends relay (depth + 1) message := by
  induction depth generalizing message with
  | zero =>
    intro next isNext
    rw [show relay message = [] from ends] at isNext
    cases isNext
  | succ depth hypothesis =>
    intro next isNext
    exact hypothesis (ends next isNext)

theorem Ends.le {more : Nat} (fewer : depth ≤ more) : Ends relay more message := by
  induction fewer with
  | refl => exact ends
  | step _ hypothesis => exact hypothesis.succ

theorem Ends.relayed (isNext : next ∈ relay message) : Ends relay depth next := by
  cases depth with
  | zero =>
    rw [show relay message = [] from ends] at isNext
    cases isNext
  | succ depth => exact (ends next isNext).succ

private theorem cascade_succ : cascade relay (depth + 1) message = cascade relay depth message := by
  induction depth generalizing message with
  | zero => simp only [cascade, show relay message = [] from ends, flatMap_nil]
  | succ depth hypothesis =>
    rw [cascade, cascade]
    congr 1
    apply flatMap_congr
    intro next isNext
    exact hypothesis (ends next isNext)

private theorem cascade_eq :
    cascade relay depth message = message :: (relay message).flatMap (cascade relay depth) := by
  rw [← cascade_succ ends, cascade]

end

private theorem mem_cascade_self : message ∈ cascade relay depth message := by
  cases depth <;> exact mem_cons_self

private theorem sublist_flatMap_cascade : start.Sublist (start.flatMap (cascade relay depth)) := by
  induction start with
  | nil => exact List.Sublist.slnil
  | cons message rest hypothesis =>
    rw [flatMap_cons, ← singleton_append]
    exact (singleton_sublist.mpr mem_cascade_self).append hypothesis

theorem flatMap_cascade_zero : start.flatMap (cascade relay 0) = start := flatMap_singleton' start

structure Accounts (relay : α → List α) (depth : Nat) (start : List α) (net : Net α) : Prop where
  ends : ∀ message ∈ net.inflight, Ends relay depth message
  total : (net.handled ++ net.inflight.flatMap (cascade relay depth)).Perm
    (start.flatMap (cascade relay depth))

theorem Accounts.step {before after : Net α}
    (accounts : Accounts relay depth start before) (steps : Step relay before after) :
    Accounts relay depth start after := by
  cases steps with
  | @handle inflight rest handled message picks =>
    have ends : ∀ other ∈ message :: rest, Ends relay depth other := fun other member =>
      accounts.ends other (picks.mem_iff.mpr member)
    have messageEnds := ends message mem_cons_self
    constructor
    · intro other member
      rcases mem_append.mp member with isNext | inRest
      · exact messageEnds.relayed isNext
      · exact ends other (mem_cons_of_mem _ inRest)
    · refine List.Perm.trans ?_ accounts.total
      rw [flatMap_append, append_assoc, singleton_append, ← cons_append,
        ← cascade_eq messageEnds, ← flatMap_cons]
      exact ((picks.flatMap_right _).symm).append_left _

variable {net : Net α}

section

variable (reaches : Reaches relay start net) (ends : ∀ message ∈ start, Ends relay depth message)

include reaches ends

theorem Reaches.accounts : Accounts relay depth start net := by
  induction reaches with
  | refl => exact ⟨ends, List.Perm.refl _⟩
  | tail _ steps hypothesis => exact hypothesis.step steps

theorem Reaches.handled_perm (completed : net.inflight = []) :
    net.handled.Perm (start.flatMap (cascade relay depth)) := by
  have total := (reaches.accounts ends).total
  rwa [completed, flatMap_nil, append_nil] at total

theorem Reaches.exists_completed : ∃ final, Reaches relay start final ∧ final.inflight = [] := by
  generalize size : (net.inflight.flatMap (cascade relay depth)).length = total
  induction total generalizing net with
  | zero =>
    refine ⟨net, reaches, sublist_nil.mp ?_⟩
    rw [← eq_nil_of_length_eq_zero size]
    exact sublist_flatMap_cascade
  | succ total hypothesis =>
    obtain ⟨inflight, handled⟩ := net
    cases inflight with
    | nil => cases size
    | cons message rest =>
      apply hypothesis (reaches.tail (Step.handle (List.Perm.refl _)))
      rw [flatMap_cons,
        cascade_eq ((reaches.accounts ends).ends message mem_cons_self),
        cons_append, length_cons, ← flatMap_append] at size
      exact Nat.succ.inj size

end

theorem nodup_handled_iff {β : Type v} (view : α → β)
    (ends : ∀ message ∈ start, Ends relay depth message) :
    (∀ net, Reaches relay start net → (net.handled.map view).Nodup) ↔
      ((start.flatMap (cascade relay depth)).map view).Nodup := by
  constructor
  · intro nodup
    obtain ⟨final, reaches, completed⟩ :=
      Reaches.exists_completed (Relation.ReflTransGen.refl (r := Step relay)) ends
    exact ((reaches.handled_perm ends completed).map view).nodup_iff.mp (nodup final reaches)
  · intro nodup net reaches
    have total := ((reaches.accounts ends).total.map view).nodup_iff.mpr nodup
    rw [map_append] at total
    exact total.of_append_left

end Messages

variable {ι : Type u}

def passOn (pass : ι → ι → List ι) (message : ι × ι) : List (ι × ι) :=
  (pass message.1 message.2).map fun next => (message.2, next)

def Runs (pass : ι → ι → List ι) : List (List ι) → ι × ι → Prop
  | [], message => pass message.1 message.2 = []
  | level :: ahead, message =>
    (pass message.1 message.2).Perm level ∧ ∀ next ∈ level, Runs pass ahead (message.2, next)

variable {pass : ι → ι → List ι} {level : List ι} {ahead : List (List ι)} {message : ι × ι}
  {depth : Nat} {sender : ι}

theorem Runs.ends (runs : Runs pass ahead message) : Ends (passOn pass) ahead.length message := by
  induction ahead generalizing message with
  | nil =>
    rw [length_nil, Ends, passOn, show pass message.1 message.2 = [] from runs]
    rfl
  | cons level ahead hypothesis =>
    intro next isNext
    obtain ⟨node, isNode, rfl⟩ := mem_map.mp isNext
    exact hypothesis (runs.2 node (runs.1.mem_iff.mp isNode))

def receivers (pass : ι → ι → List ι) (depth : Nat) (messages : List (ι × ι)) : List ι :=
  (messages.flatMap (cascade (passOn pass) depth)).map Prod.snd

theorem receivers_append (first second : List (ι × ι)) :
    receivers pass depth (first ++ second) =
      receivers pass depth first ++ receivers pass depth second := by
  rw [receivers, flatMap_append, map_append]
  rfl

variable {first second : List (ι × ι)}

theorem receivers_perm (perm : first.Perm second) :
    (receivers pass depth first).Perm (receivers pass depth second) := (perm.flatMap_right _).map _

theorem receivers_sublist (sublist : first.Sublist second) :
    (receivers pass depth first).Sublist (receivers pass depth second) := (sublist.flatMap _).map _

theorem receivers_subperm (subperm : first.Subperm second) :
    (receivers pass depth first).Subperm (receivers pass depth second) := by
  obtain ⟨middle, perm, sublist⟩ := subperm
  exact ⟨_, receivers_perm perm, receivers_sublist sublist⟩

theorem nodup_of_subperm {first second : List ι} (subperm : first.Subperm second)
    (nodup : second.Nodup) : first.Nodup := by
  obtain ⟨middle, perm, sublist⟩ := subperm
  exact perm.nodup_iff.mp (sublist.nodup nodup)

theorem sublist_receivers (messages : List (ι × ι)) :
    (messages.map Prod.snd).Sublist (receivers pass depth messages) := sublist_flatMap_cascade.map _

theorem receivers_singleton (ends : Ends (passOn pass) depth message) :
    receivers pass depth [message] = message.2 :: receivers pass depth (passOn pass message) := by
  rw [receivers, flatMap_singleton, cascade_eq ends]
  rfl

theorem receivers_ended {messages : List (ι × ι)}
    (ended : ∀ message ∈ messages, Runs pass [] message) :
    receivers pass depth messages = messages.map Prod.snd := by
  induction messages with
  | nil => rfl
  | cons message rest hypothesis =>
    obtain ⟨messageEnded, restEnded⟩ := forall_mem_cons.mp ended
    have none : passOn pass message = [] := messageEnded.ends
    rw [← singleton_append, receivers_append,
      receivers_singleton (messageEnded.ends.le (Nat.zero_le _)), none, hypothesis restEnded]
    rfl

theorem receivers_level_perm (deep : ahead.length ≤ depth)
    (runs : ∀ node ∈ level, Runs pass ahead (sender, node))
    (narrow : ∀ other ∈ (level :: ahead).dropLast, other.length = 1) :
    (receivers pass depth (level.map fun node => (sender, node))).Perm
      (level :: ahead).flatten := by
  induction ahead generalizing level sender with
  | nil =>
    rw [receivers_ended (by simpa using runs), map_map]
    simp [Function.comp_def]
  | cons second ahead hypothesis =>
    obtain ⟨node, rfl⟩ := length_eq_one_iff.mp (narrow level mem_cons_self)
    have nodeRuns := runs node (mem_singleton_self node)
    have rest := hypothesis (Nat.le_of_succ_le deep) nodeRuns.2
      fun other member => narrow other (mem_cons_of_mem _ member)
    rw [map_singleton, receivers_singleton (nodeRuns.ends.le deep), flatten_cons, singleton_append]
    exact ((receivers_perm (nodeRuns.1.map _)).trans rest).cons node

theorem not_nodup_receivers (deep : (level :: ahead).length ≤ depth) {first second next : ι}
    (firstRuns : Runs pass (level :: ahead) (sender, first))
    (secondRuns : Runs pass (level :: ahead) (sender, second)) (isNext : next ∈ level) :
    ¬ (receivers pass depth [(sender, first), (sender, second)]).Nodup := by
  have gets : ∀ node, Runs pass (level :: ahead) (sender, node) →
      next ∈ receivers pass depth [(sender, node)] := by
    intro node runs
    rw [receivers_singleton (runs.ends.le deep)]
    apply mem_cons_of_mem
    apply (sublist_receivers _).subset
    rw [passOn, map_map]
    exact mem_map.mpr ⟨next, runs.1.mem_iff.mpr isNext, rfl⟩
  intro nodup
  rw [← singleton_append, receivers_append] at nodup
  exact (nodup_append.mp nodup).2.2 next (gets first firstRuns) next (gets second secondRuns) rfl

end Relay
