import MonitorMerlin.Library.HalfTurn
import MonitorMerlin.Pgroup.Basic

/-! # The order of the nodes of a peer group -/

namespace MonitorMerlin

open HalfTurn MachineInt

universe u

structure Timeval.Bounded (time : Timeval) : Prop where
  secNonneg : 0 ≤ time.tvSec
  secBound : time.tvSec < 2 ^ 31
  usecNonneg : 0 ≤ time.tvUsec
  usecBound : time.tvUsec < 2 ^ 31

theorem Timeval.bounded_zero : Timeval.Bounded ⟨0, 0⟩ :=
  ⟨by decide, by decide, by decide, by decide⟩

variable {ι : Type u} {a b c : PeerNode ι}

def startGap (a b : PeerNode ι) : Int :=
  if a.start.tvSec = b.start.tvSec then
    a.start.tvUsec - b.start.tvUsec
  else
    a.start.tvSec - b.start.tvSec

theorem startGap_swap (a b : PeerNode ι) : startGap b a = -startGap a b := by
  unfold startGap
  split_ifs <;> omega

theorem startGap_of_eq (same : a.start.tvSec = b.start.tvSec) :
    startGap a b = a.start.tvUsec - b.start.tvUsec := if_pos same

theorem startGap_of_ne (differ : a.start.tvSec ≠ b.start.tvSec) :
    startGap a b = a.start.tvSec - b.start.tvSec := if_neg differ

variable [DecidableEq ι] {me : ι} {nodes : List (PeerNode ι)}

def PeerNode.sortClass (me : ι) (node : PeerNode ι) : Nat :=
  (if node.sortState me = .connected then 0 else 2) + if node.start.tvSec = 0 then 1 else 0

section

variable (sameNode : a.id = b.id → a = b)

include sameNode

theorem timevalComp_eq :
    timevalComp a b = truncateInt (startGap a b) := by
  unfold timevalComp startGap
  split_ifs with same
  · rw [sameNode same, Int.sub_self]
    rfl
  · rw [sameNode same, Int.sub_self]
    rfl
  · rfl
  · rfl

theorem cmpPeer_eq :
    cmpPeer me a b =
      if a.sortClass me < b.sortClass me then -1
      else if b.sortClass me < a.sortClass me then 1
      else truncateInt (startGap a b) := by
  have firstOnly : (a.sortState me ≠ b.sortState me ∧ a.sortState me = .connected) ↔
      a.sortState me = .connected ∧ b.sortState me ≠ .connected := by
    constructor
    · rintro ⟨differ, connected⟩
      exact ⟨connected, fun other => differ (connected.trans other.symm)⟩
    · rintro ⟨connected, other⟩
      exact ⟨fun same => other (same.symm.trans connected), connected⟩
  have secondOnly : (a.sortState me ≠ b.sortState me ∧ b.sortState me = .connected) ↔
      a.sortState me ≠ .connected ∧ b.sortState me = .connected := by
    constructor
    · rintro ⟨differ, connected⟩
      exact ⟨fun other => differ (other.trans connected.symm), connected⟩
    · rintro ⟨other, connected⟩
      exact ⟨fun same => other (same.trans connected), connected⟩
  rw [cmpPeer, timevalComp_eq sameNode]
  simp only [firstOnly, secondOnly, PeerNode.sortClass]
  by_cases connectedA : a.sortState me = .connected <;>
    by_cases connectedB : b.sortState me = .connected <;>
      by_cases startedA : a.start.tvSec = 0 <;>
        by_cases startedB : b.start.tvSec = 0 <;>
          simp [connectedA, connectedB, startedA, startedB]

theorem cmpPeer_neg_iff :
    cmpPeer me a b < 0 ↔
      a.sortClass me < b.sortClass me ∨
        a.sortClass me = b.sortClass me ∧ 2 ^ 31 ≤ startGap a b % 2 ^ 32 := by
  rw [cmpPeer_eq sameNode, ← truncateInt_neg_iff]
  split_ifs <;> omega

theorem cmpPeer_pos_iff :
    0 < cmpPeer me a b ↔
      b.sortClass me < a.sortClass me ∨ a.sortClass me = b.sortClass me ∧
        0 < startGap a b % 2 ^ 32 ∧ startGap a b % 2 ^ 32 < 2 ^ 31 := by
  rw [cmpPeer_eq sameNode, ← truncateInt_pos_iff]
  split_ifs <;> omega

end

def Incomparable (me : ι) (a b : PeerNode ι) : Prop := ¬ cmpPeer me a b < 0 ∧ ¬ cmpPeer me b a < 0

/-- `cmp_peer` is a strict weak order of the nodes. -/
structure PeersOrdered (me : ι) (nodes : List (PeerNode ι)) : Prop where
  asymm : ∀ a ∈ nodes, ∀ b ∈ nodes,
    ¬ (cmpPeer me a b < 0 ∧ cmpPeer me b a < 0) ∧ ¬ (0 < cmpPeer me a b ∧ 0 < cmpPeer me b a)
  trans : ∀ a ∈ nodes, ∀ b ∈ nodes, ∀ c ∈ nodes,
    cmpPeer me a b < 0 → cmpPeer me b c < 0 → cmpPeer me a c < 0
  incomparable : ∀ a ∈ nodes, ∀ b ∈ nodes, ∀ c ∈ nodes,
    Incomparable me a b → Incomparable me b c → Incomparable me a c
  separates : ∀ a ∈ nodes, ∀ b ∈ nodes,
    a.sortState me = .connected → b.sortState me = .connected →
      a.start ≠ ⟨0, 0⟩ → b.start ≠ ⟨0, 0⟩ → a.start ≠ b.start → ¬ Incomparable me a b

def classmates (me : ι) (nodes : List (PeerNode ι)) (node : PeerNode ι) : List (PeerNode ι) :=
  nodes.filter fun other => other.sortClass me = node.sortClass me

def concurrent (me : ι) (nodes : List (PeerNode ι)) (node : PeerNode ι) : List (PeerNode ι) :=
  (classmates me nodes node).filter fun other => other.start.tvSec = node.start.tvSec

/-- Start times that are subtracted are within half a turn. -/
structure StartsFit (me : ι) (nodes : List (PeerNode ι)) : Prop where
  secs : ∀ node ∈ nodes, Within (fun other => other.start.tvSec) (classmates me nodes node)
  usecs : ∀ node ∈ nodes, Within (fun other => other.start.tvUsec) (concurrent me nodes node)
  alike : ∀ a ∈ nodes, ∀ b ∈ nodes, ∀ c ∈ nodes,
    a.sortClass me = b.sortClass me → a.sortClass me = c.sortClass me →
      a.start.tvSec = b.start.tvSec → a.start.tvSec ≠ c.start.tvSec →
      (a.start.tvSec - c.start.tvSec) % 2 ^ 32 = 0 →
      (a.start.tvUsec - b.start.tvUsec) % 2 ^ 32 = 0
  apart : ∀ a ∈ nodes, ∀ b ∈ nodes,
    a.sortState me = .connected → b.sortState me = .connected →
      a.start ≠ ⟨0, 0⟩ → b.start ≠ ⟨0, 0⟩ → a.start ≠ b.start →
      a.sortClass me = b.sortClass me → startGap a b % 2 ^ 32 ≠ 0

theorem mem_classmates :
    a ∈ classmates me nodes b ↔ a ∈ nodes ∧ a.sortClass me = b.sortClass me := by
  simp [classmates]

theorem mem_concurrent :
    a ∈ concurrent me nodes b ↔
      (a ∈ nodes ∧ a.sortClass me = b.sortClass me) ∧ a.start.tvSec = b.start.tvSec := by
  simp [concurrent, mem_classmates]

section Necessary

variable (ordered : PeersOrdered me nodes)
  (sameNode : ∀ a ∈ nodes, ∀ b ∈ nodes, a.id = b.id → a = b)

include sameNode

theorem incomparable_iff (memberA : a ∈ nodes) (memberB : b ∈ nodes)
    (sameClass : a.sortClass me = b.sortClass me) :
    Incomparable me a b ↔ startGap a b % 2 ^ 32 = 0 := by
  have swap := startGap_swap a b
  rw [Incomparable, cmpPeer_neg_iff (sameNode a memberA b memberB),
    cmpPeer_neg_iff (sameNode b memberB a memberA)]
  omega

include ordered

theorem PeersOrdered.gap_trans (memberA : a ∈ nodes) (memberB : b ∈ nodes) (memberC : c ∈ nodes)
    (classA : a.sortClass me = c.sortClass me) (classB : b.sortClass me = c.sortClass me)
    (ab : 2 ^ 31 ≤ startGap a b % 2 ^ 32) (bc : 2 ^ 31 ≤ startGap b c % 2 ^ 32) :
    2 ^ 31 ≤ startGap a c % 2 ^ 32 := by
  have trans := ordered.trans a memberA b memberB c memberC
  rw [cmpPeer_neg_iff (sameNode a memberA b memberB),
    cmpPeer_neg_iff (sameNode b memberB c memberC),
    cmpPeer_neg_iff (sameNode a memberA c memberC)] at trans
  omega

theorem PeersOrdered.gap_asymm (memberA : a ∈ nodes) (memberB : b ∈ nodes)
    (sameClass : a.sortClass me = b.sortClass me) (ab : 2 ^ 31 ≤ startGap a b % 2 ^ 32) :
    ¬ 2 ^ 31 ≤ startGap b a % 2 ^ 32 := by
  have asymm := (ordered.asymm a memberA b memberB).1
  rw [cmpPeer_neg_iff (sameNode a memberA b memberB),
    cmpPeer_neg_iff (sameNode b memberB a memberA)] at asymm
  omega

theorem PeersOrdered.secs_transitive (node : PeerNode ι) :
    Transitive (fun other => other.start.tvSec) (classmates me nodes node) := by
  intro a memberA b memberB c memberC
  obtain ⟨inA, classA⟩ := mem_classmates.mp memberA
  obtain ⟨inB, classB⟩ := mem_classmates.mp memberB
  obtain ⟨inC, classC⟩ := mem_classmates.mp memberC
  have trans := ordered.gap_trans sameNode inA inB inC (classA.trans classC.symm)
    (classB.trans classC.symm)
  have asymm := ordered.gap_asymm sameNode inA inB (classA.trans classB.symm)
  unfold startGap at trans asymm
  simp only [Behind]
  split_ifs at trans asymm <;> omega

theorem PeersOrdered.usecs_transitive (node : PeerNode ι) :
    Transitive (fun other => other.start.tvUsec) (concurrent me nodes node) := by
  intro a memberA b memberB c memberC
  obtain ⟨⟨inA, classA⟩, secA⟩ := mem_concurrent.mp memberA
  obtain ⟨⟨inB, classB⟩, secB⟩ := mem_concurrent.mp memberB
  obtain ⟨⟨inC, classC⟩, secC⟩ := mem_concurrent.mp memberC
  have trans := ordered.gap_trans sameNode inA inB inC (classA.trans classC.symm)
    (classB.trans classC.symm)
  rwa [startGap_of_eq (secA.trans secB.symm), startGap_of_eq (secB.trans secC.symm),
    startGap_of_eq (secA.trans secC.symm)] at trans

theorem PeersOrdered.startsFit : StartsFit me nodes where
  secs node member :=
    (ordered.secs_transitive sameNode node).within
      (List.ne_nil_of_mem (mem_classmates.mpr ⟨member, rfl⟩))
  usecs node member :=
    (ordered.usecs_transitive sameNode node).within
      (List.ne_nil_of_mem (mem_concurrent.mpr ⟨⟨member, rfl⟩, rfl⟩))
  alike a memberA b memberB c memberC classB classC same differ turns := by
    have trans := ordered.incomparable a memberA c memberC b memberB
    rw [incomparable_iff sameNode memberA memberC classC,
      incomparable_iff sameNode memberC memberB (classC.symm.trans classB),
      incomparable_iff sameNode memberA memberB classB, startGap_of_ne differ,
      startGap_of_ne (same ▸ differ.symm), startGap_of_eq same] at trans
    omega
  apart a memberA b memberB connectedA connectedB startedA startedB differ sameClass := by
    rw [Ne, ← incomparable_iff sameNode memberA memberB sameClass]
    exact ordered.separates a memberA b memberB connectedA connectedB startedA startedB differ

end Necessary

section Sufficient

variable (fits : StartsFit me nodes)

include fits

section

variable (memberA : a ∈ nodes) (memberB : b ∈ nodes) (classB : b.sortClass me = a.sortClass me)

include memberA memberB classB

section

variable (memberC : c ∈ nodes) (classC : c.sortClass me = a.sortClass me)

include memberC classC

theorem StartsFit.exists_sec :
    ∃ first, (a.start.tvSec - first) % 2 ^ 32 < 2 ^ 31 ∧
      (b.start.tvSec - first) % 2 ^ 32 < 2 ^ 31 ∧ (c.start.tvSec - first) % 2 ^ 32 < 2 ^ 31 := by
  obtain ⟨first, -, within⟩ := fits.secs a memberA
  exact ⟨first.start.tvSec, within a (mem_classmates.mpr ⟨memberA, rfl⟩),
    within b (mem_classmates.mpr ⟨memberB, classB⟩),
    within c (mem_classmates.mpr ⟨memberC, classC⟩)⟩

theorem StartsFit.exists_usec (secB : b.start.tvSec = a.start.tvSec)
    (secC : c.start.tvSec = a.start.tvSec) :
    ∃ first, (a.start.tvUsec - first) % 2 ^ 32 < 2 ^ 31 ∧
      (b.start.tvUsec - first) % 2 ^ 32 < 2 ^ 31 ∧ (c.start.tvUsec - first) % 2 ^ 32 < 2 ^ 31 := by
  obtain ⟨first, -, within⟩ := fits.usecs a memberA
  exact ⟨first.start.tvUsec, within a (mem_concurrent.mpr ⟨⟨memberA, rfl⟩, rfl⟩),
    within b (mem_concurrent.mpr ⟨⟨memberB, classB⟩, secB⟩),
    within c (mem_concurrent.mpr ⟨⟨memberC, classC⟩, secC⟩)⟩

theorem StartsFit.gap_trans (ab : 2 ^ 31 ≤ startGap a b % 2 ^ 32)
    (bc : 2 ^ 31 ≤ startGap b c % 2 ^ 32) : 2 ^ 31 ≤ startGap a c % 2 ^ 32 := by
  obtain ⟨first, withinA, withinB, withinC⟩ :=
    fits.exists_sec memberA memberB classB memberC classC
  by_cases same : b.start.tvSec = a.start.tvSec ∧ c.start.tvSec = a.start.tvSec
  · obtain ⟨usec, usecA, usecB, usecC⟩ :=
      fits.exists_usec memberA memberB classB memberC classC same.1 same.2
    rw [startGap_of_eq same.1.symm] at ab
    rw [startGap_of_eq (same.1.trans same.2.symm)] at bc
    rw [startGap_of_eq same.2.symm]
    omega
  · unfold startGap at ab bc ⊢
    split_ifs at ab bc ⊢ <;> omega

theorem StartsFit.gap_zero_trans (ab : startGap a b % 2 ^ 32 = 0)
    (bc : startGap b c % 2 ^ 32 = 0) : startGap a c % 2 ^ 32 = 0 := by
  have alike := fits.alike a memberA c memberC b memberB classC.symm classB.symm
  unfold startGap at ab bc ⊢
  split_ifs at ab bc ⊢ <;> omega

end

theorem StartsFit.gap_asymm :
    ¬ (2 ^ 31 ≤ startGap a b % 2 ^ 32 ∧ 2 ^ 31 ≤ startGap b a % 2 ^ 32) := by
  rw [startGap_swap a b]
  by_cases same : b.start.tvSec = a.start.tvSec
  · obtain ⟨first, withinA, withinB, -⟩ :=
      fits.exists_usec memberA memberB classB memberB classB same same
    rw [startGap_of_eq same.symm]
    omega
  · obtain ⟨first, withinA, withinB, -⟩ := fits.exists_sec memberA memberB classB memberB classB
    rw [startGap_of_ne (Ne.symm same)]
    omega

end

theorem StartsFit.peersOrdered (sameNode : ∀ a ∈ nodes, ∀ b ∈ nodes, a.id = b.id → a = b) :
    PeersOrdered me nodes where
  asymm a memberA b memberB := by
    have swap := startGap_swap a b
    have asymm := fits.gap_asymm memberA memberB
    rw [cmpPeer_neg_iff (sameNode a memberA b memberB),
      cmpPeer_neg_iff (sameNode b memberB a memberA),
      cmpPeer_pos_iff (sameNode a memberA b memberB),
      cmpPeer_pos_iff (sameNode b memberB a memberA)]
    omega
  trans a memberA b memberB c memberC := by
    have trans classB := fits.gap_trans (c := c) memberA memberB classB memberC
    rw [cmpPeer_neg_iff (sameNode a memberA b memberB),
      cmpPeer_neg_iff (sameNode b memberB c memberC),
      cmpPeer_neg_iff (sameNode a memberA c memberC)]
    omega
  incomparable a memberA b memberB c memberC ab bc := by
    have sameClass {first second : PeerNode ι} (inFirst : first ∈ nodes) (inSecond : second ∈ nodes)
        (alike : Incomparable me first second) : second.sortClass me = first.sortClass me := by
      rw [Incomparable, cmpPeer_neg_iff (sameNode first inFirst second inSecond),
        cmpPeer_neg_iff (sameNode second inSecond first inFirst)] at alike
      omega
    have classB := sameClass memberA memberB ab
    have classC := (sameClass memberB memberC bc).trans classB
    rw [incomparable_iff sameNode memberA memberB classB.symm] at ab
    rw [incomparable_iff sameNode memberB memberC (classB.trans classC.symm)] at bc
    rw [incomparable_iff sameNode memberA memberC classC.symm]
    exact fits.gap_zero_trans memberA memberB classB memberC classC ab bc
  separates a memberA b memberB connectedA connectedB startedA startedB differ alike := by
    by_cases sameClass : a.sortClass me = b.sortClass me
    · rw [incomparable_iff sameNode memberA memberB sameClass] at alike
      exact fits.apart a memberA b memberB connectedA connectedB startedA startedB differ sameClass
        alike
    · rw [Incomparable, cmpPeer_neg_iff (sameNode a memberA b memberB),
        cmpPeer_neg_iff (sameNode b memberB a memberA)] at alike
      omega

end Sufficient

/-- `cmp_peer` orders the nodes of a set exactly if their start times fit. -/
theorem cmpPeer_ordered_iff (me : ι) (nodes : List (PeerNode ι))
    (sameNode : ∀ a ∈ nodes, ∀ b ∈ nodes, a.id = b.id → a = b) :
    PeersOrdered me nodes ↔ StartsFit me nodes :=
  ⟨fun ordered => ordered.startsFit sameNode, fun fits => fits.peersOrdered sameNode⟩

theorem cmpPeer_ordered_until_2038 :
    PeersOrdered 0
      [(⟨0, .none, ⟨5, 7⟩, 0⟩ : PeerNode Nat), ⟨1, .connected, ⟨2 ^ 31 - 1, 10 ^ 6 - 1⟩, 0⟩,
        ⟨2, .none, ⟨5 + 2 ^ 31, 0⟩, 0⟩, ⟨3, .connected, ⟨0, 0⟩, 0⟩] :=
  (cmpPeer_ordered_iff 0 _ (by decide)).mpr
    ⟨by decide, by decide, by decide, by decide⟩

theorem cmpPeer_not_ordered :
    cmpPeer 0 (⟨1, .connected, ⟨1, 0⟩, 0⟩ : PeerNode Nat) ⟨2, .connected, ⟨1 + 2 ^ 31, 0⟩, 0⟩ < 0 ∧
      cmpPeer 0 (⟨2, .connected, ⟨1 + 2 ^ 31, 0⟩, 0⟩ : PeerNode Nat) ⟨1, .connected, ⟨1, 0⟩, 0⟩ <
        0 ∧
      cmpPeer 0 (⟨1, .connected, ⟨1, 0⟩, 0⟩ : PeerNode Nat) ⟨2, .connected, ⟨1 + 2 ^ 32, 0⟩, 0⟩ =
        0 ∧
      ¬ PeersOrdered 0
        [(⟨1, .connected, ⟨1, 0⟩, 0⟩ : PeerNode Nat), ⟨2, .connected, ⟨1 + 2 ^ 31, 0⟩, 0⟩] := by
  refine ⟨by decide, by decide, by decide, fun ordered => ?_⟩
  exact (ordered.asymm _ List.mem_cons_self _ (List.mem_cons_of_mem _ List.mem_cons_self)).1
    ⟨by decide, by decide⟩

theorem StartsFit.of_bounded (me : ι) (bounded : ∀ node ∈ nodes, node.start.Bounded) :
    StartsFit me nodes := by
  have inside : ∀ node ∈ nodes, 0 ≤ node.start.tvSec ∧ node.start.tvSec < 2 ^ 31 ∧
      0 ≤ node.start.tvUsec ∧ node.start.tvUsec < 2 ^ 31 := fun node member =>
    have ⟨secNonneg, secBound, usecNonneg, usecBound⟩ := bounded node member
    ⟨secNonneg, secBound, usecNonneg, usecBound⟩
  constructor
  · intro node member
    refine Transitive.within ?_ (List.ne_nil_of_mem (mem_classmates.mpr ⟨member, rfl⟩))
    intro a memberA b memberB c memberC
    have insideA := inside a (mem_classmates.mp memberA).1
    have insideB := inside b (mem_classmates.mp memberB).1
    have insideC := inside c (mem_classmates.mp memberC).1
    simp only [Behind]
    omega
  · intro node member
    refine Transitive.within ?_ (List.ne_nil_of_mem (mem_concurrent.mpr ⟨⟨member, rfl⟩, rfl⟩))
    intro a memberA b memberB c memberC
    have insideA := inside a (mem_concurrent.mp memberA).1.1
    have insideB := inside b (mem_concurrent.mp memberB).1.1
    have insideC := inside c (mem_concurrent.mp memberC).1.1
    simp only [Behind]
    omega
  · intro a memberA b memberB c memberC _ _ same differ turns
    have insideA := inside a memberA
    have insideC := inside c memberC
    omega
  · intro a memberA b memberB _ _ _ _ differ _
    have insideA := inside a memberA
    have insideB := inside b memberB
    have apart : a.start.tvSec ≠ b.start.tvSec ∨ a.start.tvUsec ≠ b.start.tvUsec := by
      by_contra same
      rw [not_or, not_not, not_not] at same
      exact differ (Timeval.mk.injEq .. ▸ same)
    unfold startGap
    split_ifs <;> omega

theorem PeersOrdered.consistent (ordered : PeersOrdered me nodes)
    (sameNode : ∀ a ∈ nodes, ∀ b ∈ nodes, a.id = b.id → a = b) :
    Sorting.Consistent (cmpPeer me) nodes := by
  have swap : ∀ a ∈ nodes, ∀ b ∈ nodes, cmpPeer me a b < 0 ↔ 0 < cmpPeer me b a := by
    intro a memberA b memberB
    have asymm := (ordered.asymm a memberA b memberB).1
    have gap := startGap_swap a b
    rw [cmpPeer_neg_iff (sameNode a memberA b memberB),
      cmpPeer_neg_iff (sameNode b memberB a memberA)] at asymm
    rw [cmpPeer_neg_iff (sameNode a memberA b memberB),
      cmpPeer_pos_iff (sameNode b memberB a memberA)]
    omega
  refine ⟨swap, fun a memberA b memberB c memberC ab bc => ?_⟩
  rw [← Int.not_lt, ← swap b memberB a memberA] at ab
  rw [← Int.not_lt, ← swap c memberC b memberB] at bc
  rw [← Int.not_lt, ← swap c memberC a memberA]
  intro ca
  -- neither of the two pairs is strictly ordered, so all three nodes are incomparable
  have notAB : ¬ cmpPeer me a b < 0 := fun less =>
    bc (ordered.trans c memberC a memberA b memberB ca less)
  have notBC : ¬ cmpPeer me b c < 0 := fun less =>
    ab (ordered.trans b memberB c memberC a memberA less ca)
  exact (ordered.incomparable a memberA b memberB c memberC ⟨notAB, ab⟩ ⟨notBC, bc⟩).2 ca

theorem cmpPeer_consistent_of_bounded (me : ι) (bounded : ∀ node ∈ nodes, node.start.Bounded)
    (sameNode : ∀ a ∈ nodes, ∀ b ∈ nodes, a.id = b.id → a = b) :
    Sorting.Consistent (cmpPeer me) nodes :=
  ((StartsFit.of_bounded me bounded).peersOrdered sameNode).consistent sameNode

end MonitorMerlin
