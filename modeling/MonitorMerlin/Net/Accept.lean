import Mathlib.Data.Finset.Basic
import MonitorMerlin.Net.Negotiate
import MonitorMerlin.Net.Receive

/-! # The sockets of a node -/

namespace MonitorMerlin

structure Descriptors where
  opened : Finset Int
  registered : Finset Int
  deriving DecidableEq

namespace Descriptors

def close (fds : Descriptors) (sock : Int) : Descriptors :=
  { fds with opened := fds.opened.erase sock }

def iobrokerUnregister (fds : Descriptors) (sock : Int) : Descriptors :=
  { fds with registered := fds.registered.erase sock }

def iobrokerClose (fds : Descriptors) (sock : Int) : Descriptors :=
  (fds.iobrokerUnregister sock).close sock

def iobrokerRegister (fds : Descriptors) (sock : Int) : Descriptors :=
  if sock ∈ fds.opened then
    { fds with registered := insert sock fds.registered }
  else
    fds

variable (fds : Descriptors) (sock : Int)

@[simp]
theorem opened_close : (fds.close sock).opened = fds.opened.erase sock := rfl

@[simp]
theorem opened_iobrokerClose : (fds.iobrokerClose sock).opened = fds.opened.erase sock := rfl

@[simp]
theorem opened_iobrokerUnregister : (fds.iobrokerUnregister sock).opened = fds.opened := rfl

@[simp]
theorem opened_iobrokerRegister : (fds.iobrokerRegister sock).opened = fds.opened := by
  unfold iobrokerRegister
  split
  · rfl
  · rfl

variable {fds sock}

theorem mem_registered_iobrokerRegister (isOpen : sock ∈ fds.opened) :
    sock ∈ (fds.iobrokerRegister sock).registered := by
  unfold iobrokerRegister
  rw [if_pos isOpen]
  exact Finset.mem_insert_self sock fds.registered

end Descriptors

structure SocketNode where
  node : RecvNode
  connSock : Int
  fds : Descriptors
  deriving DecidableEq

namespace SocketNode

variable (this : SocketNode)

/-- `node_disconnect`. -/
def disconnect : SocketNode :=
  { this with
    node := this.node.disconnect
    fds := this.fds.iobrokerClose this.node.sock }

def setSock (sock : Int) : SocketNode :=
  { this with node := { this.node with sock := sock } }

/-- `node_set_state` to `STATE_NEGOTIATING`. -/
def setNegotiating (sent : Bool) : SocketNode :=
  if this.node.state = .negotiating then
    this
  else if this.node.state.allows .negotiating = false then
    this.disconnect
  else
    let moved := { this with node := { this.node with state := .negotiating } }
    if 0 ≤ this.node.sock ∧ sent = false then moved.disconnect else moved

def startInput : SocketNode :=
  { this with fds := this.fds.iobrokerRegister this.node.sock }

def applyVerdict (lis : Int) : Verdict → SocketNode
  | .use _ => this
  | .killBoth => { this.disconnect with fds := this.disconnect.fds.iobrokerClose lis }

end SocketNode

open SocketNode

section Functions

variable (order : ByteOrder) (names : SocketNames)

def acceptChoice (this : SocketNode) (sock : Int) : SocketNode :=
  match this.node.state with
  | .none => this.disconnect.setSock sock
  | _ =>
    if 0 ≤ this.node.sock then
      let verdict := netNegotiateSocket order names this.node.sock sock
      let after := this.applyVerdict sock verdict
      if verdict.returned ≠ sock then { after with fds := after.fds.close sock } else after
    else
      this

/-- `node_accept`. -/
def nodeAcceptSocket (this : SocketNode) (sock : Int) (sent : Bool) : SocketNode :=
  ((acceptChoice order names this sock).setNegotiating sent).startInput

/-- `conn_writable`. -/
def connWritable (this : SocketNode) (sd : Int) (connected sent : Bool) : SocketNode :=
  let this := { this with fds := this.fds.iobrokerUnregister sd }
  if this.node.sock < 0 then
    let owner := { this.setSock sd with connSock := -1 }
    if connected then
      owner.startInput.setNegotiating sent
    else
      { owner.disconnect with fds := owner.disconnect.fds.close sd }
  else
    let verdict := netNegotiateSocket order names this.connSock this.node.sock
    let after := this.applyVerdict this.node.sock verdict
    if verdict.returned < 0 then
      after.disconnect
    else
      let other := if verdict.returned = this.connSock then this.node.sock else this.connSock
      let kept := { after.setSock verdict.returned with
        connSock := -1
        fds := after.fds.iobrokerClose other }
      (kept.setNegotiating sent).startInput

end Functions

theorem node_setNegotiating (this : SocketNode) (sent : Bool) :
    (this.setNegotiating sent).node =
      nodeSetState this.node .negotiating (sent || decide (this.node.sock < 0)) := by
  unfold setNegotiating nodeSetState
  by_cases same : this.node.state = .negotiating
  · rw [if_pos same, if_pos same]
  · rw [if_neg same, if_neg same]
    by_cases forbidden : this.node.state.allows .negotiating = false
    · rw [if_pos forbidden, if_pos forbidden]
      rfl
    · rw [if_neg forbidden, if_neg forbidden]
      by_cases failed : 0 ≤ this.node.sock ∧ sent = false
      · rw [if_pos failed, if_pos (by simp [failed])]
        rfl
      · rw [if_neg failed, if_neg]
        rintro ⟨-, unsent⟩
        simp only [Bool.or_eq_false_iff, decide_eq_false_iff_not, Int.not_lt] at unsent
        exact failed ⟨unsent.2, unsent.1⟩

def Verdict.negotiation : Verdict → Negotiation
  | .use _ => .keepsOne
  | .killBoth => .killsBoth

section Accepting

variable (order : ByteOrder) (names : SocketNames)

theorem node_acceptChoice (this : SocketNode) (sock : Int) :
    (acceptChoice order names this sock).node = if this.node.state = .none then
        { this.node.disconnect with sock := sock }
      else if 0 ≤ this.node.sock ∧
          (netNegotiateSocket order names this.node.sock sock).negotiation = .killsBoth then
        this.node.disconnect
      else
        this.node := by
  have applied (verdict : Verdict) :
      (this.applyVerdict sock verdict).node =
        if verdict.negotiation = .killsBoth then this.node.disconnect else this.node := by
    cases verdict with
    | use chosen | killBoth => rfl
  by_cases unconnected : this.node.state = .none
  · simp only [acceptChoice, unconnected, if_true]
    rfl
  · have choice : (acceptChoice order names this sock).node = if 0 ≤ this.node.sock then
            (this.applyVerdict sock (netNegotiateSocket order names this.node.sock sock)).node
          else
            this.node := by
      unfold acceptChoice
      cases state : this.node.state with
      | none => exact absurd state unconnected
      | pending | negotiating | connected =>
        simp only
        split
        · split
          · rfl
          · rfl
        · rfl
    rw [choice, if_neg unconnected, applied]
    by_cases valid : 0 ≤ this.node.sock
    · rw [if_pos valid]
      simp only [valid, true_and]
    · rw [if_neg valid, if_neg (fun both => valid both.1)]

end Accepting

structure SocketNode.Valid (this : SocketNode) : Prop where
  descriptors : ∀ sock ∈ this.fds.opened, 0 ≤ sock
  sock : 0 ≤ this.node.sock → this.node.sock ∈ this.fds.opened

structure Installed (before after : SocketNode) (sock chosen : Int) : Prop where
  installed : after.node.sock = chosen
  opened : chosen ∈ after.fds.opened
  registered : chosen ∈ after.fds.registered
  closed : ∀ other, other = sock ∨ other = before.node.sock → other ≠ chosen →
    other ∉ after.fds.opened
  referenced : ∀ other, other = sock ∨ other = before.node.sock →
    other ∈ after.fds.opened → after.node.sock = other

variable {sock chosen : Int}

theorem Installed.of_closed {before after : SocketNode} (sameSock : after.node.sock = chosen)
    (isOpen : chosen ∈ after.fds.opened) (registered : chosen ∈ after.fds.registered)
    (closed : ∀ other, other = sock ∨ other = before.node.sock → other ≠ chosen →
      other ∉ after.fds.opened) : Installed before after sock chosen := by
  refine ⟨sameSock, isOpen, registered, closed, ?_⟩
  intro other isOne stillOpen
  rw [sameSock]
  by_contra differs
  exact closed other isOne (fun same => differs same.symm) stillOpen

def SocketNode.StaysUp (this : SocketNode) (sent : Bool) : Prop :=
  this.node.state = .negotiating ∨
    (this.node.state ≠ .connected ∧ (0 ≤ this.node.sock → sent = true))

variable {sent : Bool} {this : SocketNode}

theorem sock_setNegotiating_of_down (down : ¬ this.StaysUp sent) :
    (this.setNegotiating sent).node.sock = -1 := by
  unfold StaysUp at down
  push Not at down
  obtain ⟨other, drops⟩ := down
  unfold setNegotiating
  rw [if_neg other]
  split
  · rfl
  · rename_i allowed
    have failed : 0 ≤ this.node.sock ∧ sent ≠ true := by
      apply drops
      intro connected
      rw [connected] at allowed
      exact allowed rfl
    rw [if_pos ⟨failed.1, Bool.eq_false_iff.mpr failed.2⟩]
    rfl

theorem setNegotiating_of_up (up : this.StaysUp sent) :
    (this.setNegotiating sent).node.sock = this.node.sock ∧
      (this.setNegotiating sent).fds = this.fds := by
  unfold setNegotiating
  rcases up with same | ⟨unconnected, sends⟩
  · rw [if_pos same]
    exact ⟨rfl, rfl⟩
  · by_cases same : this.node.state = .negotiating
    · rw [if_pos same]
      exact ⟨rfl, rfl⟩
    · have allowed : this.node.state.allows .negotiating = true := by
        rw [NodeState.allows_negotiating_iff]
        cases state : this.node.state with
        | none | pending => simp
        | negotiating => exact absurd state same
        | connected => exact absurd state unconnected
      rw [if_neg same, if_neg (by simp [allowed]), if_neg]
      · exact ⟨rfl, rfl⟩
      · rintro ⟨valid, unsent⟩
        rw [sends valid] at unsent
        cases unsent

theorem installed_startInput_iff {before choice : SocketNode} (valid : 0 ≤ chosen)
    (settled : choice.node.sock = chosen → chosen ∈ choice.fds.opened ∧
      ∀ other, other = sock ∨ other = before.node.sock → other ≠ chosen →
        other ∉ choice.fds.opened) :
    Installed before (choice.setNegotiating sent).startInput sock chosen ↔
      choice.node.sock = chosen ∧ choice.StaysUp sent := by
  constructor
  · intro installed
    have sameSock : (choice.setNegotiating sent).node.sock = chosen := installed.installed
    by_cases up : choice.StaysUp sent
    · rw [(setNegotiating_of_up up).1] at sameSock
      exact ⟨sameSock, up⟩
    · rw [sock_setNegotiating_of_down up] at sameSock
      omega
  · rintro ⟨sameSock, up⟩
    obtain ⟨isOpen, closed⟩ := settled sameSock
    obtain ⟨keptSock, keptFds⟩ := setNegotiating_of_up up
    rw [sameSock] at keptSock
    have opened : (choice.setNegotiating sent).startInput.fds.opened = choice.fds.opened := by
      simp [startInput, keptFds]
    apply Installed.of_closed
    · exact keptSock
    · rw [opened]
      exact isOpen
    · simp only [startInput, keptSock, keptFds]
      exact Descriptors.mem_registered_iobrokerRegister isOpen
    · rw [opened]
      exact closed

def AcceptInstalls (this : SocketNode) (sock chosen : Int) (sent : Bool) : Prop :=
  match this.node.state with
  | .none => chosen = sock ∧ sent = true
  | .pending => chosen = this.node.sock ∧ sent = true
  | .negotiating => chosen = this.node.sock
  | .connected => False

section Installing

variable {order : ByteOrder} {names : SocketNames} {con lis : Int}

theorem netNegotiateSocket_cases (settled : netNegotiateSocket order names con lis ≠ .killBoth) :
    netNegotiateSocket order names con lis = .use lis ∨
      (0 ≤ con ∧ netNegotiateSocket order names con lis = .use con) := by
  unfold netNegotiateSocket at settled ⊢
  split
  · exact .inl rfl
  · rename_i valid
    rw [if_neg valid] at settled
    have conValid : 0 ≤ con := by omega
    split
    · exact .inr ⟨conValid, rfl⟩
    · rename_i lisValid
      rw [if_neg lisValid] at settled
      cases own : names.getsockname lis with
      | none => exact .inr ⟨conValid, rfl⟩
      | some lissain =>
        cases peer : names.getpeername con with
        | none => exact .inl rfl
        | some consain =>
          simp only [own, peer] at settled
          simp only
          by_cases same : lissain = consain
          · rw [same] at settled
            simp [negotiateNames] at settled
          · rcases SockaddrIn.below_or_below order same with below | below
            · exact .inl (negotiateNames_of_lis_below below)
            · exact .inr ⟨conValid, negotiateNames_of_con_below below⟩

theorem returned_nonneg (settled : netNegotiateSocket order names con lis ≠ .killBoth)
    (lisValid : 0 ≤ lis) : 0 ≤ (netNegotiateSocket order names con lis).returned := by
  rcases netNegotiateSocket_cases settled with isLis | ⟨conValid, isCon⟩
  · rw [isLis]
    exact lisValid
  · rw [isCon]
    exact conValid

theorem opened_erase {opened : Finset Int} {kept closed : Int} (isOpen : kept ∈ opened)
    (differ : kept ≠ closed) :
    kept ∈ opened.erase closed ∧
      ∀ other, other = kept ∨ other = closed → other ≠ kept → other ∉ opened.erase closed := by
  constructor
  · exact Finset.mem_erase.mpr ⟨differ, isOpen⟩
  · rintro other (rfl | rfl) differs
    · exact absurd rfl differs
    · exact Finset.notMem_erase _ _

theorem acceptChoice_keeps {sock : Int} (inUse : this.node.state ≠ .none)
    (settled : netNegotiateSocket order names this.node.sock sock ≠ .killBoth) :
    (acceptChoice order names this sock).node = this.node ∧
      (acceptChoice order names this sock).fds.opened =
        if netNegotiateSocket order names this.node.sock sock = .use sock then
          this.fds.opened
        else
          this.fds.opened.erase sock := by
  constructor
  · rw [node_acceptChoice, if_neg inUse, if_neg]
    rintro ⟨-, kills⟩
    cases verdict : netNegotiateSocket order names this.node.sock sock with
    | use chosen =>
      rw [verdict] at kills
      cases kills
    | killBoth => exact settled verdict
  · have choice : acceptChoice order names this sock = if 0 ≤ this.node.sock then
            let verdict := netNegotiateSocket order names this.node.sock sock
            let after := this.applyVerdict sock verdict
            if verdict.returned ≠ sock then { after with fds := after.fds.close sock } else after
          else
            this := by
      unfold acceptChoice
      cases state : this.node.state with
      | none => exact absurd state inUse
      | pending | negotiating | connected => rfl
    rcases netNegotiateSocket_cases settled with lis | ⟨valid, con⟩
    · rw [choice, lis, if_pos rfl]
      simp [applyVerdict, Verdict.returned]
    · rw [choice, con, if_pos valid]
      by_cases same : this.node.sock = sock
      · simp [applyVerdict, Verdict.returned, same]
      · simp [applyVerdict, Verdict.returned, same]

/-- After `node_accept` the chosen socket is the node's and read from, and the other one is
closed, exactly in the cases of `AcceptInstalls`. -/
theorem nodeAcceptSocket_installed_iff
    (order : ByteOrder) (names : SocketNames) (this : SocketNode) (sock : Int) (sent : Bool)
    (valid : this.Valid) (isNew : sock ∈ this.fds.opened) (fresh : sock ≠ this.node.sock)
    (settled : netNegotiateSocket order names this.node.sock sock ≠ .killBoth) :
    Installed this (nodeAcceptSocket order names this sock sent) sock
        (netNegotiateSocket order names this.node.sock sock).returned ↔
      AcceptInstalls this sock
        (netNegotiateSocket order names this.node.sock sock).returned sent := by
  have newValid : 0 ≤ sock := valid.descriptors sock isNew
  have chosenValid := returned_nonneg settled newValid
  unfold nodeAcceptSocket
  by_cases unconnected : this.node.state = .none
  · rw [acceptChoice, unconnected, installed_startInput_iff chosenValid]
    · simp only [AcceptInstalls, unconnected, StaysUp, setSock, disconnect,
        RecvNode.disconnect, newValid, eq_comm]
      simp
    · intro chosenNew
      have opened :
          (this.disconnect.setSock sock).fds.opened = this.fds.opened.erase this.node.sock :=
        rfl
      have isSock : sock = (netNegotiateSocket order names this.node.sock sock).returned :=
        chosenNew
      rw [← isSock, opened]
      exact opened_erase isNew fresh
  · obtain ⟨sameNode, opened⟩ := acceptChoice_keeps unconnected settled
    rw [installed_startInput_iff chosenValid]
    · unfold AcceptInstalls StaysUp
      rw [sameNode]
      cases state : this.node.state with
      | none => exact absurd state unconnected
      | pending =>
        simp only [reduceCtorEq, false_or, ne_eq, not_false_eq_true, true_and]
        constructor
        · rintro ⟨same, sends⟩
          exact ⟨same.symm, sends (by omega)⟩
        · rintro ⟨same, sends⟩
          exact ⟨same.symm, fun _ => sends⟩
      | negotiating => simp [eq_comm]
      | connected => simp
    · intro kept
      rw [sameNode] at kept
      have notNew : netNegotiateSocket order names this.node.sock sock ≠ .use sock := by
        intro isSock
        rw [isSock] at kept
        exact fresh kept.symm
      rw [opened, if_neg notNew, ← kept]
      obtain ⟨stays, closed⟩ := opened_erase (valid.sock (kept ▸ chosenValid)) fresh.symm
      exact ⟨stays, fun other isOne => closed other isOne.symm⟩

end Installing

def sampleSocketNode (sock : Int) (state : NodeState) (opened : Finset Int) : SocketNode :=
  ⟨⟨sock, state, List.replicate nodeinfoSize 0, false, []⟩, -1, ⟨opened, ∅⟩⟩

def noNames : SocketNames := ⟨fun _ => none, fun _ => none⟩

theorem unconnected_accept_installed :
    Installed (sampleSocketNode (-1) .none {7})
      (nodeAcceptSocket .little noNames (sampleSocketNode (-1) .none {7}) 7 true) 7 7 :=
  (nodeAcceptSocket_installed_iff .little noNames (sampleSocketNode (-1) .none {7}) 7 true
    ⟨by decide, by decide⟩ (by decide) (by decide) (by decide)).mpr ⟨rfl, rfl⟩

theorem pending_accept_not_installed :
    (sampleSocketNode (-1) .pending {7}).Valid ∧
      netNegotiateSocket .little noNames (-1) 7 = .use 7 ∧
      (nodeAcceptSocket .little noNames
        (sampleSocketNode (-1) .pending {7}) 7 true).node.sock = -1 ∧
      7 ∈ (nodeAcceptSocket .little noNames
        (sampleSocketNode (-1) .pending {7}) 7 true).fds.opened ∧
      ¬ Installed (sampleSocketNode (-1) .pending {7})
        (nodeAcceptSocket .little noNames (sampleSocketNode (-1) .pending {7}) 7 true) 7 7 := by
  refine ⟨⟨by decide, by decide⟩, by decide, by decide, by decide, ?_⟩
  intro installed
  exact absurd installed.installed (by decide)

end MonitorMerlin
