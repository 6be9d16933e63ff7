import MonitorMerlin.Library.Block
import MonitorMerlin.Tiers.Sending

/-! # Status packets that are sent twice -/

namespace MonitorMerlin

open ByteImage List

universe u

inductive StatusKind where
  | host
  | service
  deriving DecidableEq, Repr

def StatusKind.cbType : StatusKind → Nat
  | .service => 6
  | .host => 7

/-- A call of `send_host_status` or the like. -/
structure StatusCall (ι : Type u) where
  kind : StatusKind
  object : ι
  body : Bytes
  notEmpty : body ≠ []
  fits : body.length ≤ 131072
  sent : Bytes
  timeval : sent.length = 16
  uuid : Option Uuid

structure DupeState (ι : Type u) where
  checkDupes : Bool
  lastPkt : Bytes
  lastObj : StatusKind → Option ι
  toDaemon : List Bytes

namespace DupeState

def start (ι : Type u) : DupeState ι := ⟨false, replicate 131200 0, fun _ => none, []⟩

end DupeState

def hdrSelection (pkt : Bytes) : Nat := leValue (slice pkt 14 2)

def eventBody (pkt : Bytes) : Bytes := pkt.drop hdrSize

def newPacket (type selection : Nat) (body : Bytes) : Bytes :=
  List.replicate 10 0 ++ leBytes 2 type ++ List.replicate 2 0 ++ leBytes 2 selection ++
    leBytes 4 body.length ++ List.replicate 108 0 ++ body

/-- `is_dupe`. -/
def isDupe {ι : Type u} (state : DupeState ι) (pkt : Bytes) : Bool :=
  if state.checkDupes = false then
    false
  else if hdrType state.lastPkt ≠ hdrType pkt then
    false
  else if packetSize state.lastPkt ≠ packetSize pkt then
    false
  else
    slice state.lastPkt 0 (packetSize pkt).toNat = slice pkt 0 (packetSize pkt).toNat

namespace StatusCall

variable {ι : Type u}

def packet (call : StatusCall ι) : Bytes := newPacket call.kind.cbType destPeersMasters call.body

def stampedPacket (call : StatusCall ι) : Bytes :=
  let pkt := stampEvent (patch call.packet 20 call.sent)
  match call.uuid with
  | none => pkt
  | some uuid => stampUuid uuid pkt

variable [DecidableEq ι]

/-- `send_host_status`, `send_service_status`. -/
def send (state : DupeState ι) (call : StatusCall ι) : DupeState ι × Bool :=
  let checking :=
    { state with
      checkDupes := state.lastObj call.kind = some call.object
      lastObj := fun kind => if kind = call.kind then some call.object else state.lastObj kind }
  if isDupe checking call.packet then
    (checking, true)
  else
    ({ checking with
        lastPkt := patch checking.lastPkt 0 call.stampedPacket
        toDaemon := checking.toDaemon ++ [call.stampedPacket] }, false)

end StatusCall

structure SameContent (first second : Bytes) : Prop where
  type : hdrType first = hdrType second
  code : hdrCode first = hdrCode second
  selection : hdrSelection first = hdrSelection second
  body : eventBody first = eventBody second

section Calls

variable {ι : Type u} [DecidableEq ι]

def statusRun (calls : List (StatusCall ι)) : DupeState ι :=
  calls.foldl (fun state call => (call.send state).1) (DupeState.start ι)

def StatusCall.Repeats (state : DupeState ι) (call : StatusCall ι) : Prop :=
  state.lastObj call.kind = some call.object ∧
    ∃ last, state.toDaemon.getLast? = some last ∧ SameContent last call.packet

def DropsRepeats (calls : List (StatusCall ι)) : Prop :=
  ∀ before call after, calls = before ++ call :: after →
    ((call.send (statusRun before)).2 = true ↔ call.Repeats (statusRun before))

omit [DecidableEq ι] in
def StatusCall.SameStatus (previous call : StatusCall ι) : Prop :=
  previous.kind = call.kind ∧ previous.object = call.object ∧ previous.body = call.body

omit [DecidableEq ι] in
def NothingRepeated (calls : List (StatusCall ι)) : Prop :=
  ∀ before previous call after, calls = before ++ previous :: call :: after →
    ¬previous.SameStatus call

end Calls

section Fields

variable {type selection : Nat} {body pkt : Bytes}

private theorem length_newPacket (type selection : Nat) (body : Bytes) :
    (newPacket type selection body).length = hdrSize + body.length := by
  simp only [newPacket, length_append, length_replicate, length_leBytes, hdrSize]

private theorem eventBody_newPacket (type selection : Nat) (body : Bytes) :
    eventBody (newPacket type selection body) = body := by
  rw [eventBody, newPacket, drop_left']
  simp only [length_append, length_replicate, length_leBytes, hdrSize]

private theorem hdrLen_newPacket (type selection : Nat) (small : body.length < 2 ^ 32) :
    hdrLen (newPacket type selection body) = body.length := by
  have field : slice (newPacket type selection body) 16 4 = leBytes 4 body.length := rfl
  rw [hdrLen, field, leValue_leBytes (by omega)]

private theorem packetSize_newPacket (type selection : Nat) (fits : body.length ≤ 131072) :
    packetSize (newPacket type selection body) = (newPacket type selection body).length := by
  rw [packetSize, hdrLen_newPacket _ _ (by omega), length_newPacket, Nat.add_comm,
    MachineInt.toInt_of_lt (by rw [hdrSize]; omega)]

section

variable (long : hdrSize ≤ pkt.length)

include long

private theorem eventBody_stampEvent : eventBody (stampEvent pkt) = eventBody pkt := by
  rw [hdrSize] at long
  have signature : merlinSignature.length = 8 := rfl
  have version : (leBytes 2 merlinProtocolVersion).length = 2 := rfl
  have inner : (patch pkt 0 merlinSignature).length = pkt.length := length_patch (by omega)
  rw [eventBody, hdrSize, stampEvent, drop_patch_after (by omega) (by omega),
    drop_patch_after (by omega) (by omega)]
  rfl

variable {uuid : Uuid}

private theorem eventBody_stampUuid : eventBody (stampUuid uuid pkt) = eventBody pkt := by
  have field := length_uuid_field uuid
  rw [hdrSize] at long
  exact drop_patch_after (by omega) (by rw [hdrSize]; omega)

private theorem slice_stampEvent_front : slice (stampEvent pkt) 0 8 = merlinSignature := by
  rw [hdrSize] at long
  have signature : merlinSignature.length = 8 := rfl
  have inner : (patch pkt 0 merlinSignature).length = pkt.length := length_patch (by omega)
  rw [stampEvent, slice_patch_before (by omega) (by omega)]
  exact slice_patch_same (Nat.zero_le _)

end

end Fields

namespace StatusCall

variable {ι : Type u} (call : StatusCall ι)

private theorem long_packet : hdrSize ≤ call.packet.length := by
  rw [packet, length_newPacket]
  exact Nat.le_add_right _ _

private theorem hdrType_packet : hdrType call.packet = call.kind.cbType := by
  have field : slice call.packet 10 2 = leBytes 2 call.kind.cbType := rfl
  rw [hdrType, field, leValue_leBytes]
  cases call.kind with
  | host | service => decide

private theorem eventBody_packet : eventBody call.packet = call.body := eventBody_newPacket _ _ _

private theorem length_patched : (patch call.packet 20 call.sent).length = call.packet.length := by
  have long := call.long_packet
  rw [hdrSize] at long
  exact length_patch (by rw [call.timeval]; omega)

private theorem long_patched : hdrSize ≤ (patch call.packet 20 call.sent).length := by
  rw [call.length_patched]
  exact call.long_packet

private theorem length_stampedPacket : call.stampedPacket.length = call.packet.length := by
  have long := call.long_patched
  rw [stampedPacket]
  cases call.uuid with
  | none => exact (length_stampEvent long).trans call.length_patched
  | some uuid =>
    have longStamped : hdrSize ≤ (stampEvent (patch call.packet 20 call.sent)).length := by
      rw [length_stampEvent long]
      exact long
    dsimp only
    rw [length_stampUuid longStamped, length_stampEvent long, call.length_patched]

variable {start count : Nat}

private theorem slice_stampedPacket (before : start + count ≤ 76) :
    slice call.stampedPacket start count =
      slice (stampEvent (patch call.packet 20 call.sent)) start count := by
  rw [stampedPacket]
  cases call.uuid with
  | none => rfl
  | some uuid =>
    refine slice_stampUuid ?_ before
    rw [length_stampEvent call.long_patched]
    exact call.long_patched

private theorem slice_stampedPacket_routing (after : 10 ≤ start) (before : start + count ≤ 20) :
    slice call.stampedPacket start count = slice call.packet start count := by
  have long := call.long_packet
  rw [hdrSize] at long
  rw [call.slice_stampedPacket (by omega), slice_stampEvent call.long_patched after,
    slice_patch_before (by omega) before]

private theorem eventBody_stampedPacket : eventBody call.stampedPacket = call.body := by
  have long := call.long_packet
  have isBody : eventBody (stampEvent (patch call.packet 20 call.sent)) = call.body := by
    rw [eventBody_stampEvent call.long_patched, eventBody, drop_patch_after, ← eventBody,
      call.eventBody_packet]
    · rw [call.timeval]
      rw [hdrSize] at long
      omega
    · rw [call.timeval, hdrSize]
      omega
  rw [stampedPacket]
  cases call.uuid with
  | none => exact isBody
  | some uuid =>
    dsimp only
    rw [eventBody_stampUuid, isBody]
    rw [length_stampEvent call.long_patched]
    exact call.long_patched

private theorem slice_stampedPacket_front : slice call.stampedPacket 0 8 = merlinSignature := by
  rw [call.slice_stampedPacket (by omega), slice_stampEvent_front call.long_patched]

private theorem sameContent_iff (previous : StatusCall ι) :
    SameContent previous.stampedPacket call.packet ↔
      previous.kind = call.kind ∧ previous.body = call.body := by
  have types : hdrType previous.stampedPacket = previous.kind.cbType := by
    rw [hdrType, previous.slice_stampedPacket_routing (by omega) (by omega), ← hdrType,
      previous.hdrType_packet]
  constructor
  · intro same
    have sameType := same.type
    have sameBody := same.body
    rw [types, call.hdrType_packet] at sameType
    rw [previous.eventBody_stampedPacket, call.eventBody_packet] at sameBody
    refine ⟨?_, sameBody⟩
    cases isPrevious : previous.kind with
    | host =>
      cases isCall : call.kind with
      | host => rfl
      | service =>
        rw [isPrevious, isCall] at sameType
        cases sameType
    | service =>
      cases isCall : call.kind with
      | host =>
        rw [isPrevious, isCall] at sameType
        cases sameType
      | service => rfl
  · intro ⟨sameKind, sameBody⟩
    have samePacket : previous.packet = call.packet := by
      rw [packet, packet, sameKind, sameBody]
    constructor
    · rw [types, call.hdrType_packet, sameKind]
    · rw [hdrCode, hdrCode, previous.slice_stampedPacket_routing (by omega) (by omega), samePacket]
    · rw [hdrSelection, hdrSelection,
        previous.slice_stampedPacket_routing (by omega) (by omega), samePacket]
    · rw [previous.eventBody_stampedPacket, call.eventBody_packet, sameBody]

end StatusCall

section Runs

variable {ι : Type u} [DecidableEq ι] {state : DupeState ι}

omit [DecidableEq ι] in
structure DupeState.Stamped (state : DupeState ι) : Prop where
  size : state.lastPkt.length = 131200
  signed : slice state.lastPkt 0 8 = merlinSignature ∨ hdrType state.lastPkt = 0

omit [DecidableEq ι] in
private theorem stamped_start : (DupeState.start ι).Stamped where
  size := length_replicate
  signed := .inr rfl

omit [DecidableEq ι] in
private theorem isDupe_eq_false (stamped : state.Stamped) (call : StatusCall ι) :
    isDupe state call.packet = false := by
  have isSize := packetSize_newPacket call.kind.cbType destPeersMasters call.fits
  rw [isDupe]
  split_ifs with unchecked otherType otherSize
  · rfl
  · rfl
  · rfl
  · rw [decide_eq_false_iff_not]
    intro same
    rcases stamped.signed with signed | empty
    · rw [StatusCall.packet, isSize, Int.toNat_natCast, length_newPacket] at same
      have front := congrArg (List.take 8) same
      rw [slice, slice, take_take, take_take, Nat.min_eq_left (by rw [hdrSize]; omega)] at front
      rw [slice, front] at signed
      cases signed
    · rw [not_not, empty, call.hdrType_packet] at otherType
      cases isKind : call.kind with
      | host | service =>
        rw [isKind] at otherType
        cases otherType

private theorem send_eq (stamped : state.Stamped) (call : StatusCall ι) :
    call.send state =
      ({ checkDupes := state.lastObj call.kind = some call.object
         lastPkt := patch state.lastPkt 0 call.stampedPacket
         lastObj := fun kind => if kind = call.kind then some call.object else state.lastObj kind
         toDaemon := state.toDaemon ++ [call.stampedPacket] }, false) := by
  have checked : DupeState.Stamped
      { state with
        checkDupes := state.lastObj call.kind = some call.object
        lastObj := fun kind =>
          if kind = call.kind then some call.object else state.lastObj kind } :=
    ⟨stamped.size, stamped.signed⟩
  rw [StatusCall.send, isDupe_eq_false checked call, if_neg Bool.false_ne_true]

theorem DupeState.Stamped.send (stamped : state.Stamped) (call : StatusCall ι) :
    (call.send state).1.Stamped := by
  have long := call.long_packet
  have isLength : call.stampedPacket.length = hdrSize + call.body.length := by
    rw [call.length_stampedPacket, StatusCall.packet, length_newPacket]
  have fits := call.fits
  have size := stamped.size
  rw [hdrSize] at isLength
  have inner : 0 + call.stampedPacket.length ≤ state.lastPkt.length := by omega
  rw [send_eq stamped]
  refine ⟨(length_patch inner).trans size, .inl ?_⟩
  dsimp only
  rw [patch, take_zero, nil_append, slice_append_left (by omega), call.slice_stampedPacket_front]

private theorem stamped_statusRun (calls : List (StatusCall ι)) : (statusRun calls).Stamped :=
  List.foldlRecOn calls _ stamped_start fun _ stamped call _ => stamped.send call

private theorem repeats_statusRun_iff (before : List (StatusCall ι)) (call : StatusCall ι) :
    call.Repeats (statusRun before) ↔
      ∃ previous, before.getLast? = some previous ∧ previous.SameStatus call := by
  rcases eq_nil_or_concat' before with rfl | ⟨front, previous, rfl⟩
  · refine iff_of_false ?_ ?_
    · intro ⟨same, _⟩
      cases same
    · intro ⟨previous, isLast, _⟩
      cases isLast
  · have isRun : statusRun (front ++ [previous]) = (previous.send (statusRun front)).1 := by
      rw [statusRun, foldl_append]
      rfl
    rw [isRun, send_eq (stamped_statusRun front), StatusCall.Repeats, getLast?_concat,
      getLast?_concat]
    constructor
    · intro ⟨sameObject, last, isLast, content⟩
      rw [← Option.some.inj isLast, call.sameContent_iff] at content
      dsimp only at sameObject
      rw [if_pos content.1.symm] at sameObject
      exact ⟨previous, rfl, content.1, Option.some.inj sameObject, content.2⟩
    · intro ⟨other, isOther, sameKind, sameObject, sameBody⟩
      obtain rfl := Option.some.inj isOther
      refine ⟨?_, _, rfl, (call.sameContent_iff _).mpr ⟨sameKind, sameBody⟩⟩
      dsimp only
      rw [if_pos sameKind.symm, sameObject]

private theorem send_statusRun_ne_true (before : List (StatusCall ι)) (call : StatusCall ι) :
    ¬(call.send (statusRun before)).2 = true := by
  rw [send_eq (stamped_statusRun before)]
  exact Bool.false_ne_true

private theorem nothingRepeated_of_dropsRepeats {calls : List (StatusCall ι)}
    (drops : DropsRepeats calls) : NothingRepeated calls := by
  intro before previous call after isCalls same
  have split : calls = (before ++ [previous]) ++ call :: after := by
    rw [isCalls, append_assoc]
    rfl
  refine send_statusRun_ne_true _ call ((drops _ call after split).mpr ?_)
  rw [repeats_statusRun_iff, getLast?_concat]
  exact ⟨previous, rfl, same⟩

/-- Exactly the repeated ones are dropped if and only if there are none. -/
theorem dropsRepeats_iff (calls : List (StatusCall ι)) :
    DropsRepeats calls ↔ NothingRepeated calls := by
  refine ⟨nothingRepeated_of_dropsRepeats, ?_⟩
  intro nothing before call after isCalls
  refine iff_of_false (send_statusRun_ne_true before call) ?_
  rw [repeats_statusRun_iff]
  intro ⟨previous, isLast, same⟩
  obtain ⟨front, isFront⟩ := getLast?_eq_some_iff.mp isLast
  refine nothing front previous call after ?_ same
  rw [isCalls, isFront, append_assoc]
  rfl

end Runs

def sameStatusTwice : List (StatusCall Nat) :=
  List.replicate 2 ⟨.host, 1, [1], by decide, by decide, List.replicate 16 0, rfl, none⟩

theorem not_dropsRepeats : ¬DropsRepeats sameStatusTwice := by
  intro drops
  exact nothingRepeated_of_dropsRepeats drops [] _ _ [] rfl ⟨rfl, rfl, rfl⟩

end MonitorMerlin
