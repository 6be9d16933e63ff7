import MonitorMerlin.Library.Loop
import MonitorMerlin.Node.Send

/-! # Sending a buffer -/

namespace MonitorMerlin

open ByteImage List MachineInt

inductive SendAnswer where
  | accepted (count : Nat)
  | again
  | failed
  deriving DecidableEq, Repr

/-- A turn of `io_send_all`, with `io_poll`. -/
structure SendTurn where
  send : SendAnswer
  writeOk : Int
  deriving DecidableEq, Repr

structure SendRun where
  loops : Nat
  sent : Int
  total : Nat
  accepted : Bytes
  disconnected : Bool
  deriving DecidableEq, Repr

def SendAnswer.fails : SendAnswer → Bool
  | .accepted _ => false
  | .again => true
  | .failed => true

def SendAnswer.bytes (answer : SendAnswer) (rest : Bytes) : Bytes :=
  match answer with
  | .accepted count => rest.take count
  | .again => []
  | .failed => []

def SendAnswer.value (answer : SendAnswer) (rest : Bytes) : Int :=
  match answer with
  | .accepted _ => (answer.bytes rest).length
  | .again => -1
  | .failed => -1

def ioSendTurn (pollRet : Int) (buf : Bytes) (call : SendRun) (turn : SendTurn) : SendRun :=
  let rest := buf.drop call.total
  let sent := turn.send.value rest
  let bytes := turn.send.bytes rest
  let call := { call with loops := call.loops + 1, sent, accepted := call.accepted ++ bytes }
  if 0 < pollRet ∧ (sent + call.total) % 2 ^ 64 = 0 then
    { call with disconnected := true }
  else
    match turn.send with
    | .accepted _ => { call with total := call.total + bytes.length }
    | .again => { call with sent := turn.writeOk }
    | .failed => call

def IoGoesOn (len : Nat) (call : SendRun) : Prop :=
  call.disconnected = false ∧ (call.loops = 0 ∨ call.total < len ∧ 0 < call.sent ∧ call.loops < 15)

instance (len : Nat) : DecidablePred (IoGoesOn len) := fun _ => inferInstanceAs (Decidable (_ ∧ _))

def ioSendStart : SendRun := ⟨0, 0, 0, [], false⟩

def SendRun.result (call : SendRun) : Int :=
  if call.disconnected then
    0
  else if call.sent < 0 then
    call.sent
  else
    toInt call.total

section Definitions

variable (pollRet : Int) (buf : Bytes) (turns : Nat → SendTurn)

def ioSendAfter (count : Nat) : Option SendRun :=
  Loop.after (IoGoesOn buf.length) (fun call turn => some (ioSendTurn pollRet buf call turn)) turns
    ioSendStart count

def IoSendEndsIn (final : SendRun) : Prop :=
  Loop.EndsIn (IoGoesOn buf.length) (fun call turn => some (ioSendTurn pollRet buf call turn)) turns
    ioSendStart final

/-- `io_send_all`. -/
def ioSendAll : SendRun :=
  if buf = [] then ioSendStart else (ioSendAfter pollRet buf turns 15).getD ioSendStart

structure SendReported : Prop where
  returns : IoSendEndsIn pollRet buf turns (ioSendAll pollRet buf turns)
  loops : (ioSendAll pollRet buf turns).loops ≤ 15
  handed : (ioSendAll pollRet buf turns).accepted <+: buf
  complete : (ioSendAll pollRet buf turns).result = buf.length ↔
    (ioSendAll pollRet buf turns).accepted = buf
  counted : 0 ≤ (ioSendAll pollRet buf turns).result →
    (ioSendAll pollRet buf turns).result = (ioSendAll pollRet buf turns).accepted.length

def Waits (count : Nat) : Prop :=
  ∀ before < count, (turns before).send = .again ∧ 0 < (turns before).writeOk

def LosesOne (len : Nat) : Prop :=
  0 < pollRet ∧ 1 < len ∧ ∃ count < 14,
    Waits turns count ∧ (turns count).send = .accepted 1 ∧ (turns (count + 1)).send.fails = true

end Definitions

section Turn

variable {pollRet : Int} {buf : Bytes} {call : SendRun} {turn : SendTurn}

theorem ioSendTurn_loops : (ioSendTurn pollRet buf call turn).loops = call.loops + 1 := by
  rw [ioSendTurn]
  split
  · rfl
  · split
    · rfl
    · rfl
    · rfl

theorem ioSendTurn_accepted :
    (ioSendTurn pollRet buf call turn).accepted =
      call.accepted ++ turn.send.bytes (buf.drop call.total) := by
  rw [ioSendTurn]
  split
  · rfl
  · split
    · rfl
    · rfl
    · rfl

theorem bytes_eq_take (answer : SendAnswer) (rest : Bytes) :
    answer.bytes rest = rest.take (answer.bytes rest).length := by
  cases answer with
  | accepted count =>
    rw [SendAnswer.bytes, length_take]
    by_cases short : rest.length ≤ count
    · rw [Nat.min_eq_right short, take_length, take_of_length_le short]
    · rw [Nat.min_eq_left (Nat.le_of_not_le short)]
  | again | failed => rfl

variable {total : Nat}

theorem length_bytes_le (answer : SendAnswer) (bounded : total ≤ buf.length) :
    total + (answer.bytes (buf.drop total)).length ≤ buf.length := by
  rw [bytes_eq_take]
  have taken := length_take_le' (answer.bytes (buf.drop total)).length (buf.drop total)
  rw [length_drop] at taken
  omega

theorem disconnects_iff (answer : SendAnswer) (bounded : total ≤ buf.length)
    (short : buf.length < 2 ^ 31) :
    (answer.value (buf.drop total) + total) % 2 ^ 64 = 0 ↔
      total = (if answer.fails then 1 else 0) ∧ answer.bytes (buf.drop total) = [] := by
  have within := length_bytes_le answer bounded
  cases answer with
  | accepted count =>
    rw [← length_eq_zero_iff]
    simp only [SendAnswer.value, SendAnswer.fails, Bool.false_eq_true, if_false]
    omega
  | again | failed =>
    simp only [SendAnswer.value, SendAnswer.fails, SendAnswer.bytes, if_true, and_true]
    omega

inductive TurnCase (pollRet : Int) (buf : Bytes) (call : SendRun) (turn : SendTurn)
    (next : SendRun) : Prop where
  | disconnected (ready : 0 < pollRet)
      (isTotal : call.total = if turn.send.fails then 1 else 0)
      (nothing : turn.send.bytes (buf.drop call.total) = [])
      (stays : next.total = call.total) (off : next.disconnected = true)
  | accepted (count : Nat) (isSend : turn.send = .accepted count)
      (isSent : next.sent = (turn.send.bytes (buf.drop call.total)).length)
      (isTotal : next.total = call.total + (turn.send.bytes (buf.drop call.total)).length)
      (on : next.disconnected = false)
  | again (isSend : turn.send = .again) (notOne : 0 < pollRet → call.total ≠ 1)
      (isSent : next.sent = turn.writeOk) (stays : next.total = call.total)
      (on : next.disconnected = false)
  | failed (isSend : turn.send = .failed) (notOne : 0 < pollRet → call.total ≠ 1)
      (isSent : next.sent = -1) (stays : next.total = call.total) (on : next.disconnected = false)

theorem turnCase (pollRet : Int) (turn : SendTurn) (on : call.disconnected = false)
    (bounded : call.total ≤ buf.length) (short : buf.length < 2 ^ 31) :
    TurnCase pollRet buf call turn (ioSendTurn pollRet buf call turn) := by
  have test := disconnects_iff turn.send bounded short
  rw [ioSendTurn]
  by_cases disconnects :
      0 < pollRet ∧ (turn.send.value (buf.drop call.total) + call.total) % 2 ^ 64 = 0
  · rw [if_pos disconnects]
    obtain ⟨isTotal, nothing⟩ := test.mp disconnects.2
    exact .disconnected disconnects.1 isTotal nothing rfl rfl
  · rw [if_neg disconnects]
    have notOne : turn.send.bytes (buf.drop call.total) = [] → turn.send.fails = true →
        0 < pollRet → call.total ≠ 1 := by
      intro nothing fails ready one
      apply disconnects
      rw [test, if_pos fails]
      exact ⟨ready, one, nothing⟩
    cases isSend : turn.send with
    | accepted count => exact .accepted count isSend (by rw [isSend]; rfl) (by rw [isSend]) on
    | again => exact .again isSend (notOne (by rw [isSend]; rfl) (by rw [isSend]; rfl)) rfl rfl on
    | failed => exact .failed isSend (notOne (by rw [isSend]; rfl) (by rw [isSend]; rfl)) rfl rfl on

theorem TurnCase.total_eq {next : SendRun} (turned : TurnCase pollRet buf call turn next) :
    next.total = call.total + (turn.send.bytes (buf.drop call.total)).length := by
  cases turned with
  | disconnected ready isTotal nothing stays off =>
    rw [stays, nothing]
    rfl
  | accepted count isSend isSent isTotal on => exact isTotal
  | again isSend notOne isSent stays on | failed isSend notOne isSent stays on =>
    rw [stays, isSend]
    rfl

end Turn

structure HandedOver (buf : Bytes) (call : SendRun) : Prop where
  isStart : call.accepted = buf.take call.total
  bounded : call.total ≤ buf.length
  few : call.loops ≤ 15
  fresh : call.loops = 0 → call.total = 0

section Run

variable {pollRet : Int} {buf : Bytes} {turns : Nat → SendTurn} {call final : SendRun}
  {turn : SendTurn} {count len : Nat}

theorem IoGoesOn.loops_lt (goes : IoGoesOn len call) : call.loops < 15 := by
  rcases goes.2 with first | later
  · rw [first]
    decide
  · exact later.2.2

theorem HandedOver.ioSendTurn (handed : HandedOver buf call) (goes : IoGoesOn buf.length call)
    (short : buf.length < 2 ^ 31) (pollRet : Int) (turn : SendTurn) :
    HandedOver buf (ioSendTurn pollRet buf call turn) := by
  have turned := turnCase pollRet turn goes.1 handed.bounded short
  refine ⟨?_, ?_, ?_, ?_⟩
  · rw [ioSendTurn_accepted, turned.total_eq, handed.isStart, take_add, ← bytes_eq_take]
  · rw [turned.total_eq]
    exact length_bytes_le turn.send handed.bounded
  · rw [ioSendTurn_loops]
    exact goes.loops_lt
  · rw [ioSendTurn_loops]
    exact fun first => absurd first (Nat.succ_ne_zero call.loops)

theorem handed_start : HandedOver buf ioSendStart :=
  ⟨rfl, Nat.zero_le _, Nat.zero_le _, fun _ => rfl⟩

theorem ioGoesOn_start (len : Nat) : IoGoesOn len ioSendStart := ⟨rfl, .inl rfl⟩

theorem handed_of_after (short : buf.length < 2 ^ 31)
    (reached : ioSendAfter pollRet buf turns count = some call) : HandedOver buf call := by
  refine Loop.kept_of_after (HandedOver buf) ?_ handed_start reached
  intro state next count handed goes turned
  rw [← Option.some.inj turned]
  exact handed.ioSendTurn goes short _ _

theorem ioSendAll_endsIn (pollRet : Int) (turns : Nat → SendTurn) (notEmpty : buf ≠ [])
    (short : buf.length < 2 ^ 31) :
    IoSendEndsIn pollRet buf turns (ioSendAll pollRet buf turns) := by
  have lowers : ∀ (count : Nat) (call : SendRun), HandedOver buf call → IoGoesOn buf.length call →
      ∃ next, some (ioSendTurn pollRet buf call (turns count)) = some next ∧ HandedOver buf next ∧
        15 - next.loops < 15 - call.loops := by
    intro count call handed goes
    refine ⟨_, rfl, handed.ioSendTurn goes short _ _, ?_⟩
    rw [ioSendTurn_loops]
    have few := goes.loops_lt
    omega
  obtain ⟨final, reached, ended, -⟩ : ∃ final, ioSendAfter pollRet buf turns 15 = some final ∧
      ¬IoGoesOn buf.length final ∧ HandedOver buf final :=
    Loop.ended_of_measure (HandedOver buf) (fun call => 15 - call.loops)
      (fun count call _ => lowers count call) handed_start
  have isFinal : ioSendAll pollRet buf turns = final := by
    rw [ioSendAll, if_neg notEmpty, reached, Option.getD_some]
  rw [isFinal]
  exact ⟨15, reached, ended⟩

theorem IoGoesOn.later (goes : IoGoesOn len call) (notFirst : call.loops ≠ 0) :
    call.total < len ∧ 0 < call.sent ∧ call.loops < 15 := goes.2.resolve_left notFirst

theorem Waits.succ (waits : Waits turns count) (isAgain : (turns count).send = .again)
    (isReady : 0 < (turns count).writeOk) : Waits turns (count + 1) := by
  intro before less
  rcases Nat.lt_succ_iff_lt_or_eq.mp less with earlier | rfl
  · exact waits before earlier
  · exact ⟨isAgain, isReady⟩

theorem waits_of_after (short : buf.length < 2 ^ 31) (ready : 0 < pollRet)
    (reached : ioSendAfter pollRet buf turns count = some call) (goes : IoGoesOn buf.length call) :
    call.loops = count ∧ (call.total = 0 → Waits turns count) ∧
      (call.total = 1 → ∃ earlier, count = earlier + 1 ∧ Waits turns earlier ∧
        (turns earlier).send = .accepted 1) := by
  induction count generalizing call with
  | zero =>
    rw [← Option.some.inj reached]
    refine ⟨rfl, fun _ before less => absurd less (Nat.not_lt_zero before), fun one => ?_⟩
    cases one
  | succ count ih =>
    obtain ⟨before, reachedBefore, ⟨goesBefore, turned⟩ | ⟨ended, rfl⟩⟩ :=
      Loop.exists_before reached
    · obtain ⟨isLoops, waits, -⟩ := ih reachedBefore goesBefore
      have bounded := (handed_of_after short reachedBefore).bounded
      have turnedCase : TurnCase pollRet buf before (turns count) call := by
        rw [← Option.some.inj turned]
        exact turnCase pollRet (turns count) goesBefore.1 bounded short
      have loops : call.loops = count + 1 := by
        rw [← Option.some.inj turned, ioSendTurn_loops, isLoops]
      obtain ⟨less, positive, -⟩ := goes.later (by rw [loops]; exact Nat.succ_ne_zero count)
      refine ⟨loops, ?_⟩
      cases turnedCase with
      | disconnected _ isTotal nothing stays off =>
        rw [goes.1] at off
        cases off
      | accepted taken isSend isSent isTotal on =>
        rw [isSent] at positive
        refine ⟨fun none => by omega, fun one => ?_⟩
        have none : before.total = 0 := by omega
        refine ⟨count, rfl, waits none, ?_⟩
        have single : ((turns count).send.bytes (buf.drop before.total)).length = 1 := by omega
        rw [isSend, none, drop_zero, SendAnswer.bytes, length_take] at single
        have isOne : taken = 1 := by omega
        rw [isSend, isOne]
      | again isSend notOne isSent stays on =>
        rw [isSent] at positive
        rw [stays]
        exact ⟨fun none => (waits none).succ isSend positive, fun one => absurd one (notOne ready)⟩
      | failed isSend notOne isSent stays on =>
        rw [isSent] at positive
        exact absurd positive (by decide)
    · exact absurd goes ended

theorem exists_after_waits (pollRet : Int) (short : buf.length < 2 ^ 31) (notEmpty : buf ≠ [])
    (few : count < 15) (waits : Waits turns count) :
    ∃ call, ioSendAfter pollRet buf turns count = some call ∧ IoGoesOn buf.length call ∧
      call.loops = count ∧ call.total = 0 := by
  induction count with
  | zero => exact ⟨ioSendStart, rfl, ioGoesOn_start _, rfl, rfl⟩
  | succ count ih =>
    obtain ⟨call, reached, goes, isLoops, none⟩ := ih (Nat.lt_of_succ_lt few)
      fun before less => waits before (Nat.lt_succ_of_lt less)
    obtain ⟨isAgain, isReady⟩ := waits count (Nat.lt_succ_self count)
    have loops : (ioSendTurn pollRet buf call (turns count)).loops = count + 1 := by
      rw [ioSendTurn_loops, isLoops]
    have reachedNext := Loop.after_succ reached goes
    cases turnCase pollRet (turns count) goes.1 (handed_of_after short reached).bounded short with
    | disconnected _ isTotal nothing stays off =>
      rw [none, isAgain] at isTotal
      cases isTotal
    | accepted taken isSend isSent isTotal on =>
      rw [isAgain] at isSend
      cases isSend
    | again isSend notOne isSent stays on =>
      rw [none] at stays
      refine ⟨_, reachedNext, ⟨on, .inr ?_⟩, loops, stays⟩
      rw [stays, isSent, loops]
      exact ⟨length_pos_iff.mpr notEmpty, isReady, few⟩
    | failed isSend notOne isSent stays on =>
      rw [isAgain] at isSend
      cases isSend

theorem exists_after_one (pollRet : Int) (short : buf.length < 2 ^ 31) (long : 1 < buf.length)
    (early : count < 14) (waits : Waits turns count) (isOne : (turns count).send = .accepted 1) :
    ∃ call, ioSendAfter pollRet buf turns (count + 1) = some call ∧ IoGoesOn buf.length call ∧
      call.total = 1 := by
  obtain ⟨call, reached, goes, isLoops, none⟩ := exists_after_waits pollRet short
    (ne_nil_of_length_pos (Nat.lt_of_succ_lt long)) (Nat.lt_succ_of_lt early) waits
  have single : ((turns count).send.bytes (buf.drop call.total)).length = 1 := by
    rw [isOne, none, drop_zero, SendAnswer.bytes, length_take]
    omega
  cases turnCase pollRet (turns count) goes.1 (handed_of_after short reached).bounded short with
  | disconnected _ isTotal nothing stays off =>
    rw [nothing] at single
    cases single
  | accepted taken isSend isSent isTotal on =>
    rw [single, none] at isTotal
    refine ⟨_, Loop.after_succ reached goes, ⟨on, .inr ?_⟩, isTotal⟩
    rw [isTotal, isSent, single, ioSendTurn_loops, isLoops]
    exact ⟨long, by decide, Nat.succ_lt_succ early⟩
  | again isSend notOne isSent stays on | failed isSend notOne isSent stays on =>
    rw [isOne] at isSend
    cases isSend

theorem exists_lost (short : buf.length < 2 ^ 31) (loses : LosesOne pollRet turns buf.length) :
    ∃ final, IoSendEndsIn pollRet buf turns final ∧ final.disconnected = true ∧
      final.total = 1 := by
  obtain ⟨ready, long, count, early, waits, isOne, fails⟩ := loses
  obtain ⟨call, reached, goes, one⟩ := exists_after_one pollRet short long early waits isOne
  cases turnCase pollRet (turns (count + 1)) goes.1 (handed_of_after short reached).bounded
    short with
  | disconnected _ _ nothing stays off =>
    refine ⟨_, ⟨_, Loop.after_succ reached goes, fun goesLast => ?_⟩, off, stays.trans one⟩
    rw [goesLast.1] at off
    cases off
  | accepted taken isSend isSent isTotal on =>
    rw [isSend] at fails
    cases fails
  | again isSend notOne isSent stays on | failed isSend notOne isSent stays on =>
    exact absurd one (notOne ready)

theorem HandedOver.length_accepted (handed : HandedOver buf call) :
    call.accepted.length = call.total := by
  rw [handed.isStart, length_take, Nat.min_eq_left handed.bounded]

theorem HandedOver.accepted_eq_iff (handed : HandedOver buf call) :
    call.accepted = buf ↔ call.total = buf.length := by
  constructor
  · intro all
    rw [← handed.length_accepted, all]
  · intro all
    rw [handed.isStart, all, take_length]

theorem result_of_on (on : call.disconnected = false) (handed : HandedOver buf call)
    (short : buf.length < 2 ^ 31) :
    call.result = if call.sent < 0 then call.sent else (call.total : Int) := by
  have bounded := handed.bounded
  rw [SendRun.result, on, toInt_of_lt (by omega)]
  rfl

theorem final_cases (short : buf.length < 2 ^ 31) (notEmpty : buf ≠ [])
    (ends : IoSendEndsIn pollRet buf turns final) :
    final.disconnected = true ∧ final.total < buf.length ∧
        (final.total = 0 ∨ LosesOne pollRet turns buf.length) ∨
      final.disconnected = false ∧ (final.sent < 0 → final.total < buf.length) := by
  obtain ⟨count, before, reached, goes, turned⟩ := ends.exists_last (ioGoesOn_start _)
  have handed := handed_of_after short reached
  have less : before.total < buf.length := by
    by_cases first : before.loops = 0
    · rw [handed.fresh first]
      exact length_pos_iff.mpr notEmpty
    · exact (goes.later first).1
  have turnedCase : TurnCase pollRet buf before (turns count) final := by
    rw [← Option.some.inj turned]
    exact turnCase pollRet (turns count) goes.1 handed.bounded short
  cases turnedCase with
  | disconnected ready isTotal nothing stays off =>
    rw [stays]
    refine .inl ⟨off, less, ?_⟩
    cases fails : (turns count).send.fails with
    | false =>
      rw [isTotal, fails]
      exact .inl rfl
    | true =>
      rw [fails, if_pos rfl] at isTotal
      obtain ⟨isLoops, -, behind⟩ := waits_of_after short ready reached goes
      obtain ⟨earlier, rfl, waits, isOne⟩ := behind isTotal
      have long := (goes.later (by rw [isLoops]; exact Nat.succ_ne_zero earlier)).1
      rw [isTotal] at long
      have few := goes.loops_lt
      rw [isLoops] at few
      exact .inr ⟨ready, long, earlier, Nat.lt_of_succ_lt_succ few, waits, isOne, fails⟩
  | accepted taken isSend isSent isTotal on =>
    refine .inr ⟨on, fun negative => ?_⟩
    rw [isSent] at negative
    omega
  | again isSend notOne isSent stays on | failed isSend notOne isSent stays on =>
    refine .inr ⟨on, fun _ => ?_⟩
    rw [stays]
    exact less

theorem handed_ioSendAll (pollRet : Int) (turns : Nat → SendTurn) (notEmpty : buf ≠ [])
    (short : buf.length < 2 ^ 31) : HandedOver buf (ioSendAll pollRet buf turns) := by
  obtain ⟨count, reached, -⟩ := ioSendAll_endsIn pollRet turns notEmpty short
  exact handed_of_after short reached

theorem result_eq_length_iff (notEmpty : buf ≠ []) (short : buf.length < 2 ^ 31) :
    (ioSendAll pollRet buf turns).result = buf.length ↔
      (ioSendAll pollRet buf turns).accepted = buf := by
  have handed := handed_ioSendAll pollRet turns notEmpty short
  have long := length_pos_iff.mpr notEmpty
  rw [handed.accepted_eq_iff]
  rcases final_cases short notEmpty (ioSendAll_endsIn pollRet turns notEmpty short) with
    ⟨off, less, -⟩ | ⟨on, less⟩
  · rw [SendRun.result, off, if_pos rfl]
    omega
  · rw [result_of_on on handed short]
    split
    · rename_i negative
      have incomplete := less negative
      omega
    · omega

theorem result_counted (notEmpty : buf ≠ []) (short : buf.length < 2 ^ 31)
    (notLost : ¬LosesOne pollRet turns buf.length)
    (counted : 0 ≤ (ioSendAll pollRet buf turns).result) :
    (ioSendAll pollRet buf turns).result = (ioSendAll pollRet buf turns).accepted.length := by
  have handed := handed_ioSendAll pollRet turns notEmpty short
  rw [handed.length_accepted]
  rcases final_cases short notEmpty (ioSendAll_endsIn pollRet turns notEmpty short) with
    ⟨off, -, none | loses⟩ | ⟨on, -⟩
  · rw [SendRun.result, off, if_pos rfl, none]
    rfl
  · exact absurd loses notLost
  · rw [result_of_on on handed short] at counted ⊢
    split
    · rename_i negative
      rw [if_pos negative] at counted
      omega
    · rfl

/-- What `io_send_all` returns is right, unless a failure comes behind exactly one
accepted byte. -/
theorem sendReported_iff (notEmpty : buf ≠ []) (short : buf.length < 2 ^ 31) :
    SendReported pollRet buf turns ↔ ¬LosesOne pollRet turns buf.length := by
  have ends := ioSendAll_endsIn pollRet turns notEmpty short
  have handed := handed_ioSendAll pollRet turns notEmpty short
  constructor
  · intro reported loses
    obtain ⟨final, endsFinal, off, one⟩ := exists_lost short loses
    have counted := reported.counted
    rw [handed.length_accepted, ends.unique endsFinal, SendRun.result, off, if_pos rfl, one]
      at counted
    cases counted (Int.le_refl 0)
  · intro notLost
    refine ⟨ends, handed.few, ?_, result_eq_length_iff notEmpty short,
      result_counted notEmpty short notLost⟩
    rw [handed.isStart]
    exact take_prefix _ _

end Run

theorem sendReported_again :
    SendReported 0 [104, 101, 108, 108, 111]
      (fun count => if count = 0 then ⟨.accepted 1, 0⟩ else if count = 1 then ⟨.again, 1⟩
        else ⟨.accepted 9, 0⟩) := by
  refine (sendReported_iff (cons_ne_nil _ _) (by decide)).mpr fun loses => ?_
  exact absurd loses.1 (by decide)

theorem not_sendReported :
    (ioSendAll 1 [104, 101, 108, 108, 111]
        (fun count => if count = 0 then ⟨.accepted 1, 0⟩ else ⟨.failed, 0⟩)).result = 0 ∧
      (ioSendAll 1 [104, 101, 108, 108, 111]
        (fun count => if count = 0 then ⟨.accepted 1, 0⟩ else ⟨.failed, 0⟩)).accepted = [104] ∧
      ¬SendReported 1 [104, 101, 108, 108, 111]
        (fun count => if count = 0 then ⟨.accepted 1, 0⟩ else ⟨.failed, 0⟩) := by
  refine ⟨by decide, by decide, fun reported => ?_⟩
  exact absurd (reported.counted (by decide)) (by decide)

end MonitorMerlin
