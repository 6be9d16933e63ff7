import Mathlib.Data.List.Chain
import Mathlib.Data.List.DropRight
import MonitorMerlin.Hooks.Events

/-! # Notifications that are held -/

namespace MonitorMerlin

open HookState List

inductive LocalEvent where
  | notificationEnd (data : NotificationData)
  | processed (object : ObjectKey) (endTime : Timeval)
  deriving DecidableEq, Repr

variable (state : HookState)

/-- `merlin_mod_hook` of a local event. -/
def localStep : LocalEvent → HookState
  | .notificationEnd data => state.hookNotificationEnd none data
  | .processed object endTime => state.hookResult false object endTime

def localRun (events : List LocalEvent) : HookState :=
  events.foldl localStep state

def SentEvent.notification? : SentEvent → Option NotificationPacket
  | .status _ => none
  | .notification packet => some packet

def HookState.notifications : List NotificationPacket :=
  state.sent.filterMap SentEvent.notification?

def LocalEvent.isResult : LocalEvent → Bool
  | .notificationEnd _ => false
  | .processed _ _ => true

def LocalEvent.packet? : LocalEvent → Option NotificationPacket
  | .notificationEnd data => some (notificationPacket destPeersMasters data)
  | .processed _ _ => none

def upToLastResult (events : List LocalEvent) : List LocalEvent :=
  events.rdropWhile fun event => !event.isResult

def afterLastResult (events : List LocalEvent) : List LocalEvent :=
  events.rtakeWhile fun event => !event.isResult

def NotificationPacket.isCustom (packet : NotificationPacket) : Bool := packet.reasonType = .custom

def SentInOrder (start : HookState) (events : List LocalEvent) : Prop :=
  (localRun start events).notifications =
    (upToLastResult events).filterMap LocalEvent.packet? ++
      ((afterLastResult events).filterMap LocalEvent.packet?).filter NotificationPacket.isCustom

def NoNotificationLost (start : HookState) (events : List LocalEvent) : Prop :=
  ∀ before, before <+: events → SentInOrder start before

def LocalEvent.waits : LocalEvent → Bool
  | .notificationEnd data => data.reasonType ≠ .custom
  | .processed _ _ => false

def FindsHeld (first second : LocalEvent) : Prop := first.waits = true ∧ second.isResult = false

def hookStart (lastCheck : ObjectKey → Option Int) : HookState := ⟨lastCheck, none, []⟩

@[simp]
theorem packets_notificationEnd (data : NotificationData) (events : List LocalEvent) :
    (LocalEvent.notificationEnd data :: events).filterMap LocalEvent.packet? =
      notificationPacket destPeersMasters data :: events.filterMap LocalEvent.packet? := rfl

@[simp]
theorem packets_processed (object : ObjectKey) (endTime : Timeval) (events : List LocalEvent) :
    (LocalEvent.processed object endTime :: events).filterMap LocalEvent.packet? =
      events.filterMap LocalEvent.packet? := rfl

def sentNotifications : Option NotificationPacket → List LocalEvent → List NotificationPacket
  | _, [] => []
  | held, .processed _ _ :: events => held.toList ++ sentNotifications none events
  | held, .notificationEnd data :: events =>
    let packet := notificationPacket destPeersMasters data
    if packet.isCustom then
      packet :: sentNotifications held events
    else
      sentNotifications (held.or (some packet)) events

@[simp]
theorem isCustom_notificationPacket (selection : Nat) (data : NotificationData) :
    (notificationPacket selection data).isCustom = decide (data.reasonType = .custom) := by
  unfold notificationPacket
  cases data.notificationType with
  | host | service | unknown => rfl

private theorem notifications_sendGeneric (event : SentEvent) :
    (state.sendGeneric event).notifications =
      state.notifications ++ event.notification?.toList := by
  unfold HookState.notifications
  rw [sendGeneric, filterMap_append]
  cases event with
  | status object | notification packet => rfl

private theorem notifications_flushNotification :
    state.flushNotification.notifications =
        state.notifications ++ state.tmpNotifData.toList ∧
      state.flushNotification.tmpNotifData = none := by
  unfold flushNotification
  cases held : state.tmpNotifData with
  | none => exact ⟨by simp, held⟩
  | some packet => exact ⟨notifications_sendGeneric state (.notification packet), rfl⟩

private theorem holdNotificationPacket_tmpNotifData (packet : NotificationPacket) :
    (state.holdNotificationPacket packet).notifications = state.notifications ∧
      (state.holdNotificationPacket packet).tmpNotifData = state.tmpNotifData.or (some packet) := by
  unfold holdNotificationPacket
  cases held : state.tmpNotifData with
  | none => exact ⟨rfl, rfl⟩
  | some other => exact ⟨rfl, held⟩

private theorem notifications_localRun (events : List LocalEvent) :
    (localRun state events).notifications =
      state.notifications ++ sentNotifications state.tmpNotifData events := by
  induction events generalizing state with
  | nil => simp [localRun, sentNotifications]
  | cons event events ih =>
    have later : localRun state (event :: events) = localRun (localStep state event) events := rfl
    rw [later, ih]
    cases event with
    | processed object endTime =>
      have flushed := notifications_flushNotification
        ((state.setLastCheck object endTime.tvSec).sendGeneric (.status object))
      have sent :
          ((state.setLastCheck object endTime.tvSec).sendGeneric
            (.status object)).notifications = state.notifications := by
        rw [notifications_sendGeneric]
        exact append_nil _
      simp only [localStep, hookResult, Bool.false_eq_true, if_false, sentNotifications]
      rw [flushed.1, flushed.2, sent, append_assoc]
      rfl
    | notificationEnd data =>
      simp only [localStep, hookNotificationEnd, Option.getD_none, Option.isSome_none,
        Bool.false_eq_true, or_false, sentNotifications, isCustom_notificationPacket,
        decide_eq_true_eq]
      by_cases custom : data.reasonType = .custom
      · rw [if_pos custom, if_pos custom, notifications_sendGeneric, append_assoc]
        rfl
      · have held := holdNotificationPacket_tmpNotifData state
          (notificationPacket destPeersMasters data)
        rw [if_neg custom, if_neg custom, held.1, held.2]

section Closed

variable {held : Option NotificationPacket} {events : List LocalEvent} {result : LocalEvent}

private theorem sentNotifications_append_result (isResult : result.isResult = true)
    (after : List LocalEvent) :
    sentNotifications held (events ++ result :: after) =
      sentNotifications held (events ++ [result]) ++ sentNotifications none after := by
  induction events generalizing held with
  | nil =>
    cases result with
    | notificationEnd data => cases isResult
    | processed object endTime => simp [sentNotifications]
  | cons event events ih =>
    cases event with
    | notificationEnd data =>
      simp only [cons_append, sentNotifications]
      split
      · rw [ih, cons_append]
      · rw [ih]
    | processed object endTime =>
      simp only [cons_append, sentNotifications]
      rw [ih, append_assoc]

theorem sentNotifications_of_no_result (noResult : ∀ event ∈ events, event.isResult = false) :
    sentNotifications held events =
      (events.filterMap LocalEvent.packet?).filter NotificationPacket.isCustom := by
  induction events generalizing held with
  | nil => rfl
  | cons event events ih =>
    have later : ∀ other ∈ events, other.isResult = false := fun other member =>
      noResult other (mem_cons_of_mem event member)
    cases event with
    | notificationEnd data =>
      by_cases custom : data.reasonType = .custom
      · simp [sentNotifications, custom, ih later]
      · simp [sentNotifications, custom, ih later]
    | processed object endTime =>
      exact absurd (noResult _ mem_cons_self) (by simp [LocalEvent.isResult])

private theorem length_sentNotifications_le :
    (sentNotifications held events).length ≤
      held.toList.length + (events.filterMap LocalEvent.packet?).length := by
  induction events generalizing held with
  | nil => exact Nat.zero_le _
  | cons event events ih =>
    cases event with
    | notificationEnd data =>
      rw [packets_notificationEnd, length_cons]
      simp only [sentNotifications]
      split
      · have bound := @ih held
        rw [length_cons]
        omega
      · have bound := @ih (held.or (some (notificationPacket destPeersMasters data)))
        cases held with
        | none =>
          rw [Option.none_or] at bound ⊢
          simp only [Option.toList_some, length_singleton] at bound
          omega
        | some packet =>
          simp only [Option.some_or, Option.toList_some, length_singleton] at bound ⊢
          omega
    | processed object endTime =>
      have bound := @ih none
      simp only [sentNotifications, length_append]
      simp only [Option.toList_none, length_nil, Nat.zero_add] at bound
      exact Nat.add_le_add_left bound _

private theorem sentNotifications_some_iff {packet : NotificationPacket} {event : LocalEvent}
    (waits : packet.isCustom = false) :
    sentNotifications (some packet) (event :: events) =
        packet :: (event :: events).filterMap LocalEvent.packet? ↔
      event.isResult = true ∧
        sentNotifications none (event :: events) =
          (event :: events).filterMap LocalEvent.packet? := by
  cases event with
  | processed object endTime => simp [sentNotifications, LocalEvent.isResult]
  | notificationEnd data =>
    simp only [LocalEvent.isResult, Bool.false_eq_true, false_and, iff_false]
    intro allSent
    simp only [sentNotifications, isCustom_notificationPacket, decide_eq_true_eq] at allSent
    by_cases custom : data.reasonType = .custom
    · rw [if_pos custom] at allSent
      have overtakes := congrArg NotificationPacket.isCustom (head_eq_of_cons_eq allSent)
      rw [waits, isCustom_notificationPacket, decide_eq_false_iff_not] at overtakes
      exact overtakes custom
    · rw [if_neg custom, Option.some_or] at allSent
      have bound := @length_sentNotifications_le (some packet) events
      rw [allSent] at bound
      simp only [packets_notificationEnd, length_cons, Option.toList_some, length_nil] at bound
      omega

theorem sentNotifications_none_iff (closed : ∀ last ∈ events.getLast?, last.isResult = true) :
    sentNotifications none events = events.filterMap LocalEvent.packet? ↔
      events.IsChain fun first second => ¬ FindsHeld first second := by
  induction events with
  | nil => simp [sentNotifications]
  | cons event events ih =>
    have laterClosed : ∀ last ∈ events.getLast?, last.isResult = true := by
      intro last isLast
      cases events with
      | nil => cases isLast
      | cons next others => exact closed last (by rw [getLast?_cons_cons]; exact isLast)
    rw [isChain_cons, ← ih laterClosed]
    cases event with
    | processed object endTime => simp [sentNotifications, FindsHeld, LocalEvent.waits]
    | notificationEnd data =>
      by_cases custom : data.reasonType = .custom
      · simp [sentNotifications, FindsHeld, LocalEvent.waits, custom]
      · cases events with
        | nil =>
          have isResult := closed (.notificationEnd data) rfl
          cases isResult
        | cons next others =>
          have first :
              sentNotifications none (.notificationEnd data :: next :: others) =
                sentNotifications (some (notificationPacket destPeersMasters data))
                  (next :: others) := by
            rw [sentNotifications]
            simp [custom]
          have notHeld :
              (∀ second ∈ (next :: others).head?, ¬ FindsHeld (.notificationEnd data) second) ↔
                next.isResult = true := by
            simp [FindsHeld, LocalEvent.waits, custom]
          rw [first, packets_notificationEnd, notHeld]
          exact sentNotifications_some_iff (by simp [custom])

end Closed

private theorem getLast?_upToLastResult {events : List LocalEvent} :
    ∀ last ∈ (upToLastResult events).getLast?, last.isResult = true := by
  intro last isLast
  obtain ⟨nonempty, same⟩ := mem_getLast?_eq_getLast isLast
  have notDropped := rdropWhile_last_not _ events nonempty
  rw [same]
  simpa [upToLastResult] using notDropped

private theorem sentNotifications_upToLastResult (events : List LocalEvent) :
    sentNotifications none events =
      sentNotifications none (upToLastResult events) ++
        ((afterLastResult events).filterMap LocalEvent.packet?).filter
          NotificationPacket.isCustom := by
  have whole : upToLastResult events ++ afterLastResult events = events :=
    rdropWhile_append_rtakeWhile
  have noResult : ∀ event ∈ afterLastResult events, event.isResult = false := by
    intro event member
    simpa using mem_rtakeWhile_imp member
  have customs := @sentNotifications_of_no_result none _ noResult
  rw [← customs]
  cases closed : (upToLastResult events).getLast? with
  | none =>
    rw [getLast?_eq_none_iff] at closed
    rw [closed, nil_append] at whole
    rw [closed, whole]
    rfl
  | some last =>
    have isResult := getLast?_upToLastResult last closed
    obtain ⟨before, split⟩ := getLast?_eq_some_iff.mp closed
    rw [split, append_assoc, singleton_append] at whole
    rw [split, ← sentNotifications_append_result isResult, whole]

private theorem sentInOrder_iff (lastCheck : ObjectKey → Option Int) (events : List LocalEvent) :
    SentInOrder (hookStart lastCheck) events ↔
      (upToLastResult events).IsChain fun first second => ¬ FindsHeld first second := by
  rw [← sentNotifications_none_iff (getLast?_upToLastResult)]
  unfold SentInOrder
  rw [notifications_localRun]
  simp only [hookStart, HookState.notifications, filterMap_nil, nil_append]
  rw [sentNotifications_upToLastResult]
  exact append_left_inj _

theorem upToLastResult_isPrefix {before events : List LocalEvent} (isPrefix : before <+: events) :
    upToLastResult before <+: upToLastResult events := by
  induction events using reverseRecOn with
  | nil => rw [prefix_nil.mp isPrefix]
  | append_singleton events event ih =>
    rcases prefix_concat_iff.mp isPrefix with same | shorter
    · rw [same]
    · apply (ih shorter).trans
      unfold upToLastResult
      rw [rdropWhile_concat]
      split
      · exact prefix_rfl
      · have dropped := rdropWhile_prefix (fun event => !event.isResult) events
        exact dropped.trans (prefix_append events [event])

/-- Every notification is sent once and in order, the custom ones at once and the
others with the next check result, exactly if none of those before the last
check result finds another one that waits. -/
theorem noNotificationLost_iff
    (lastCheck : ObjectKey → Option Int) (events : List LocalEvent) :
    NoNotificationLost (hookStart lastCheck) events ↔
      (upToLastResult events).IsChain fun first second => ¬ FindsHeld first second := by
  constructor
  · intro noneLost
    exact (sentInOrder_iff lastCheck events).mp (noneLost events prefix_rfl)
  · intro chain before isPrefix
    rw [sentInOrder_iff]
    obtain ⟨rest, split⟩ := upToLastResult_isPrefix isPrefix
    rw [← split, isChain_append] at chain
    exact chain.1

def sampleNotification (reasonType : NotificationReason) : LocalEvent :=
  .notificationEnd
    ⟨.host, reasonType, ⟨1, 0, 100, 200⟩, ⟨0, 0⟩, ⟨0, 0⟩, ⟨some "h", none, none, none, none⟩⟩

theorem notification_lost :
    ¬ NoNotificationLost (hookStart fun _ => none)
        [sampleNotification .normal, sampleNotification .flappingStart,
          .processed (.host "h") ⟨100, 0⟩] ∧
      ¬ NoNotificationLost (hookStart fun _ => none)
        [sampleNotification .normal, sampleNotification .custom,
          .processed (.host "h") ⟨100, 0⟩] := by
  constructor
  · intro noneLost
    have sent := noneLost _ prefix_rfl
    unfold SentInOrder at sent
    exact absurd sent (by decide)
  · intro noneLost
    have sent := noneLost _ prefix_rfl
    unfold SentInOrder at sent
    exact absurd sent (by decide)

end MonitorMerlin
