import MonitorMerlin.Module.DeleteList

/-! # Periodic tasks -/

namespace MonitorMerlin

open List

universe u

inductive Task where
  | connectToAll
  | sendPulse
  | disconnectInactiveNodes
  | autoDeleteNodes
  deriving DecidableEq, Repr

inductive EventCallback where
  | task (task : Task)
  | other
  deriving DecidableEq, Repr

structure TimedEvent where
  delay : Int
  callback : EventCallback
  deriving DecidableEq, Repr

inductive ExecutionType where
  | normal
  | aborted
  deriving DecidableEq, Repr

structure EventLoop (ι : Type u) where
  module : ModuleState ι
  queue : List TimedEvent

/-- `schedule_event`. -/
def EventLoop.schedule {ι : Type u} (loop : EventLoop ι) (delay : Int)
    (callback : EventCallback) : EventLoop ι :=
  { loop with queue := loop.queue ++ [⟨delay, callback⟩] }

def EventLoop.pending {ι : Type u} (loop : EventLoop ι) (task : Task) : Nat :=
  loop.queue.countP fun event => event.callback = .task task

inductive IpcInit where
  | noSocket
  | isConnected
  | refused
  | connected (outcome : CtrlOutcome)
  deriving DecidableEq, Repr

structure TaskAnswers (ι : Type u) where
  ipcSock : Bool
  ipcSent : CtrlOutcome
  ipcReinit : IpcInit
  ipcInit : IpcInit
  connects : ι → List (ModuleCall ι)
  sent : ι → CtrlOutcome
  inactive : ι → Bool
  seen : Seen ι
  buf : DeleteBuffer

section Functions

variable {ι : Type u} [DecidableEq ι] (config : ModuleConfig ι)
  (qsort : Sorting.Sorter (PeerNode ι))

/-- `ipc_init`. -/
def ipcInit (module : ModuleState ι) : IpcInit → Bool × ModuleState ι
  | .noSocket => (false, module)
  | .isConnected => (true, module)
  | .refused => (false, nodeDisconnect config qsort module config.me)
  | .connected outcome => (true, moduleSetState config qsort module config.me .connected outcome)

/-- `ipc_is_connected`. -/
def ipcIsConnected (answers : TaskAnswers ι) (module : ModuleState ι) : Bool × ModuleState ι :=
  if answers.ipcSock then
    (true, moduleSetState config qsort module config.me .connected answers.ipcSent)
  else
    ipcInit config qsort (nodeDisconnect config qsort module config.me) answers.ipcReinit

def nodeTable : List ι := config.masters ++ config.peers ++ config.pollers

/-- `connect_to_all`. -/
def connectToAll (answers : TaskAnswers ι) (type : ExecutionType) (loop : EventLoop ι) :
    EventLoop ι :=
  if type ≠ .normal then
    loop
  else
    let loop := loop.schedule 1 (.task .connectToAll)
    let ipc := ipcIsConnected config qsort answers loop.module
    let module := if ipc.1 then ipc.2 else (ipcInit config qsort ipc.2 answers.ipcInit).2
    { loop with
      module := (nodeTable config).foldl
        (fun module node =>
          if module.state node = .connected ∨ module.state node = .pending then
            module
          else
            (answers.connects node).foldl (moduleStep config qsort) module)
        module }

variable (deletion : Deletion config)

/-- `send_pulse`. -/
def sendPulse (answers : TaskAnswers ι) (type : ExecutionType)
    (loop : EventLoop ι) : EventLoop ι :=
  if type ≠ .normal then
    loop
  else
    let loop := loop.schedule deletion.pulseInterval (.task .sendPulse)
    { loop with
      module := (nodeTable config).foldl
        (fun module node =>
          if module.state node = .connected then
            nodeSendCtrlActive config qsort module node (answers.sent node)
          else
            module)
        (nodeSendCtrlActive config qsort loop.module config.me answers.ipcSent) }

/-- `disconnect_inactive_nodes`. -/
def disconnectInactiveNodes (answers : TaskAnswers ι) (type : ExecutionType)
    (loop : EventLoop ι) : EventLoop ι :=
  if type ≠ .normal then
    loop
  else
    let loop := loop.schedule 1 (.task .disconnectInactiveNodes)
    { loop with
      module := (nodeTable config).foldl
        (fun module node =>
          if module.state node = .connected ∧ answers.inactive node then
            nodeDisconnect config qsort module node
          else
            module)
        loop.module }

variable {config}

/-- `auto_delete_nodes` as a task. -/
def autoDeleteTask (answers : TaskAnswers ι) (type : ExecutionType)
    (loop : EventLoop ι) : Option (EventLoop ι) :=
  if type ≠ .normal ∨ loop.module.state config.me ≠ .connected then
    some loop
  else
    (autoDeleteNodes deletion loop.module answers.seen answers.buf).map fun _ =>
      loop.schedule 30 (.task .autoDeleteNodes)

def execute (answers : TaskAnswers ι) (loop : EventLoop ι) :
    EventCallback → Option (EventLoop ι)
  | .task .connectToAll => some (connectToAll config qsort answers .normal loop)
  | .task .sendPulse => some (sendPulse config qsort deletion answers .normal loop)
  | .task .disconnectInactiveNodes =>
    some (disconnectInactiveNodes config qsort answers .normal loop)
  | .task .autoDeleteNodes => autoDeleteTask deletion answers .normal loop
  | .other => some loop

inductive LoopEvent (ι : Type u) where
  | execute (event : TimedEvent) (answers : TaskAnswers ι)
  | call (call : ModuleCall ι)
  | schedule (delay : Int)
  | destroy (delay : Int)

def loopStep (loop : EventLoop ι) :
    LoopEvent ι → Option (EventLoop ι)
  | .execute event answers =>
    if event ∈ loop.queue then
      execute qsort deletion answers { loop with queue := loop.queue.erase event } event.callback
    else
      some loop
  | .call call => some { loop with module := moduleStep config qsort loop.module call }
  | .schedule delay => some (loop.schedule delay .other)
  | .destroy delay => some { loop with queue := loop.queue.erase ⟨delay, .other⟩ }

/-- The tasks of `post_config_init`. -/
def postConfigInit (module : ModuleState ι) : EventLoop ι :=
  ⟨module, [⟨0, .task .connectToAll⟩, ⟨0, .task .sendPulse⟩,
    ⟨0, .task .disconnectInactiveNodes⟩, ⟨30, .task .autoDeleteNodes⟩]⟩

end Functions

def OnePending {ι : Type u} (loop : EventLoop ι) : Prop := ∀ task, loop.pending task = 1

section Scheduled

variable {ι : Type u} [DecidableEq ι] {config : ModuleConfig ι}

def KeepsTasks (deletion : Deletion config) (loop : EventLoop ι) : LoopEvent ι → Prop
  | .execute event answers =>
    event ∈ loop.queue → event.callback = .task .autoDeleteNodes →
      loop.module.state config.me = .connected ∧
        ListFits ((deletion.autoDeleted loop.module answers.seen).map deletion.name)
  | _ => True

variable {deletion : Deletion config} {qsort : Sorting.Sorter (PeerNode ι)}
  {answers : TaskAnswers ι} {loop : EventLoop ι} {event : TimedEvent}

section Queue

omit [DecidableEq ι]

theorem pending_schedule (loop : EventLoop ι) (delay : Int) (callback : EventCallback)
    (task : Task) :
    (loop.schedule delay callback).pending task =
      loop.pending task + if callback = .task task then 1 else 0 := by
  simp only [EventLoop.pending, EventLoop.schedule, countP_append, countP_singleton,
    decide_eq_true_eq]

theorem pending_erase (loop : EventLoop ι) (event : TimedEvent) (task : Task) :
    EventLoop.pending { loop with queue := loop.queue.erase event } task =
      loop.pending task - if event ∈ loop.queue ∧ event.callback = .task task then 1 else 0 := by
  simp only [EventLoop.pending, countP_erase, decide_eq_true_eq]

def Taken (task : Task) (loop : EventLoop ι) : Prop :=
  ∀ other, loop.pending other = if task = other then 0 else 1

theorem OnePending.taken {task : Task} (one : OnePending loop) (member : event ∈ loop.queue)
    (isTask : event.callback = .task task) :
    Taken task { loop with queue := loop.queue.erase event } := by
  intro other
  rw [pending_erase, one, isTask]
  simp only [member, true_and, EventCallback.task.injEq]
  split <;> rfl

theorem OnePending.without_other (one : OnePending loop) (isOther : event.callback = .other) :
    OnePending { loop with queue := loop.queue.erase event } := by
  intro task
  rw [pending_erase, one, isOther, if_neg (by simp)]

theorem Taken.schedule {task : Task} (taken : Taken task loop) (delay : Int) :
    OnePending (loop.schedule delay (.task task)) := by
  intro other
  rw [pending_schedule, taken]
  simp only [EventCallback.task.injEq]
  split <;> rfl

theorem onePending_postConfigInit (module : ModuleState ι) :
    OnePending (postConfigInit module) := by
  intro task
  cases task <;> rfl

end Queue

theorem autoDeleteNodes_defined_iff (deletion : Deletion config) (module : ModuleState ι)
    (seen : Seen ι) (buf : DeleteBuffer) :
    (∃ run, autoDeleteNodes deletion module seen buf = some run) ↔
      ListFits ((deletion.autoDeleted module seen).map deletion.name) := by
  apply deleteNames_defined_iff buf
  intro name isName
  obtain ⟨node, _, rfl⟩ := mem_map.mp isName
  exact deletion.noTerminator node

theorem autoDeleteTask_iff (taken : Taken .autoDeleteNodes loop) :
    (∃ next, autoDeleteTask deletion answers .normal loop = some next ∧ OnePending next) ↔
      loop.module.state config.me = .connected ∧
        ListFits ((deletion.autoDeleted loop.module answers.seen).map deletion.name) := by
  rw [← autoDeleteNodes_defined_iff deletion loop.module answers.seen answers.buf, autoDeleteTask]
  by_cases connected : loop.module.state config.me = .connected
  · rw [if_neg (by simp [connected])]
    constructor
    · rintro ⟨next, isNext, -⟩
      obtain ⟨run, isRun, -⟩ := Option.map_eq_some_iff.mp isNext
      exact ⟨connected, run, isRun⟩
    · rintro ⟨-, run, isRun⟩
      exact ⟨_, by rw [isRun, Option.map_some], taken.schedule 30⟩
  · rw [if_pos (.inr connected)]
    refine iff_of_false ?_ fun both => connected both.1
    rintro ⟨next, isNext, one⟩
    cases isNext
    have lost := taken .autoDeleteNodes
    rw [one .autoDeleteNodes] at lost
    cases lost

theorem loopStep_exact (loop : EventLoop ι) (event : LoopEvent ι) (one : OnePending loop) :
    KeepsTasks deletion loop event ↔
      ∃ next, loopStep qsort deletion loop event = some next ∧ OnePending next := by
  cases event with
  | call call => exact iff_of_true trivial ⟨_, rfl, one⟩
  | schedule delay =>
    refine iff_of_true trivial ⟨_, rfl, fun task => ?_⟩
    rw [pending_schedule, one, if_neg (by simp)]
  | destroy delay => exact iff_of_true trivial ⟨_, rfl, one.without_other rfl⟩
  | execute event answers =>
    by_cases member : event ∈ loop.queue
    · rw [loopStep, if_pos member, KeepsTasks]
      cases isCallback : event.callback with
      | other =>
        exact iff_of_true (fun _ isTask => nomatch isTask) ⟨_, rfl, one.without_other isCallback⟩
      | task task =>
        have taken := one.taken member isCallback
        cases task with
        | autoDeleteNodes =>
          rw [execute, autoDeleteTask_iff taken]
          exact ⟨fun keeps => keeps member rfl, fun both _ _ => both⟩
        | connectToAll =>
          exact iff_of_true (fun _ isTask => nomatch isTask) ⟨_, rfl, taken.schedule _⟩
        | sendPulse =>
          exact iff_of_true (fun _ isTask => nomatch isTask) ⟨_, rfl, taken.schedule _⟩
        | disconnectInactiveNodes =>
          exact iff_of_true (fun _ isTask => nomatch isTask) ⟨_, rfl, taken.schedule _⟩
    · rw [loopStep, if_neg member]
      exact iff_of_true (fun isMember => absurd isMember member) ⟨_, rfl, one⟩

/-- Each task has one pending event all the time if and only if the IPC is connected
whenever `auto_delete_nodes` is executed, and the names of the nodes it deletes stay
within the buffer. -/
theorem onePending_always_iff (deletion : Deletion config) (qsort : Sorting.Sorter (PeerNode ι))
    (module : ModuleState ι) (events : List (LoopEvent ι)) :
    Run.Always (loopStep qsort deletion) OnePending (postConfigInit module) events ↔
      Run.Permits (loopStep qsort deletion) (KeepsTasks deletion) (postConfigInit module) events :=
  Run.always_iff_permits loopStep_exact (onePending_postConfigInit module) events

end Scheduled

def quietAnswers : TaskAnswers Nat where
  ipcSock := false
  ipcSent := .sent
  ipcReinit := .refused
  ipcInit := .refused
  connects _ := []
  sent _ := .sent
  inactive _ := false
  seen := ⟨100, 50, fun _ => 85⟩
  buf := ⟨replicate 1024 0, length_replicate⟩

/-- `auto_delete_nodes` while the IPC is down. -/
def ipcDown : List (LoopEvent Nat) :=
  [.call (.disconnect pollerPair.me), .execute ⟨30, .task .autoDeleteNodes⟩ quietAnswers]

theorem not_onePending_ipcDown :
    ¬Run.Always (loopStep (Sorting.insertionSorter _) (pollerPairDeletion 10)) OnePending
        (postConfigInit pollerPairModule) ipcDown ∧
      ∃ last, Run.run (loopStep (Sorting.insertionSorter _) (pollerPairDeletion 10))
          (postConfigInit pollerPairModule) ipcDown = some last ∧
        last.queue = [⟨0, .task .connectToAll⟩, ⟨0, .task .sendPulse⟩,
          ⟨0, .task .disconnectInactiveNodes⟩] := by
  have ran : ∃ last, Run.run (loopStep (Sorting.insertionSorter _) (pollerPairDeletion 10))
        (postConfigInit pollerPairModule) ipcDown = some last ∧
      last.queue = [⟨0, .task .connectToAll⟩, ⟨0, .task .sendPulse⟩,
        ⟨0, .task .disconnectInactiveNodes⟩] :=
    ⟨_, rfl, rfl⟩
  refine ⟨fun always => ?_, ran⟩
  obtain ⟨last, isLast, queue⟩ := ran
  obtain ⟨other, isOther, one⟩ := always ipcDown prefix_rfl
  rw [isLast] at isOther
  cases isOther
  have pending := one .autoDeleteNodes
  rw [EventLoop.pending, queue] at pending
  exact absurd pending (by decide)

end MonitorMerlin
