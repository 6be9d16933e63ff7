import MonitorMerlin.Binlog.Memory

/-! # Closing the backlog file -/

namespace MonitorMerlin

open ByteImage List

inductive ClosableCall where
  | add (buf : Bytes)
  | read
  | close
  deriving DecidableEq, Repr

def ClosableCall.Fits : ClosableCall → Prop
  | .add buf => EntryFits buf
  | .read => True
  | .close => True

def closableStep (state : BinlogState) : ClosableCall → BinlogState
  | .add buf => (binlogAdd state buf).2
  | .read => (binlogRead state).2
  | .close => binlogClose state

inductive CallAnswer where
  | added (code : Int) (entries : Nat)
  | delivered (result : Except Int Bytes) (entries : Nat)

def callAnswer (state : BinlogState) : ClosableCall → List CallAnswer
  | .add buf => [.added (binlogAdd state buf).1 (binlogNumEntries (binlogAdd state buf).2.bl)]
  | .read => [.delivered (binlogRead state).1 (binlogNumEntries (binlogRead state).2.bl)]
  | .close => []

def callAnswers : BinlogState → List ClosableCall → List CallAnswer
  | _, [] => []
  | state, call :: rest => callAnswer state call ++ callAnswers (closableStep state call) rest

def MemoryRefuses (bl : Binlog) : Prop :=
  bl.maxMemSize = 0 ∨ bl.maxMemSize ≤ bl.memSize ∧ bl.memSize ≤ 2 ^ 31

instance (bl : Binlog) : Decidable (MemoryRefuses bl) := inferInstanceAs (Decidable (_ ∨ _ ∧ _))

/-- No file is open, or it is read to its end and memory takes nothing. -/
def CloseHarmless (bl : Binlog) : Prop :=
  bl.fd = none ∨ bl.fileSize ≤ bl.fileReadPos ∧ MemoryRefuses bl

instance (bl : Binlog) : Decidable (CloseHarmless bl) := inferInstanceAs (Decidable (_ ∨ _ ∧ _))

variable {bl : Binlog}

theorem MemoryRefuses.not_kept {buf : Bytes} (refuses : MemoryRefuses bl) (fits : EntryFits buf) :
    ¬ uint (bl.memSize + buf.length) < bl.maxMemSize := by
  unfold MemoryRefuses at refuses
  unfold EntryFits at fits
  unfold uint
  omega

structure Closable (state : BinlogState) : Prop where
  valid : state.bl.isValid = true
  attached : FileAttached state

variable {state : BinlogState}

theorem Closable.congr (closable : Closable state) (same : SameFile bl state.bl) :
    Closable { state with bl := bl } :=
  ⟨same.isValid.trans closable.valid, closable.attached.congr same.fd same.path⟩

theorem Closable.close (closable : Closable state) : Closable (binlogClose state) :=
  ⟨closable.valid, nofun⟩

section

variable (closable : Closable state)

include closable

theorem Closable.add (buf : Bytes) : Closable (binlogAdd state buf).2 := by
  rcases closable.attached.add_cases closable.valid buf with
    inMemory | ⟨name, named, onFile⟩ | ⟨-, same⟩
  · rw [inMemory]
    exact closable.congr (binlogMemAdd_sameFile state.bl buf)
  · rw [onFile]
    exact ⟨closable.valid, attached_appended named⟩
  · rw [same]
    exact closable

theorem Closable.memRead : Closable { state with bl := (binlogMemRead state.bl).2 } :=
  closable.congr (binlogMemRead_sameFile state.bl)

theorem Closable.read : Closable (binlogRead state).2 := by
  rcases binlogRead_cases closable.valid with ⟨buf, _, result⟩ | ⟨_, result⟩
  · rw [result]
    exact closable.memRead
  · rw [result]
    exact ⟨(binlogFileRead_isValid _).trans closable.memRead.valid,
      closable.memRead.attached.fileRead⟩

theorem Closable.step (call : ClosableCall) : Closable (closableStep state call) := by
  cases call with
  | add buf => exact closable.add buf
  | read => exact closable.read
  | close => exact closable.close

end

private theorem binlogMemRead_closed (bl : Binlog) :
    binlogMemRead { bl with fd := none } =
      ((binlogMemRead bl).1, { (binlogMemRead bl).2 with fd := none }) := by
  unfold binlogMemRead
  cases bl.cache with
  | none => rfl
  | some slots =>
    simp only
    split
    · rfl
    · split
      · rfl
      · split <;> rfl

private theorem binlogClose_of_fd_none (noFd : state.bl.fd = none) : binlogClose state = state := by
  unfold binlogClose
  rw [← noFd]

private theorem binlogRead_closed_cases (valid : state.bl.isValid = true) :
    (∃ buf, (binlogMemRead state.bl).1 = .ok buf ∧
        binlogRead state = (.ok buf, { state with bl := (binlogMemRead state.bl).2 }) ∧
        binlogRead (binlogClose state) =
          (.ok buf, binlogClose { state with bl := (binlogMemRead state.bl).2 })) ∨
      binlogRead state = binlogFileRead { state with bl := (binlogMemRead state.bl).2 } ∧
        binlogRead (binlogClose state) =
          binlogFileRead (binlogClose { state with bl := (binlogMemRead state.bl).2 }) := by
  have closedMemory : binlogMemRead (binlogClose state).bl =
      ((binlogMemRead state.bl).1, { (binlogMemRead state.bl).2 with fd := none }) :=
    binlogMemRead_closed state.bl
  have closedValid : (binlogClose state).bl.isValid = true := valid
  unfold binlogRead
  rw [if_neg (by simp [valid]), if_neg (by simp [closedValid]), closedMemory]
  rcases binlogMemRead state.bl with ⟨outcome, bl⟩
  cases outcome with
  | ok buf => exact .inl ⟨buf, rfl, rfl, rfl⟩
  | error code => exact .inr ⟨rfl, rfl⟩

private theorem binlogFileRead_close (atEnd : state.bl.fileSize ≤ state.bl.fileReadPos) :
    binlogFileRead (binlogClose state) = binlogFileRead state := by
  have closedAtEnd : (binlogClose state).bl.fileSize ≤ (binlogClose state).bl.fileReadPos := atEnd
  unfold binlogFileRead
  rw [if_pos atEnd, if_pos closedAtEnd]
  rfl

variable {call : ClosableCall}

theorem Closable.harmless_step (closable : Closable state) (fits : call.Fits)
    (harmless : CloseHarmless state.bl) :
    callAnswer (binlogClose state) call = callAnswer state call ∧
      (closableStep (binlogClose state) call = closableStep state call ∨
        closableStep (binlogClose state) call = binlogClose (closableStep state call) ∧
          CloseHarmless (closableStep state call).bl) := by
  rcases harmless with noFd | ⟨atEnd, refuses⟩
  · rw [binlogClose_of_fd_none noFd]
    exact ⟨rfl, .inl rfl⟩
  · cases call with
    | close => exact ⟨rfl, .inl rfl⟩
    | read =>
      obtain ⟨cache, readIndex, writeIndex, memAvail, fields⟩ := binlogMemRead_fields state.bl
      rcases binlogRead_closed_cases closable.valid with
        ⟨buf, _, result, closedResult⟩ | ⟨result, closedResult⟩
      · simp only [callAnswer, closableStep, result, closedResult]
        refine ⟨rfl, .inr ⟨trivial, .inr ?_⟩⟩
        rw [fields]
        exact ⟨atEnd, refuses⟩
      · have stillAtEnd : ({ state with bl := (binlogMemRead state.bl).2 } :
            BinlogState).bl.fileSize ≤ (binlogMemRead state.bl).2.fileReadPos := by
          rw [fields]
          exact atEnd
        rw [binlogFileRead_close stillAtEnd, ← result] at closedResult
        simp only [callAnswer, closableStep, closedResult]
        exact ⟨trivial, .inl trivial⟩
    | add buf =>
      have notKept : ¬ uint (state.bl.memSize + buf.length) < state.bl.maxMemSize :=
        refuses.not_kept fits
      have added : binlogAdd state buf = binlogFileAdd state buf .full .full :=
        binlogAddWrites_toFile closable.valid fun kept => notKept kept.2
      have closedAdded :
          binlogAdd (binlogClose state) buf = binlogFileAdd (binlogClose state) buf .full .full :=
        binlogAddWrites_toFile closable.close.valid fun kept => notKept kept.2
      by_cases full : state.bl.maxFileSize < state.bl.fileSize + buf.length
      · rw [binlogFileAdd, if_pos full] at added
        rw [binlogFileAdd, if_pos (by exact full)] at closedAdded
        simp only [callAnswer, closableStep, added, closedAdded]
        exact ⟨rfl, .inr ⟨trivial, .inr ⟨atEnd, refuses⟩⟩⟩
      · cases someFd : state.bl.fd with
        | none =>
          rw [binlogClose_of_fd_none someFd]
          exact ⟨rfl, .inl rfl⟩
        | some fd =>
          have named := (closable.attached fd someFd).1
          have room := Int.not_lt.mp full
          rw [closable.attached.fileAdd closable.valid named room] at added
          rw [closable.close.attached.fileAdd closable.close.valid named room] at closedAdded
          have sameResult : binlogAdd (binlogClose state) buf = binlogAdd state buf :=
            closedAdded.trans added.symm
          simp only [callAnswer, closableStep, sameResult]
          exact ⟨trivial, .inl trivial⟩

theorem Closable.harmless (closable : Closable state) (harmless : CloseHarmless state.bl)
    {after : List ClosableCall} (fits : ∀ call ∈ after, call.Fits) :
    callAnswers (binlogClose state) after = callAnswers state after := by
  induction after generalizing state with
  | nil => rfl
  | cons call rest ih =>
    rw [forall_mem_cons] at fits
    obtain ⟨sameAnswer, sameState | ⟨closedState, stillHarmless⟩⟩ :=
      closable.harmless_step fits.1 harmless
    · rw [callAnswers, callAnswers, sameAnswer, sameState]
    · rw [callAnswers, callAnswers, sameAnswer, closedState,
        ih (closable.step call) stillHarmless fits.2]

theorem closable_create {path : Option Bytes} {msize fsize : Nat} {unlinkFile : Bool} {disk : Disk}
    {start : BinlogState} (created : binlogCreate path msize fsize unlinkFile disk = some start) :
    Closable start := by
  rw [binlogCreate_eq created]
  exact ⟨rfl, nofun⟩

/-- The calls other than `binlog_close`. -/
def withoutCloses (calls : List ClosableCall) : List ClosableCall :=
  calls.filter fun call => call ≠ .close

def ClosesHarmless : BinlogState → List ClosableCall → Prop :=
  Run.Permits (fun state call => some (closableStep state call))
    fun state call => call = .close → CloseHarmless state.bl

instance (state : BinlogState) (calls : List ClosableCall) :
    Decidable (ClosesHarmless state calls) :=
  inferInstanceAs (Decidable (Run.Permits _ _ state calls))

theorem Closable.callAnswers_withoutCloses {calls : List ClosableCall} (closable : Closable state)
    (fits : ∀ call ∈ calls, call.Fits) (harmless : ClosesHarmless state calls) :
    callAnswers state calls = callAnswers state (withoutCloses calls) := by
  induction calls generalizing state with
  | nil => rfl
  | cons call rest ih =>
    rw [forall_mem_cons] at fits
    have answers := ih (closable.step call) fits.2 (harmless.2 _ rfl)
    by_cases isClose : call = .close
    · subst isClose
      -- the close is the first that differs, so the rest is already without closes
      have restFits : ∀ call ∈ withoutCloses rest, call.Fits :=
        fun call member => fits.2 call (mem_of_mem_filter member)
      calc callAnswers state (.close :: rest)
        _ = callAnswers (binlogClose state) (withoutCloses rest) := answers
        _ = callAnswers state (withoutCloses rest) :=
          closable.harmless (harmless.1 rfl) restFits
    · have kept : withoutCloses (call :: rest) = call :: withoutCloses rest :=
        filter_cons_of_pos (decide_eq_true isClose)
      rw [kept, callAnswers, callAnswers, answers]

/-- Closing a fresh backlog any number of times changes no answer, if each time no
file is open, or the file has been read to its end and memory takes nothing. -/
theorem binlogClose_transparent
    {path : Option Bytes} {msize fsize : Nat} {unlinkFile : Bool} {disk : Disk}
    {start : BinlogState}
    (created : binlogCreate path msize fsize unlinkFile disk = some start)
    (calls : List ClosableCall) (fits : ∀ call ∈ calls, call.Fits)
    (harmless : ClosesHarmless start calls) :
    callAnswers start calls = callAnswers start (withoutCloses calls) :=
  (closable_create created).callAnswers_withoutCloses fits harmless

theorem binlogClose_transparent_thrice :
    callAnswers (sampleBinlog 0 64) [.close, .add [1], .add [2], .read, .read, .close, .add [3],
        .read, .close] =
      callAnswers (sampleBinlog 0 64) [.add [1], .add [2], .read, .read, .add [3], .read] :=
  binlogClose_transparent (sampleBinlog_created 0 64)
    [.close, .add [1], .add [2], .read, .read, .close, .add [3], .read, .close]
    (by simp [ClosableCall.Fits, EntryFits]) (by decide)

theorem binlogClose_not_transparent :
    (binlogRead (binlogAdd (sampleBinlog 0 64) [1]).2).1 = .ok [1] ∧
      (binlogRead (binlogClose (binlogAdd (sampleBinlog 0 64) [1]).2)).1 = .error (-1) ∧
      callAnswers (sampleBinlog 0 64) [.add [1], .close, .read] ≠
        callAnswers (sampleBinlog 0 64) (withoutCloses [.add [1], .close, .read]) := by
  refine ⟨rfl, rfl, fun same => ?_⟩
  have answer := congrArg List.getLast? same
  cases answer

end MonitorMerlin
