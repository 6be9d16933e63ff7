import MonitorMerlin.Library.Block
import MonitorMerlin.Library.MachineInt

/-! # Encoding and decoding packet bodies -/

namespace MonitorMerlin

open ByteImage List MachineInt

inductive NebStruct where
  | processData
  | timedEventData
  | logData
  | systemCommandData
  | eventHandlerData
  | notificationData
  | merlinServiceStatus
  | merlinHostStatus
  | commentData
  | downtimeData
  | flappingData
  | programStatusData
  | externalCommandData
  | contactNotificationData
  | contactNotificationMethodData
  | acknowledgementData
  | statechangeData
  deriving DecidableEq, Repr

inductive StringField where
  | data
  | commandLine
  | output
  | hostName
  | serviceDescription
  | ackAuthor
  | ackData
  | statePluginOutput
  | stateLongPluginOutput
  | statePerfData
  | name
  | authorName
  | commentData
  | globalHostEventHandler
  | globalServiceEventHandler
  | commandString
  | commandArgs
  | contactName
  | commandName
  deriving DecidableEq, Repr

def NebStruct.stringFields : NebStruct → List StringField
  | .processData => []
  | .timedEventData => []
  | .logData => [.data]
  | .systemCommandData => [.commandLine, .output]
  | .eventHandlerData => [.hostName, .serviceDescription, .commandLine, .output]
  | .notificationData => [.hostName, .serviceDescription, .output, .ackAuthor, .ackData]
  | .merlinServiceStatus =>
    [.hostName, .serviceDescription, .statePluginOutput, .stateLongPluginOutput, .statePerfData]
  | .merlinHostStatus => [.name, .statePluginOutput, .stateLongPluginOutput, .statePerfData]
  | .commentData => [.hostName, .serviceDescription, .authorName, .commentData]
  | .downtimeData => [.hostName, .serviceDescription, .authorName, .commentData]
  | .flappingData => [.hostName, .serviceDescription]
  | .programStatusData => [.globalHostEventHandler, .globalServiceEventHandler]
  | .externalCommandData => [.commandString, .commandArgs]
  | .contactNotificationData =>
    [.hostName, .serviceDescription, .contactName, .output, .ackAuthor, .ackData]
  | .contactNotificationMethodData =>
    [.hostName, .serviceDescription, .contactName, .commandName, .output, .ackAuthor, .ackData]
  | .acknowledgementData => [.hostName, .serviceDescription, .authorName, .commentData]
  | .statechangeData => [.hostName, .serviceDescription, .output]

def SlotsApart (first second : Nat) : Prop := first + 8 ≤ second ∨ second + 8 ≤ first

instance (first second : Nat) : Decidable (SlotsApart first second) :=
  inferInstanceAs (Decidable (_ ∨ _))

structure Layout where
  sizeOf : NebStruct → Nat
  offsetOf : NebStruct → StringField → Nat
  size_pos : ∀ struct, 0 < sizeOf struct
  size_le : ∀ struct, sizeOf struct ≤ 131072
  inside : ∀ struct : NebStruct, ∀ field ∈ struct.stringFields,
    offsetOf struct field + 8 ≤ sizeOf struct
  notFirst : ∀ struct : NebStruct, ∀ field ∈ struct.stringFields, offsetOf struct field ≠ 0
  apart : ∀ struct : NebStruct, struct.stringFields.Pairwise fun first second =>
      SlotsApart (offsetOf struct first) (offsetOf struct second)

/-- `struct hook_info_struct`. -/
structure HookInfo where
  strings : Nat
  offset : Nat
  ptrs : List Nat
  deriving DecidableEq, Repr

def HookInfo.slots (info : HookInfo) : List Nat := info.ptrs.take info.strings

def hookInfoRow (layout : Layout) (strings : Nat) (struct : NebStruct) : HookInfo :=
  { strings := strings
    offset := layout.sizeOf struct
    ptrs :=
      struct.stringFields.map (layout.offsetOf struct) ++
        List.replicate (7 - struct.stringFields.length) 0 }

def emptyHookInfo : HookInfo := ⟨0, 0, List.replicate 7 0⟩

/-- `hook_info`. -/
def hookInfo (layout : Layout) : List HookInfo :=
  [hookInfoRow layout 0 .processData,
    hookInfoRow layout 0 .timedEventData,
    hookInfoRow layout 1 .logData,
    hookInfoRow layout 2 .systemCommandData,
    hookInfoRow layout 4 .eventHandlerData,
    hookInfoRow layout 5 .notificationData,
    hookInfoRow layout 5 .merlinServiceStatus,
    hookInfoRow layout 4 .merlinHostStatus,
    hookInfoRow layout 4 .commentData,
    hookInfoRow layout 4 .downtimeData,
    hookInfoRow layout 2 .flappingData,
    hookInfoRow layout 2 .programStatusData,
    hookInfoRow layout 4 .merlinHostStatus,
    hookInfoRow layout 5 .merlinServiceStatus,
    emptyHookInfo,
    emptyHookInfo,
    emptyHookInfo,
    hookInfoRow layout 2 .externalCommandData,
    emptyHookInfo,
    emptyHookInfo,
    hookInfoRow layout 6 .contactNotificationData,
    hookInfoRow layout 7 .contactNotificationMethodData,
    hookInfoRow layout 4 .acknowledgementData,
    hookInfoRow layout 3 .statechangeData,
    emptyHookInfo,
    emptyHookInfo]

def runcmdPacket : Int := 0xfffc

/-- What is used for a `merlin_runcmd`. -/
def runcmdInfo : HookInfo := ⟨1, 12, 4 :: List.replicate 6 0⟩

/-- The entry for a type, as for `merlin_encode_event`. -/
def infoFor (layout : Layout) (cbType : Int) : Option HookInfo :=
  if cbType = runcmdPacket then
    some runcmdInfo
  else if cbType < 0 then
    none
  else
    (hookInfo layout)[cbType.toNat]?

structure CString where
  bytes : Bytes
  noTerminator : 0 ∉ bytes
  short : bytes.length < 2 ^ 31

def clearSlots : List Nat → Bytes → Option Bytes
  | [], buf => some buf
  | slot :: rest, buf => do
      let cleared ← store buf slot (List.replicate 8 0)
      clearSlots rest cleared

def encodeStrings (heap : Nat → CString) (buflen : Nat) :
    List Nat → Bytes → Nat → Option (Bytes × Nat)
  | [], buf, offset => some (buf, offset)
  | slot :: rest, buf, offset => do
      let sp := leValue (← load buf slot 8)
      if sp = 0 then
        encodeStrings heap buflen rest buf offset
      else if buflen ≤ offset then
        let cleared ← clearSlots (slot :: rest) buf
        some (cleared, offset)
      else
        let len := min (heap sp).bytes.length (buflen - offset - 1)
        let buf ← store buf offset ((heap sp).bytes.take len)
        let buf ← store buf (offset + len) [0]
        let buf ← store buf slot (leBytes 8 offset)
        encodeStrings heap buflen rest buf (offset + (len + 1))

def alignUp (offset : Nat) : Nat := if offset % 8 ≠ 0 then offset + (8 - offset % 8) else offset

/-- `merlin_encode`: the size and the buffer. -/
def merlinEncode
    (layout : Layout) (heap : Nat → CString) (data : Option Bytes) (cbType : Int)
    (buf : Bytes) (buflen : Nat) : Option (Nat × Bytes) :=
  match data, infoFor layout cbType with
  | none, _ => some (0, buf)
  | _, none => some (0, buf)
  | some data, some info => do
      let struct ← load data 0 info.offset
      let buf ← store buf 0 struct
      let (buf, offset) ← encodeStrings heap buflen info.slots buf info.offset
      some (alignUp offset, buf)

def decodeStrings (base : Nat) (len : Int) :
    List Nat → (index ret : Nat) → Bytes → Option (Nat × Bytes)
  | [], _, ret, block => some (ret, block)
  | slot :: rest, index, ret, block =>
    if slot = 0 then
      decodeStrings base len rest (index + 1) ret block
    else do
      let ptr := leValue (← load block slot 8)
      if ptr = 0 then
        decodeStrings base len rest (index + 1) ret block
      else if len < toInt64 ptr then
        let block ← store block slot (leBytes 8 0)
        decodeStrings base len rest (index + 1) (ret ||| 2 ^ index) block
      else
        let block ← store block slot (leBytes 8 ((ptr + base) % 2 ^ 64))
        decodeStrings base len rest (index + 1) ret block

/-- `merlin_decode` of a block at address `base`. -/
def merlinDecode
    (layout : Layout) (ds : Option Bytes) (base : Nat) (len : Int) (cbType : Int) :
    Option (Int × Bytes) :=
  match ds, infoFor layout cbType with
  | none, _ => some (-1, [])
  | some block, none => some (-1, block)
  | some block, some info =>
    if len = 0 then
      some (-1, block)
    else do
      let (ret, block) ← decodeStrings base len info.slots 0 0 block
      some (ret, block)

def slotValue (block : Bytes) (slot : Nat) : Nat := leValue (slice block slot 8)

def loadString (block : Bytes) (base slot : Nat) : Option (Option Bytes) :=
  if slotValue block slot = 0 then
    some none
  else if base ≤ slotValue block slot ∧ slotValue block slot < base + block.length then
    (cstring (block.drop (slotValue block slot - base))).map some
  else
    none

structure HookInfo.WellFormed (info : HookInfo) : Prop where
  small : info.offset ≤ 131072
  inside : ∀ slot ∈ info.slots, slot + 8 ≤ info.offset
  notFirst : ∀ slot ∈ info.slots, slot ≠ 0
  apart : info.slots.Pairwise SlotsApart

private theorem emptyHookInfo_wellFormed : emptyHookInfo.WellFormed :=
  ⟨by decide, by decide, by decide, by decide⟩

private theorem runcmdInfo_wellFormed : runcmdInfo.WellFormed :=
  ⟨by decide, by decide, by decide, by decide⟩

variable {struct : NebStruct} {strings : Nat}

theorem hookInfoRow_slots (layout : Layout) (counted : strings = struct.stringFields.length) :
    (hookInfoRow layout strings struct).slots =
      struct.stringFields.map (layout.offsetOf struct) := by
  rw [HookInfo.slots, hookInfoRow, counted]
  exact take_left' (length_map _)

theorem hookInfoRow_wellFormed (layout : Layout) (counted : strings = struct.stringFields.length) :
    (hookInfoRow layout strings struct).WellFormed := by
  have slots := hookInfoRow_slots layout counted
  refine ⟨layout.size_le struct, ?_, ?_, ?_⟩
  · rw [slots, forall_mem_map]
    exact layout.inside struct
  · rw [slots, forall_mem_map]
    exact layout.notFirst struct
  · rw [slots, pairwise_map]
    exact layout.apart struct

theorem hookInfo_wellFormed {layout : Layout} : ∀ info ∈ hookInfo layout, info.WellFormed := by
  intro info member
  simp only [hookInfo, mem_cons, not_mem_nil, or_false] at member
  rcases member with
    rfl | rfl | rfl | rfl | rfl | rfl | rfl | rfl | rfl | rfl | rfl | rfl | rfl |
    rfl | rfl | rfl | rfl | rfl | rfl | rfl | rfl | rfl | rfl | rfl | rfl | rfl
  all_goals first | exact emptyHookInfo_wellFormed | exact hookInfoRow_wellFormed layout (by rfl)

theorem infoFor_wellFormed {layout : Layout} {cbType : Int} {info : HookInfo}
    (found : infoFor layout cbType = some info) : info.WellFormed := by
  unfold infoFor at found
  split at found
  · rw [← Option.some.inj found]
    exact runcmdInfo_wellFormed
  · split at found
    · cases found
    · exact hookInfo_wellFormed info (mem_of_getElem? found)

end MonitorMerlin
