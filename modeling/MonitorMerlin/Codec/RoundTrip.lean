import Mathlib.Data.List.Forall2
import MonitorMerlin.Codec.Decode

/-! # Encoding and decoding a packet body -/

namespace MonitorMerlin

open ByteImage List MachineInt

def fieldString (heap : Nat → CString) (struct : Bytes) (slot : Nat) : Option Bytes :=
  if slotValue struct slot = 0 then none else some (heap (slotValue struct slot)).bytes

/-- What is left of strings that have to fit in `space` bytes. -/
def fitStrings : (space : Nat) → List (Option Bytes) → List (Option Bytes)
  | _, [] => []
  | space, none :: rest => none :: fitStrings space rest
  | 0, some _ :: rest => none :: fitStrings 0 rest
  | space + 1, some content :: rest =>
    some (content.take space) :: fitStrings (space - content.length) rest

private theorem fitStrings_zero (strings : List (Option Bytes)) :
    fitStrings 0 strings = strings.map fun _ => none := by
  induction strings with
  | nil => rfl
  | cons string rest ih =>
    cases string with
    | none | some content => rw [fitStrings, ih, map_cons]

variable {strings : List (Option Bytes)}

private theorem fitStrings_noTerminator {space : Nat}
    (noTerminator : ∀ content, some content ∈ strings → 0 ∉ content) :
    ∀ content, some content ∈ fitStrings space strings → 0 ∉ content := by
  induction space, strings using fitStrings.induct with
  | case1 => simp [fitStrings]
  | case2 space rest ih | case3 first rest ih =>
    intro content member
    rw [fitStrings] at member
    exact ih (fun other inRest => noTerminator other (by simp [inRest])) content
      (by simpa using member)
  | case4 space first rest ih =>
    intro content member
    rw [fitStrings, mem_cons] at member
    rcases member with cut | member
    · obtain rfl := Option.some.inj cut
      exact fun zero => noTerminator first (by simp) (mem_of_mem_take zero)
    · exact ih (fun other inRest => noTerminator other (by simp [inRest])) content member

def EncodedAs (buf : Bytes) (start stop slot : Nat) : Option Bytes → Prop
  | none => slotValue buf slot = 0
  | some content =>
    start ≤ slotValue buf slot ∧ slotValue buf slot + content.length < stop ∧
      slice buf (slotValue buf slot) (content.length + 1) = content ++ [0]

structure EncodedSlots
    (slots : List Nat) (strings : List (Option Bytes)) (buf : Bytes) (offset : Nat)
    (after : Bytes) (stop : Nat) : Prop where
  length : after.length = buf.length
  grows : offset ≤ stop
  bounded : stop ≤ buf.length
  outside : ∀ index, index < offset → (∀ slot ∈ slots, index < slot ∨ slot + 8 ≤ index) →
    after[index]? = buf[index]?
  encoded : List.Forall₂ (EncodedAs after offset stop) slots strings

variable {buf after : Bytes} {slot : Nat}

private theorem slotValue_congr
    (same : ∀ index, slot ≤ index → index < slot + 8 → after[index]? = buf[index]?) :
    slotValue after slot = slotValue buf slot := by
  rw [slotValue, slice_congr same, slotValue]

variable {slots : List Nat}

theorem EncodedSlots.slotValue_eq {offset stop slot : Nat}
    (encoded : EncodedSlots slots strings buf offset after stop) (before : slot + 8 ≤ offset)
    (apart : ∀ other ∈ slots, SlotsApart slot other) :
    slotValue after slot = slotValue buf slot := by
  refine slotValue_congr fun index lower upper => ?_
  refine encoded.outside index (by omega) fun other member => ?_
  rcases apart other member with left | right
  · exact .inl (by omega)
  · exact .inr (by omega)

variable {string : Option Bytes}

theorem EncodedAs.slotValue_le {start stop slot : Nat}
    (encoded : EncodedAs buf start stop slot string) : slotValue buf slot ≤ stop := by
  cases string with
  | none =>
    have null : slotValue buf slot = 0 := encoded
    omega
  | some content =>
    have before := encoded.2.1
    omega

variable {offset stop : Nat}

theorem EncodedSlots.slotValue_le (encoded : EncodedSlots slots strings buf offset after stop) :
    ∀ slot ∈ slots, slotValue after slot ≤ stop := by
  intro slot member
  obtain ⟨index, inBounds, rfl⟩ := getElem_of_mem member
  exact (encoded.encoded.get inBounds (encoded.encoded.length_eq ▸ inBounds)).slotValue_le

theorem EncodedAs.mono {start start' stop slot : Nat}
    (encoded : EncodedAs buf start' stop slot string) (earlier : start ≤ start') :
    EncodedAs buf start stop slot string := by
  cases string with
  | none => exact encoded
  | some content => exact ⟨earlier.trans encoded.1, encoded.2⟩

private theorem clearSlots_encodes (fits : ∀ slot ∈ slots, slot + 8 ≤ offset)
    (bounded : offset ≤ buf.length) (apart : slots.Pairwise SlotsApart) :
    ∃ after, clearSlots slots buf = some after ∧
      EncodedSlots slots (slots.map fun _ => none) buf offset after offset := by
  induction slots generalizing buf with
  | nil => exact ⟨buf, rfl, rfl, le_rfl, bounded, fun _ _ _ => rfl, .nil⟩
  | cons slot rest ih =>
    obtain ⟨slotFits, restFits⟩ := forall_mem_cons.mp fits
    obtain ⟨slotApart, restApart⟩ := pairwise_cons.mp apart
    have inBuffer : slot + (replicate 8 (0 : UInt8)).length ≤ buf.length := by
      rw [length_replicate]
      omega
    have sameLength := length_patch inBuffer
    obtain ⟨after, cleared, later⟩ := ih restFits (by rw [sameLength]; exact bounded) restApart
    refine ⟨after, ?_, ?_⟩
    · rw [clearSlots, store_eq inBuffer]
      exact cleared
    · refine ⟨later.length.trans sameLength, le_rfl, bounded, ?_, ?_⟩
      · intro index before outside
        obtain ⟨slotOutside, restOutside⟩ := forall_mem_cons.mp outside
        rw [later.outside index before restOutside,
          getElem?_patch_outside inBuffer (by rw [length_replicate]; exact slotOutside)]
      · refine .cons ?_ later.encoded
        change slotValue after slot = 0
        rw [later.slotValue_eq slotFits slotApart]
        exact slotValue_patch_same (by omega) (Nat.two_pow_pos 64)

def putString (buf : Bytes) (offset slot : Nat) (content : Bytes) : Bytes :=
  patch (patch buf offset (content ++ [0])) slot (leBytes 8 offset)

section PutString

variable {content : Bytes} (fits : offset + content.length < buf.length)

include fits

private theorem length_patch_terminated : (patch buf offset (content ++ [0])).length = buf.length :=
  length_patch (by rw [length_append, length_singleton]; omega)

variable (before : slot + 8 ≤ offset)

include before

private theorem length_putString : (putString buf offset slot content).length = buf.length := by
  have inner := length_patch_terminated fits
  rw [putString, length_patch (by rw [inner, length_leBytes]; omega), inner]

private theorem getElem?_putString_outside {index : Nat} (early : index < offset)
    (outside : index < slot ∨ slot + 8 ≤ index) :
    (putString buf offset slot content)[index]? = buf[index]? := by
  have inner := length_patch_terminated fits
  rw [putString, getElem?_patch_outside (by rw [inner, length_leBytes]; omega)
      (by rw [length_leBytes]; exact outside),
    getElem?_patch_outside (by rw [length_append, length_singleton]; omega)
      (.inl early)]

private theorem slotValue_putString (small : buf.length < 2 ^ 64) :
    slotValue (putString buf offset slot content) slot = offset := by
  have inner := length_patch_terminated fits
  exact slotValue_patch_same (by omega) (by omega)

private theorem slice_putString :
    slice (putString buf offset slot content) offset (content.length + 1) = content ++ [0] := by
  have inner := length_patch_terminated fits
  have field :
      slice (patch buf offset (content ++ [0])) offset (content ++ [0]).length = content ++ [0] :=
    slice_patch_same (by omega)
  rw [length_append, length_singleton] at field
  rw [putString, slice_patch_after (by rw [inner, length_leBytes]; omega)
    (by rw [length_leBytes]; exact before), field]

private theorem map_fieldString_putString (heap : Nat → CString) {rest : List Nat}
    (restFits : ∀ other ∈ rest, other + 8 ≤ offset)
    (slotApart : ∀ other ∈ rest, SlotsApart slot other) :
    rest.map (fieldString heap (putString buf offset slot content)) =
      rest.map (fieldString heap buf) := by
  refine map_congr_left fun other member => ?_
  have sameValue : slotValue (putString buf offset slot content) other = slotValue buf other := by
    refine slotValue_congr fun index lower upper => ?_
    have otherFits := restFits other member
    refine getElem?_putString_outside fits before (by omega) ?_
    rcases slotApart other member with left | right
    · exact .inr (by omega)
    · exact .inl (by omega)
  rw [fieldString, sameValue, fieldString]

end PutString

variable {rest : List Nat} {heap : Nat → CString}

private theorem encodeStrings_put {buf content : Bytes} (before : slot + 8 ≤ offset)
    (space : offset < buf.length) (notNull : slotValue buf slot ≠ 0)
    (cut : content = (heap (slotValue buf slot)).bytes.take (buf.length - offset - 1)) :
    encodeStrings heap buf.length (slot :: rest) buf offset =
      encodeStrings heap buf.length rest (putString buf offset slot content)
        (offset + (content.length + 1)) := by
  have length : content.length =
      min (heap (slotValue buf slot)).bytes.length (buf.length - offset - 1) := by
    rw [cut, length_take, Nat.min_comm]
  have fits : offset + content.length < buf.length := by omega
  have inner : (patch buf offset content).length = buf.length := length_patch (by omega)
  have terminated := length_patch_terminated fits
  have joined :
      patch (patch buf offset content) (offset + content.length) [0] =
        patch buf offset (content ++ [0]) :=
    patch_patch_adjacent (by rw [length_singleton]; omega)
  have taken : (heap (slotValue buf slot)).bytes.take content.length = content := by
    rw [length, cut, ← take_take, take_of_length_le (length_take_le' _ _)]
  rw [encodeStrings, load_eq (by omega)]
  change (if slotValue buf slot = 0 then _ else if buf.length ≤ offset then _ else
    (store buf offset
      ((heap (slotValue buf slot)).bytes.take
        (min (heap (slotValue buf slot)).bytes.length (buf.length - offset - 1)))).bind
      fun buf' =>
        (store buf'
          (offset + min (heap (slotValue buf slot)).bytes.length (buf.length - offset - 1))
          [0]).bind _) = _
  rw [if_neg notNull, if_neg (by omega), ← length, taken, store_eq (by omega), Option.bind_some,
    store_eq (by rw [inner, length_singleton]; omega), Option.bind_some, joined]
  change (store _ slot (leBytes 8 offset)).bind _ = _
  rw [store_eq (by rw [terminated, length_leBytes]; omega), Option.bind_some, putString, length]
  rfl

theorem EncodedSlots.null (null : slotValue buf slot = 0) (before : slot + 8 ≤ offset)
    (slotApart : ∀ other ∈ rest, SlotsApart slot other)
    (later : EncodedSlots rest strings buf offset after stop) :
    EncodedSlots (slot :: rest) (none :: strings) buf offset after stop := by
  refine ⟨later.length, later.grows, later.bounded, ?_, .cons ?_ later.encoded⟩
  · intro index early outside
    exact later.outside index early (forall_mem_cons.mp outside).2
  · exact (later.slotValue_eq before slotApart).trans null

theorem EncodedSlots.put {buf after content : Bytes} (fits : offset + content.length < buf.length)
    (before : slot + 8 ≤ offset) (small : buf.length < 2 ^ 64)
    (restFits : ∀ other ∈ rest, other + 8 ≤ offset)
    (slotApart : ∀ other ∈ rest, SlotsApart slot other) (later :
      EncodedSlots rest strings (putString buf offset slot content)
        (offset + (content.length + 1)) after stop) :
    EncodedSlots (slot :: rest) (some content :: strings) buf offset after stop := by
  have sameLength := length_putString fits before
  have grows := later.grows
  have value : slotValue after slot = offset :=
    (later.slotValue_eq (by omega) slotApart).trans (slotValue_putString fits before small)
  refine ⟨later.length.trans sameLength, by omega, sameLength ▸ later.bounded, ?_, ?_⟩
  · intro index early outside
    obtain ⟨slotOutside, restOutside⟩ := forall_mem_cons.mp outside
    rw [later.outside index (by omega) restOutside,
      getElem?_putString_outside fits before early slotOutside]
  · refine .cons ⟨value.ge, by omega, ?_⟩ ?_
    · rw [value, ← slice_putString fits before]
      refine slice_congr fun index lower upper => ?_
      refine later.outside index (by omega) fun other member => .inr ?_
      exact (restFits other member).trans lower
    · exact later.encoded.imp fun other string encoded => encoded.mono (by omega)

theorem encodeStrings_encodes (heap : Nat → CString) (fits : ∀ slot ∈ slots, slot + 8 ≤ offset)
    (bounded : offset ≤ buf.length) (small : buf.length < 2 ^ 64)
    (apart : slots.Pairwise SlotsApart) :
    ∃ after stop,
      encodeStrings heap buf.length slots buf offset = some (after, stop) ∧
        EncodedSlots slots (fitStrings (buf.length - offset) (slots.map (fieldString heap buf)))
          buf offset after stop := by
  induction slots generalizing buf offset with
  | nil => exact ⟨buf, offset, rfl, rfl, le_rfl, bounded, fun _ _ _ => rfl, .nil⟩
  | cons slot rest ih =>
    obtain ⟨slotFits, restFits⟩ := forall_mem_cons.mp fits
    obtain ⟨slotApart, restApart⟩ := pairwise_cons.mp apart
    by_cases null : slotValue buf slot = 0
    · obtain ⟨after, stop, loop, later⟩ := ih restFits bounded small restApart
      refine ⟨after, stop, ?_, ?_⟩
      · rw [encodeStrings, load_eq (by omega)]
        exact (if_pos null).trans loop
      · rw [map_cons, fieldString, if_pos null, fitStrings]
        exact later.null null slotFits slotApart
    · by_cases space : offset < buf.length
      · obtain ⟨left, leftEq⟩ : ∃ left, buf.length - offset = left + 1 :=
          ⟨buf.length - offset - 1, by omega⟩
        generalize cut : (heap (slotValue buf slot)).bytes.take (buf.length - offset - 1) = content
        have length : content.length = min left (heap (slotValue buf slot)).bytes.length := by
          rw [← cut, length_take, leftEq, Nat.add_sub_cancel]
        have contentFits : offset + content.length < buf.length := by omega
        have sameLength := length_putString contentFits slotFits
        have sameStrings := map_fieldString_putString contentFits slotFits heap restFits slotApart
        have laterFits : ∀ other ∈ rest, other + 8 ≤ offset + (content.length + 1) :=
          fun other member => (restFits other member).trans (Nat.le_add_right _ _)
        obtain ⟨after, stop, loop, later⟩ :=
          ih laterFits (by rw [sameLength]; omega) (by rw [sameLength]; exact small) restApart
        rw [sameLength] at loop
        rw [sameLength, sameStrings] at later
        refine ⟨after, stop, ?_, ?_⟩
        · rw [encodeStrings_put slotFits space null cut.symm]
          exact loop
        · have spaceLeft :
              left - (heap (slotValue buf slot)).bytes.length =
                buf.length - (offset + (content.length + 1)) := by
            omega
          rw [map_cons, fieldString, if_neg null, leftEq, fitStrings, spaceLeft]
          have kept : (heap (slotValue buf slot)).bytes.take left = content := by
            rw [← cut, leftEq, Nat.add_sub_cancel]
          rw [kept]
          exact later.put contentFits slotFits small restFits slotApart
      · obtain ⟨after, cleared, later⟩ := clearSlots_encodes fits bounded apart
        refine ⟨after, offset, ?_, ?_⟩
        · rw [encodeStrings, load_eq (by omega)]
          change (if slotValue buf slot = 0 then _ else if buf.length ≤ offset then _ else _) = _
          rw [if_neg null, if_pos (by omega), cleared]
          rfl
        · have noSpace : buf.length - offset = 0 := by omega
          rw [noSpace, fitStrings_zero, map_map]
          exact later

private theorem alignUp_spec (offset : Nat) : alignUp offset % 8 = 0 ∧ offset ≤ alignUp offset := by
  unfold alignUp
  split
  · omega
  · omega

private theorem alignUp_le (bounded : offset ≤ 131072) : alignUp offset ≤ 131072 := by
  unfold alignUp
  split
  · omega
  · exact bounded

private theorem slotValue_take {block : Bytes} {slot count : Nat} (inside : slot + 8 ≤ count) :
    slotValue (block.take count) slot = slotValue block slot := by
  refine slotValue_congr fun index _ upper => ?_
  exact getElem?_take_of_lt (by omega)

private theorem merlinEncode_encodes
    {layout : Layout} (heap : Nat → CString) {cbType : Int} {info : HookInfo} {data buf : Bytes}
    (found : infoFor layout cbType = some info) (whole : data.length = info.offset)
    (room : buf.length = 131072) :
    ∃ encoded stop,
      merlinEncode layout heap (some data) cbType buf 131072 = some (alignUp stop, encoded) ∧
        EncodedSlots info.slots
          (fitStrings (131072 - info.offset) (info.slots.map (fieldString heap data)))
          (patch buf 0 data) info.offset encoded stop := by
  have wellFormed := infoFor_wellFormed found
  have small := wellFormed.small
  have fits : 0 + data.length ≤ buf.length := by omega
  have sameLength : (patch buf 0 data).length = 131072 := (length_patch fits).trans room
  have sameStrings :
      info.slots.map (fieldString heap (patch buf 0 data)) =
        info.slots.map (fieldString heap data) := by
    refine map_congr_left fun slot member => ?_
    have inside := wellFormed.inside slot member
    have sameValue : slotValue (patch buf 0 data) slot = slotValue data slot := by
      refine slotValue_congr fun index _ upper => ?_
      rw [getElem?_patch fits, if_pos (by omega), Nat.sub_zero]
    rw [fieldString, sameValue, fieldString]
  have loaded : load data 0 info.offset = some data := by
    rw [load_eq (by omega), slice, drop_zero, ← whole, take_length]
  obtain ⟨encoded, stop, loop, slots⟩ :=
    encodeStrings_encodes heap wellFormed.inside (by rw [sameLength]; exact small)
      (by rw [sameLength]; decide) wellFormed.apart
  rw [sameLength] at loop
  rw [sameLength, sameStrings] at slots
  refine ⟨encoded, stop, ?_, slots⟩
  simp only [merlinEncode, found, loaded, Option.bind_eq_bind, Option.bind_some, store_eq fits,
    loop]

private theorem loadString_decoded {encoded decoded : Bytes} {base start stop count slot : Nat}
    (moved : RelocatedSlots base slots (encoded.take count) decoded)
    (inside : ∀ other ∈ slots, other + 8 ≤ start) (positive : 0 < start) (enough : stop ≤ count)
    (startStop : start ≤ stop) (bounded : count ≤ encoded.length)
    (inMemory : base + count ≤ 2 ^ 64) (member : slot ∈ slots)
    (noTerminator : ∀ content, string = some content → 0 ∉ content)
    (placed : EncodedAs encoded start stop slot string) :
    loadString decoded base slot = some string := by
  have slotInside := inside slot member
  have value := moved.value slot member
  have length : decoded.length = count := by
    rw [moved.length, length_take, Nat.min_eq_left bounded]
  rw [slotValue_take (by omega)] at value
  unfold loadString
  cases string with
  | none =>
    have null : slotValue encoded slot = 0 := placed
    rw [null, if_pos rfl] at value
    rw [if_pos value]
  | some content =>
    obtain ⟨lower, upper, text⟩ := placed
    generalize slotValue encoded slot = offset at value lower upper text
    have sum : (offset + base) % 2 ^ 64 = offset + base := Nat.mod_eq_of_lt (by omega)
    rw [if_neg (by omega), sum] at value
    have sameText : slice decoded offset (content.length + 1) = content ++ [0] := by
      rw [← text]
      refine slice_congr fun index first last => ?_
      rw [moved.outside index fun other inSlots => .inr (by have := inside other inSlots; omega)]
      exact getElem?_take_of_lt (by omega)
    have split :
        decoded.drop offset = content ++ 0 :: (decoded.drop offset).drop (content.length + 1) := by
      have parts := take_append_drop (content.length + 1) (decoded.drop offset)
      rw [← slice, sameText, append_assoc] at parts
      exact parts.symm
    rw [value, length, if_neg (by omega), if_pos (by omega), Nat.add_sub_cancel, split,
      cstring_append (noTerminator content rfl), Option.map_some]

private theorem map_eq_of_forall₂ {related : Nat → Option Bytes → Prop}
    {read : Nat → Option (Option Bytes)} (all : List.Forall₂ related slots strings)
    (reads : ∀ slot ∈ slots, ∀ string ∈ strings, related slot string → read slot = some string) :
    slots.map read = strings.map some := by
  induction all with
  | nil => rfl
  | cons first _ ih =>
    rw [map_cons, map_cons, reads _ (by simp) _ (by simp) first,
      ih fun slot inSlots string inStrings =>
        reads slot (by simp [inSlots]) string (by simp [inStrings])]

private theorem fieldString_noTerminator {data content : Bytes}
    (isString : fieldString heap data slot = some content) : 0 ∉ content := by
  unfold fieldString at isString
  split at isString
  · cases isString
  · rw [← Option.some.inj isString]
    exact (heap _).noTerminator

/-- Encoding stays inside of the buffer, and decoding the packet returns the structure
outside of its pointers and the strings as far as they fit. -/
theorem merlinDecode_merlinEncode
    {layout : Layout} {heap : Nat → CString} {cbType : Int} {info : HookInfo} {data buf : Bytes}
    {base : Nat}
    (found : infoFor layout cbType = some info)
    (nonempty : info.offset ≠ 0)
    (whole : data.length = info.offset)
    (room : buf.length = 131072)
    (inMemory : base + 131072 ≤ 2 ^ 64) :
    ∃ count encoded decoded,
      merlinEncode layout heap (some data) cbType buf 131072 = some (count, encoded) ∧
        encoded.length = 131072 ∧ count ≤ 131072 ∧ count % 8 = 0 ∧
        merlinDecode layout (some (encoded.take count)) base count cbType = some (0, decoded) ∧
        (∀ index, index < info.offset →
          (∀ slot ∈ info.slots, index < slot ∨ slot + 8 ≤ index) → decoded[index]? = data[index]?) ∧
        info.slots.map (loadString decoded base) =
          (fitStrings (131072 - info.offset)
            (info.slots.map (fieldString heap data))).map some := by
  have wellFormed := infoFor_wellFormed found
  have fits : 0 + data.length ≤ buf.length := by
    have small := wellFormed.small
    omega
  obtain ⟨encoded, stop, encodes, slots⟩ := merlinEncode_encodes heap found whole room
  obtain ⟨aligned, enough⟩ := alignUp_spec stop
  have startStop := slots.grows
  have length : encoded.length = 131072 := by
    rw [slots.length, length_patch fits, room]
  have stopBound : stop ≤ 131072 := by
    have bounded := slots.bounded
    rwa [length_patch fits, room] at bounded
  have bounded := alignUp_le stopBound
  generalize alignUp stop = count at encodes aligned enough bounded
  have received : (encoded.take count).length = count := by
    rw [length_take, length, Nat.min_eq_left bounded]
  have slotFits : ∀ slot ∈ info.slots, slot + 8 ≤ (encoded.take count).length := by
    intro slot member
    have inside := wellFormed.inside slot member
    omega
  have moved : RelocatedSlots base info.slots (encoded.take count)
      (relocated base info.slots (encoded.take count)) :=
    relocated_slots slotFits wellFormed.apart
  refine ⟨count, encoded, relocated base info.slots (encoded.take count), encodes, length, bounded,
    aligned, ?_, ?_, ?_⟩
  · refine merlinDecode_ok found (by omega) slotFits fun slot member => ?_
    have inside := wellFormed.inside slot member
    have value := slots.slotValue_le slot member
    rw [slotValue_take (by omega), toInt64, if_pos (by omega)]
    omega
  · intro index early outside
    rw [moved.outside index outside, getElem?_take_of_lt (by omega),
      slots.outside index early outside, getElem?_patch fits, if_pos (by omega), Nat.sub_zero]
  · refine map_eq_of_forall₂ slots.encoded fun slot inSlots string inStrings placed => ?_
    refine loadString_decoded moved wellFormed.inside (by omega) enough startStop (by omega)
      (by omega) inSlots ?_ placed
    rintro content rfl
    refine fitStrings_noTerminator ?_ content inStrings
    intro other member
    obtain ⟨slot, _, isString⟩ := mem_map.mp member
    exact fieldString_noTerminator isString

def sampleRuncmd : Bytes := [5, 0, 0, 0] ++ leBytes 8 1000

theorem merlinDecode_merlinEncode_runcmd :
    ∃ count encoded decoded,
      merlinEncode sampleLayout (fun _ => ⟨[108, 115], by decide, by decide⟩) (some sampleRuncmd)
          runcmdPacket (List.replicate 131072 0) 131072 = some (count, encoded) ∧
        merlinDecode sampleLayout (some (encoded.take count)) 4096 count runcmdPacket =
          some (0, decoded) ∧
        [4].map (loadString decoded 4096) = [some (some [108, 115])] := by
  obtain ⟨count, encoded, decoded, encodes, _, _, _, decodes, _, strings⟩ :=
    merlinDecode_merlinEncode
      (show infoFor sampleLayout runcmdPacket = some runcmdInfo from rfl) (by decide)
      (show sampleRuncmd.length = runcmdInfo.offset from rfl)
      (length_replicate (n := 131072) (a := 0))
      (show 4096 + 131072 ≤ 2 ^ 64 by decide)
  exact ⟨count, encoded, decoded, encodes, decodes, strings⟩

end MonitorMerlin
