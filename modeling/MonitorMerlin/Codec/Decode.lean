import MonitorMerlin.Codec.Basic

/-! # What decoding leaves behind -/

namespace MonitorMerlin

open ByteImage List MachineInt

def relocate (base : Nat) (block : Bytes) (slot : Nat) : Bytes :=
  if slotValue block slot = 0 then
    block
  else
    patch block slot (leBytes 8 ((slotValue block slot + base) % 2 ^ 64))

def relocated (base : Nat) (slots : List Nat) (block : Bytes) : Bytes :=
  slots.foldl (relocate base) block

variable {block : Bytes} {slot : Nat}

private theorem slotValue_lt (fits : slot + 8 ≤ block.length) : slotValue block slot < 2 ^ 64 := by
  have bound := leValue_lt (slice block slot 8)
  rw [length_slice fits] at bound
  exact bound

theorem slotValue_patch_same {slot value : Nat} (fits : slot + 8 ≤ block.length)
    (small : value < 2 ^ 64) : slotValue (patch block slot (leBytes 8 value)) slot = value := by
  have field :
      slice (patch block slot (leBytes 8 value)) slot (leBytes 8 value).length = leBytes 8 value :=
    slice_patch_same (by omega)
  rw [length_leBytes] at field
  rw [slotValue, field, leValue_leBytes small]

variable {other : Nat}

private theorem slotValue_patch_apart {block data : Bytes} (fits : slot + 8 ≤ block.length)
    (width : data.length = 8) (apart : SlotsApart slot other) :
    slotValue (patch block slot data) other = slotValue block other := by
  unfold slotValue
  rcases apart with before | after
  · rw [slice_patch_after (by omega) (by omega)]
  · rw [slice_patch_before (by omega) after]

variable {base : Nat}

@[simp]
theorem length_relocate (fits : slot + 8 ≤ block.length) :
    (relocate base block slot).length = block.length := by
  unfold relocate
  split
  · rfl
  · exact length_patch (by rw [length_leBytes]; exact fits)

private theorem slotValue_relocate_same (fits : slot + 8 ≤ block.length) :
    slotValue (relocate base block slot) slot =
      if slotValue block slot = 0 then 0 else (slotValue block slot + base) % 2 ^ 64 := by
  unfold relocate
  split_ifs with null
  · exact null
  · exact slotValue_patch_same fits (Nat.mod_lt _ (Nat.two_pow_pos 64))

theorem slotValue_relocate_apart (fits : slot + 8 ≤ block.length) (apart : SlotsApart slot other) :
    slotValue (relocate base block slot) other = slotValue block other := by
  unfold relocate
  split
  · rfl
  · exact slotValue_patch_apart fits (length_leBytes 8 _) apart

private theorem getElem?_relocate_outside {slot index : Nat} (fits : slot + 8 ≤ block.length)
    (outside : index < slot ∨ slot + 8 ≤ index) :
    (relocate base block slot)[index]? = block[index]? := by
  unfold relocate
  split
  · rfl
  · apply getElem?_patch_outside <;> rw [length_leBytes]
    · exact fits
    · exact outside

structure RelocatedSlots (base : Nat) (slots : List Nat) (block after : Bytes) : Prop where
  length : after.length = block.length
  value : ∀ slot ∈ slots,
    slotValue after slot =
      if slotValue block slot = 0 then 0 else (slotValue block slot + base) % 2 ^ 64
  otherValue : ∀ other, (∀ slot ∈ slots, SlotsApart slot other) →
    slotValue after other = slotValue block other
  outside : ∀ index, (∀ slot ∈ slots, index < slot ∨ slot + 8 ≤ index) →
    after[index]? = block[index]?

variable {slots : List Nat}

theorem relocated_slots (fits : ∀ slot ∈ slots, slot + 8 ≤ block.length)
    (apart : slots.Pairwise SlotsApart) :
    RelocatedSlots base slots block (relocated base slots block) := by
  induction slots generalizing block with
  | nil => exact ⟨rfl, by simp, fun _ _ => rfl, fun _ _ => rfl⟩
  | cons slot rest ih =>
    obtain ⟨slotFits, restFits⟩ := forall_mem_cons.mp fits
    obtain ⟨slotApart, restApart⟩ := pairwise_cons.mp apart
    have sameLength : (relocate base block slot).length = block.length := length_relocate slotFits
    have later :
        RelocatedSlots base rest (relocate base block slot) (relocated base (slot :: rest) block) :=
      ih (fun other member => by rw [sameLength]; exact restFits other member) restApart
    refine ⟨later.length.trans sameLength, ?_, ?_, ?_⟩
    · intro other member
      rcases mem_cons.mp member with rfl | member
      · rw [← slotValue_relocate_same slotFits]
        exact later.otherValue other fun later member => (slotApart later member).symm
      · refine (later.value other member).trans ?_
        rw [slotValue_relocate_apart slotFits (slotApart other member)]
    · intro other aparts
      obtain ⟨slotOther, restOther⟩ := forall_mem_cons.mp aparts
      exact (later.otherValue other restOther).trans (slotValue_relocate_apart slotFits slotOther)
    · intro index outside
      obtain ⟨slotOutside, restOutside⟩ := forall_mem_cons.mp outside
      exact (later.outside index restOutside).trans (getElem?_relocate_outside slotFits slotOutside)

variable {len : Int}

private theorem decodeStrings_ok (index ret : Nat) (notFirst : ∀ slot ∈ slots, slot ≠ 0)
    (fits : ∀ slot ∈ slots, slot + 8 ≤ block.length) (apart : slots.Pairwise SlotsApart)
    (within : ∀ slot ∈ slots, toInt64 (slotValue block slot) ≤ len) :
    decodeStrings base len slots index ret block = some (ret, relocated base slots block) := by
  induction slots generalizing block index with
  | nil => rfl
  | cons slot rest ih =>
    obtain ⟨slotNotFirst, restNotFirst⟩ := forall_mem_cons.mp notFirst
    obtain ⟨slotFits, restFits⟩ := forall_mem_cons.mp fits
    obtain ⟨slotApart, restApart⟩ := pairwise_cons.mp apart
    obtain ⟨slotWithin, restWithin⟩ := forall_mem_cons.mp within
    have sameLength : (relocate base block slot).length = block.length := length_relocate slotFits
    have sameValue : ∀ other ∈ rest,
        slotValue (relocate base block slot) other = slotValue block other :=
      fun other member => slotValue_relocate_apart slotFits (slotApart other member)
    have later :
        decodeStrings base len rest (index + 1) ret (relocate base block slot) =
          some (ret, relocated base (slot :: rest) block) :=
      ih (index + 1) restNotFirst
        (fun other member => by rw [sameLength]; exact restFits other member) restApart
        (fun other member => by rw [sameValue other member]; exact restWithin other member)
    rw [decodeStrings, if_neg slotNotFirst, load_eq slotFits]
    change (if slotValue block slot = 0 then _ else if len < toInt64 (slotValue block slot) then _
      else _) = _
    by_cases null : slotValue block slot = 0
    · rw [if_pos null]
      rw [relocate, if_pos null] at later
      exact later
    · rw [if_neg null, if_neg (not_lt.mpr slotWithin)]
      rw [store_eq (by rw [length_leBytes]; exact slotFits)]
      rw [relocate, if_neg null] at later
      exact later

variable {after : Bytes} {index ret result : Nat}

private theorem decodeStrings_cons {rest : List Nat} (notFirst : slot ≠ 0)
    (decoded : decodeStrings base len (slot :: rest) index ret block = some (result, after)) :
    slot + 8 ≤ block.length ∧
      ∃ block',
        (block' = block ∨ ∃ data : Bytes, data.length = 8 ∧ block' = patch block slot data) ∧
        decodeStrings base len rest (index + 1)
          (if slotValue block slot ≠ 0 ∧ len < toInt64 (slotValue block slot) then
            ret ||| 2 ^ index
          else
            ret) block' = some (result, after) := by
  rw [decodeStrings, if_neg notFirst] at decoded
  by_cases fits : slot + 8 ≤ block.length
  · refine ⟨fits, ?_⟩
    have stores : ∀ value : Nat, store block slot (leBytes 8 value) =
        some (patch block slot (leBytes 8 value)) :=
      fun value => store_eq (by rw [length_leBytes]; exact fits)
    rw [load_eq fits] at decoded
    change (if slotValue block slot = 0 then _ else if len < toInt64 (slotValue block slot) then _
      else _) = _ at decoded
    split_ifs at decoded with null behind
    · exact ⟨block, .inl rfl, by rw [if_neg (by simp [null])]; exact decoded⟩
    · rw [stores] at decoded
      exact ⟨_, .inr ⟨_, length_leBytes 8 0, rfl⟩, by rw [if_pos ⟨null, behind⟩]; exact decoded⟩
    · rw [stores] at decoded
      exact ⟨_, .inr ⟨_, length_leBytes 8 _, rfl⟩, by rw [if_neg (by simp [behind])]; exact decoded⟩
  · rw [load, if_neg fits] at decoded
    cases decoded

private theorem or_two_pow_ne_zero (ret index : Nat) : ret ||| 2 ^ index ≠ 0 := by
  intro zero
  have bit := congrArg (Nat.testBit · index) zero
  simp [Nat.testBit_or, Nat.testBit_two_pow_self] at bit

private theorem decodeStrings_ret (notFirst : ∀ slot ∈ slots, slot ≠ 0)
    (decoded : decodeStrings base len slots index ret block = some (result, after))
    (marked : ret ≠ 0) : result ≠ 0 := by
  induction slots generalizing block index ret with
  | nil =>
    cases decoded
    exact marked
  | cons slot rest ih =>
    obtain ⟨slotNotFirst, restNotFirst⟩ := forall_mem_cons.mp notFirst
    obtain ⟨_, block', _, later⟩ := decodeStrings_cons slotNotFirst decoded
    refine ih restNotFirst later ?_
    split
    · exact or_two_pow_ne_zero ret index
    · exact marked

private theorem decodeStrings_behind (notFirst : ∀ slot ∈ slots, slot ≠ 0)
    (apart : slots.Pairwise SlotsApart)
    (decoded : decodeStrings base len slots index ret block = some (result, after))
    (member : slot ∈ slots) (nonnegative : 0 ≤ len)
    (behind : len < toInt64 (slotValue block slot)) : result ≠ 0 := by
  induction slots generalizing block index ret with
  | nil => cases member
  | cons first rest ih =>
    obtain ⟨firstNotFirst, restNotFirst⟩ := forall_mem_cons.mp notFirst
    obtain ⟨firstApart, restApart⟩ := pairwise_cons.mp apart
    obtain ⟨fits, block', changed, later⟩ := decodeStrings_cons firstNotFirst decoded
    rcases mem_cons.mp member with rfl | member
    · have notNull : slotValue block slot ≠ 0 := by
        intro null
        rw [null] at behind
        exact absurd behind (not_lt.mpr nonnegative)
      rw [if_pos ⟨notNull, behind⟩] at later
      exact decodeStrings_ret restNotFirst later (or_two_pow_ne_zero ret index)
    · refine ih restNotFirst restApart later member ?_
      rcases changed with rfl | ⟨data, width, rfl⟩
      · exact behind
      · rw [slotValue_patch_apart fits width (firstApart slot member)]
        exact behind

/-- Decoded strings are `NULL` or inside of the buffer. -/
def DecodeSafe (layout : Layout) (ds : Bytes) (base : Nat) (cbType : Int) : Prop :=
  ∀ behind after,
    merlinDecode layout (some (ds ++ behind)) base ds.length cbType = some (0, after) →
    ∀ info, infoFor layout cbType = some info →
      info.offset ≤ ds.length ∧
        ∀ slot ∈ info.slots, (loadString (after.take ds.length) base slot).isSome = true

/-- `NULL`, or a string that ends inside of the buffer. -/
def UsableField (base : Nat) (slots : List Nat) (ds : Bytes) (slot : Nat) : Prop :=
  slotValue ds slot = 0 ∨ (slotValue ds slot + base) % 2 ^ 64 = 0 ∨
    (slotValue ds slot < ds.length ∧ 0 ∈ (relocated base slots ds).drop (slotValue ds slot))

instance (base : Nat) (slots : List Nat) (ds : Bytes) (slot : Nat) :
    Decidable (UsableField base slots ds slot) :=
  inferInstanceAs (Decidable (_ ∨ _ ∨ _))

private theorem loadString_relocated {ds after : Bytes} (moved : RelocatedSlots base slots ds after)
    (member : slot ∈ slots) (fits : slot + 8 ≤ ds.length) (inMemory : base + ds.length ≤ 2 ^ 64) :
    (loadString after base slot).isSome = true ↔
      slotValue ds slot = 0 ∨ (slotValue ds slot + base) % 2 ^ 64 = 0 ∨
        (slotValue ds slot < ds.length ∧ 0 ∈ after.drop (slotValue ds slot)) := by
  have value := moved.value slot member
  have bound := slotValue_lt fits
  unfold loadString
  rw [moved.length]
  generalize slotValue after slot = ptr at value ⊢
  generalize slotValue ds slot = offset at value bound ⊢
  subst value
  by_cases null : offset = 0
  · simp [null]
  · rw [if_neg null]
    by_cases wrapped : (offset + base) % 2 ^ 64 = 0
    · rw [if_pos wrapped]
      exact ⟨fun _ => .inr (.inl wrapped), fun _ => rfl⟩
    · rw [if_neg wrapped]
      by_cases inside : offset < ds.length
      · have sum : (offset + base) % 2 ^ 64 = offset + base := Nat.mod_eq_of_lt (by omega)
        rw [sum, if_pos (by omega), Nat.add_sub_cancel, Option.isSome_map, isSome_cstring]
        rw [sum] at wrapped
        simp only [null, wrapped, inside, true_and, false_or]
      · rw [if_neg (by omega)]
        simp only [null, wrapped, inside, false_and, or_false, Option.isSome_none,
          Bool.false_eq_true]

variable {behind : Bytes}

private theorem slotValue_append (fits : slot + 8 ≤ block.length) :
    slotValue (block ++ behind) slot = slotValue block slot := by
  rw [slotValue, slice_append_left fits, slotValue]

private theorem relocated_append (fits : ∀ slot ∈ slots, slot + 8 ≤ block.length) :
    relocated base slots (block ++ behind) = relocated base slots block ++ behind := by
  induction slots generalizing block with
  | nil => rfl
  | cons slot rest ih =>
    obtain ⟨slotFits, restFits⟩ := forall_mem_cons.mp fits
    have first : relocate base (block ++ behind) slot = relocate base block slot ++ behind := by
      unfold relocate
      rw [slotValue_append slotFits]
      split
      · rfl
      · exact patch_append_left (by rw [length_leBytes]; exact slotFits)
    have later :
        relocated base rest (relocate base block slot ++ behind) =
          relocated base rest (relocate base block slot) ++ behind :=
      ih fun other member => by
        rw [length_relocate slotFits]
        exact restFits other member
    rw [relocated, foldl_cons, first]
    exact later

private theorem toInt64_slotValue_negative {ds : Bytes} {slot count : Nat}
    (reaches : ds.length < slot + 8) (fits : slot + 8 ≤ ds.length + count) :
    toInt64 (slotValue (ds ++ replicate count 0xff) slot) < 0 := by
  have inBlock : slot + 8 ≤ (ds ++ replicate count (0xff : UInt8)).length := by
    rw [length_append, length_replicate]
    exact fits
  have top : (ds ++ replicate count (0xff : UInt8))[slot + 7]? = some 0xff := by
    rw [getElem?_append_right (by omega), getElem?_replicate, if_pos (by omega)]
  have bound := slotValue_lt inBlock
  have split : slice (ds ++ replicate count (0xff : UInt8)) slot 8 =
      slice (ds ++ replicate count (0xff : UInt8)) slot 7 ++ [0xff] := by
    rw [slice, take_add_one, getElem?_drop, top]
    rfl
  have value : slotValue (ds ++ replicate count 0xff) slot =
      leValue (slice (ds ++ replicate count 0xff) slot 7) + 256 ^ 7 * 255 := by
    rw [slotValue, split, leValue_append, length_slice (by omega)]
    rfl
  rw [toInt64, if_neg (by omega)]
  omega

variable {cbType : Int} {layout : Layout} {info : HookInfo}

theorem merlinDecode_ok (found : infoFor layout cbType = some info) (nonzero : len ≠ 0)
    (fits : ∀ slot ∈ info.slots, slot + 8 ≤ block.length)
    (within : ∀ slot ∈ info.slots, toInt64 (slotValue block slot) ≤ len) :
    merlinDecode layout (some block) base len cbType =
      some (0, relocated base info.slots block) := by
  have wellFormed := infoFor_wellFormed found
  have decoded :
      decodeStrings base len info.slots 0 0 block = some (0, relocated base info.slots block) :=
    decodeStrings_ok 0 0 wellFormed.notFirst fits wellFormed.apart within
  simp only [merlinDecode, found, if_neg nonzero, decoded]
  rfl

def OffsetsWithin (info : HookInfo) (ds : Bytes) : Prop :=
  ∀ slot ∈ info.slots, slot + 8 ≤ ds.length → toInt64 (slotValue ds slot) ≤ ds.length

section Safety

variable {ds : Bytes} (found : infoFor layout cbType = some info) (nonzero : (ds.length : Int) ≠ 0)

include found nonzero

private theorem decodeSafe_of_overshoot
    (overshoot :
      ∃ slot ∈ info.slots, slot + 8 ≤ ds.length ∧ ds.length < toInt64 (slotValue ds slot)) :
    DecodeSafe layout ds base cbType := by
  have wellFormed := infoFor_wellFormed found
  obtain ⟨slot, member, fits, overshoots⟩ := overshoot
  intro behind after decoded
  simp only [merlinDecode, found, if_neg nonzero] at decoded
  obtain ⟨⟨result, after'⟩, loop, same⟩ := Option.bind_eq_some_iff.mp decoded
  have zero : (result : Int) = 0 := congrArg Prod.fst (Option.some.inj same)
  rw [Int.natCast_eq_zero.mp zero] at loop
  refine absurd rfl (decodeStrings_behind wellFormed.notFirst wellFormed.apart loop member
    (Int.natCast_nonneg _) ?_)
  rw [slotValue_append fits]
  exact overshoots

variable (within : OffsetsWithin info ds)

include within

theorem merlinDecode_inside (base : Nat) (inside : info.offset ≤ ds.length) (behind : Bytes) :
    merlinDecode layout (some (ds ++ behind)) base ds.length cbType =
      some (0, relocated base info.slots ds ++ behind) := by
  have fits : ∀ slot ∈ info.slots, slot + 8 ≤ ds.length :=
    fun slot member => ((infoFor_wellFormed found).inside slot member).trans inside
  rw [← relocated_append fits]
  refine merlinDecode_ok found nonzero ?_ ?_
  · intro slot member
    rw [length_append]
    exact (fits slot member).trans (Nat.le_add_right _ _)
  · intro slot member
    rw [slotValue_append (fits slot member)]
    exact within slot member (fits slot member)

private theorem decodeSafe_inside_iff (inMemory : base + ds.length ≤ 2 ^ 64)
    (inside : info.offset ≤ ds.length) :
    DecodeSafe layout ds base cbType ↔
      ∀ slot ∈ info.slots, UsableField base info.slots ds slot := by
  have wellFormed := infoFor_wellFormed found
  have fits : ∀ slot ∈ info.slots, slot + 8 ≤ ds.length :=
    fun slot member => (wellFormed.inside slot member).trans inside
  have moved : RelocatedSlots base info.slots ds (relocated base info.slots ds) :=
    relocated_slots fits wellFormed.apart
  have decodes := merlinDecode_inside found nonzero within base inside
  have usable : ∀ slot ∈ info.slots,
      (loadString (relocated base info.slots ds) base slot).isSome = true ↔
        UsableField base info.slots ds slot :=
    fun slot member => loadString_relocated moved member (fits slot member) inMemory
  constructor
  · intro safe slot member
    obtain ⟨_, strings⟩ := safe [] _ (decodes []) info found
    apply (usable slot member).mp
    simpa [← moved.length] using strings slot member
  · intro fields behind after decoded info' found'
    obtain rfl : info = info' := Option.some.inj (found.symm.trans found')
    rw [decodes behind] at decoded
    obtain rfl : relocated base info.slots ds ++ behind = after :=
      congrArg Prod.snd (Option.some.inj decoded)
    refine ⟨inside, fun slot member => ?_⟩
    rw [take_left' moved.length]
    exact (usable slot member).mpr (fields slot member)

private theorem not_decodeSafe_of_outside (outside : ¬ info.offset ≤ ds.length) :
    ¬ DecodeSafe layout ds base cbType := by
  intro safe
  have wellFormed := infoFor_wellFormed found
  have decoded :
      merlinDecode layout (some (ds ++ replicate info.offset 0xff)) base ds.length cbType =
        some (0, relocated base info.slots (ds ++ replicate info.offset 0xff)) := by
    refine merlinDecode_ok found nonzero ?_ ?_
    · intro slot member
      have slotInside := wellFormed.inside slot member
      rw [length_append, length_replicate]
      omega
    · intro slot member
      by_cases fits : slot + 8 ≤ ds.length
      · rw [slotValue_append fits]
        exact within slot member fits
      · have slotInside := wellFormed.inside slot member
        have reaches : ds.length < slot + 8 := not_le.mp fits
        have inBlock : slot + 8 ≤ ds.length + info.offset := by omega
        have negative := toInt64_slotValue_negative reaches inBlock
        omega
  exact outside (safe _ _ decoded info found).1

end Safety

/-- Decoding leaves usable strings exactly when an offset larger than the buffer is reported,
or the structure fits and all of its fields are usable. -/
theorem merlinDecode_safe_iff
    {layout : Layout} {ds : Bytes} {base : Nat} {cbType : Int} {info : HookInfo}
    (found : infoFor layout cbType = some info)
    (nonempty : ds ≠ [])
    (inMemory : base + ds.length ≤ 2 ^ 64) :
    DecodeSafe layout ds base cbType ↔
      (∃ slot ∈ info.slots, slot + 8 ≤ ds.length ∧ ds.length < toInt64 (slotValue ds slot)) ∨
      (info.offset ≤ ds.length ∧ ∀ slot ∈ info.slots, UsableField base info.slots ds slot) := by
  have nonzero : (ds.length : Int) ≠ 0 := by
    simpa using nonempty
  by_cases overshoot :
      ∃ slot ∈ info.slots, slot + 8 ≤ ds.length ∧ ds.length < toInt64 (slotValue ds slot)
  · exact iff_of_true (decodeSafe_of_overshoot found nonzero overshoot) (.inl overshoot)
  · have within : OffsetsWithin info ds := by
      intro slot member fits
      exact not_lt.mp fun overshoots => overshoot ⟨slot, member, fits, overshoots⟩
    simp only [overshoot, false_or]
    by_cases inside : info.offset ≤ ds.length
    · rw [decodeSafe_inside_iff found nonzero within inMemory inside]
      exact ⟨fun fields => ⟨inside, fields⟩, fun both => both.2⟩
    · exact iff_of_false (not_decodeSafe_of_outside found nonzero within inside)
        fun both => inside both.1

def sampleLayout : Layout where
  sizeOf _ := 256
  offsetOf _ field := 8 * (field.ctorIdx + 1)
  size_pos _ := by decide
  size_le _ := by decide
  inside struct := by cases struct <;> decide
  notFirst struct := by cases struct <;> decide
  apart struct := by cases struct <;> decide

def runcmdBody (offset : Nat) : Bytes := [5, 0, 0, 0] ++ leBytes 8 offset ++ [108, 115, 0, 0]

theorem merlinDecode_safe_runcmd : DecodeSafe sampleLayout (runcmdBody 12) 4096 runcmdPacket :=
  (merlinDecode_safe_iff rfl (by decide) (by decide)).mpr (.inr (by decide))

theorem merlinDecode_accepts_negative_offset :
    merlinDecode sampleLayout (some (runcmdBody (2 ^ 64 - 1))) 4096 16 runcmdPacket =
        some (0, runcmdBody 4095) ∧
      ¬ DecodeSafe sampleLayout (runcmdBody (2 ^ 64 - 1)) 4096 runcmdPacket := by
  have decoded :
      merlinDecode sampleLayout (some (runcmdBody (2 ^ 64 - 1) ++ [])) 4096
        (runcmdBody (2 ^ 64 - 1)).length runcmdPacket = some (0, runcmdBody 4095) := by
    decide
  refine ⟨decoded, fun safe => ?_⟩
  exact absurd ((safe [] _ decoded runcmdInfo rfl).2 4 (by decide)) (by decide)

end MonitorMerlin
