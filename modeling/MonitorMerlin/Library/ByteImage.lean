import Mathlib.Data.List.Basic
import Mathlib.Tactic.Ring

/-! # Byte images -/

namespace ByteImage

open List

abbrev Bytes := List UInt8

def slice (image : Bytes) (offset count : Nat) : Bytes := (image.drop offset).take count

def patch (image : Bytes) (offset : Nat) (data : Bytes) : Bytes :=
  image.take offset ++ data ++ image.drop (offset + data.length)

variable {image data : Bytes} {offset : Nat}

@[simp]
theorem length_patch (fits : offset + data.length ≤ image.length) :
    (patch image offset data).length = image.length := by
  simp only [patch, length_append, length_take, length_drop]
  omega

theorem slice_patch_same (fits : offset ≤ image.length) :
    slice (patch image offset data) offset data.length = data := by
  have prefixLength : (image.take offset).length = offset := by
    simp [fits]
  unfold slice patch
  rw [append_assoc, drop_append_of_le_length (by omega)]
  rw [drop_eq_nil_of_le (by omega), nil_append]
  simp

variable {start count : Nat}

theorem slice_patch_before (fits : offset ≤ image.length) (before : start + count ≤ offset) :
    slice (patch image offset data) start count = slice image start count := by
  have prefixLength : (image.take offset).length = offset := by
    simp [fits]
  unfold slice patch
  rw [append_assoc, drop_append_of_le_length (by omega)]
  rw [take_append_of_le_length (by simp; omega)]
  rw [drop_take, take_take]
  congr 1
  omega

theorem drop_patch_after {offset start : Nat} (fits : offset + data.length ≤ image.length)
    (after : offset + data.length ≤ start) :
    (patch image offset data).drop start = image.drop start := by
  have prefixLength : (image.take offset ++ data).length = offset + data.length := by
    simp; omega
  unfold patch
  rw [drop_append, prefixLength, drop_eq_nil_of_le (by omega), nil_append, drop_drop]
  congr 1
  omega

theorem slice_patch_after (fits : offset + data.length ≤ image.length)
    (after : offset + data.length ≤ start) :
    slice (patch image offset data) start count = slice image start count := by
  rw [slice, slice, drop_patch_after fits after]

variable {first second : Bytes}

theorem patch_patch_same (sameLength : first.length = second.length)
    (fits : offset + first.length ≤ image.length) :
    patch (patch image offset first) offset second = patch image offset second := by
  have prefixLength : (image.take offset).length = offset := by
    simp; omega
  unfold patch
  congr 1
  · rw [append_assoc, take_append_of_le_length (by omega), take_take, Nat.min_self]
  · rw [← sameLength, drop_append, length_append, prefixLength,
      drop_eq_nil_of_le (by simp), nil_append]
    simp

theorem getElem?_patch (fits : offset + data.length ≤ image.length) (index : Nat) :
    (patch image offset data)[index]? =
      if offset ≤ index ∧ index < offset + data.length then data[index - offset]?
      else image[index]? := by
  have takeLength : (image.take offset).length = offset := by
    simp
    omega
  unfold patch
  by_cases before : index < offset
  · rw [if_neg (by omega), append_assoc, getElem?_append_left (by omega),
      getElem?_take_of_lt before]
  · by_cases inside : index < offset + data.length
    · rw [if_pos (by omega), getElem?_append_left (by rw [length_append]; omega),
        getElem?_append_right (by omega), takeLength]
    · rw [if_neg (by omega), getElem?_append_right (by rw [length_append]; omega),
        length_append, takeLength, getElem?_drop]
      congr 1
      omega

theorem patch_comm {offset start : Nat} (apart : offset + first.length ≤ start)
    (fits : start + second.length ≤ image.length) :
    patch (patch image offset first) start second =
      patch (patch image start second) offset first := by
  have firstLength : (patch image offset first).length = image.length := length_patch (by omega)
  have secondLength : (patch image start second).length = image.length := length_patch fits
  apply ext_getElem?
  intro index
  rw [getElem?_patch (by omega), getElem?_patch (by omega), getElem?_patch (by omega),
    getElem?_patch fits]
  by_cases inFirst : offset ≤ index ∧ index < offset + first.length
  · have notSecond : ¬ (start ≤ index ∧ index < start + second.length) := by omega
    rw [if_neg notSecond, if_pos inFirst, if_pos inFirst]
  · rw [if_neg inFirst, if_neg inFirst]

def leValue : Bytes → Nat
  | [] => 0
  | byte :: rest => byte.toNat + 256 * leValue rest

theorem leValue_append (first second : Bytes) :
    leValue (first ++ second) = leValue first + 256 ^ first.length * leValue second := by
  induction first with
  | nil => simp [leValue]
  | cons byte rest ih =>
    simp only [cons_append, leValue, ih, length_cons, Nat.pow_succ]
    ring

def leBytes : (width value : Nat) → Bytes
  | 0, _ => []
  | width + 1, value => UInt8.ofNat value :: leBytes width (value / 256)

@[simp]
theorem length_leBytes (width value : Nat) : (leBytes width value).length = width := by
  induction width generalizing value with
  | zero => rfl
  | succ width ih => simp [leBytes, ih]

private theorem leValue_leBytes_mod (width value : Nat) :
    leValue (leBytes width value) = value % 256 ^ width := by
  induction width generalizing value with
  | zero => simp [leBytes, leValue, Nat.mod_one]
  | succ width ih =>
    have lowByte : (UInt8.ofNat value).toNat = value % 256 := by
      simp
    rw [leBytes, leValue, ih, lowByte, Nat.pow_succ, Nat.mul_comm (256 ^ width) 256, Nat.mod_mul]

theorem leValue_leBytes {width value : Nat} (fits : value < 256 ^ width) :
    leValue (leBytes width value) = value := by
  rw [leValue_leBytes_mod, Nat.mod_eq_of_lt fits]

theorem leValue_lt (bytes : Bytes) : leValue bytes < 256 ^ bytes.length := by
  induction bytes with
  | nil => simp [leValue]
  | cons byte rest ih =>
    have byteBound : byte.toNat < 256 := byte.toNat_lt
    simp only [leValue, length_cons, Nat.pow_succ]
    omega

theorem eq_of_leValue_eq {first second : Bytes}
    (sameLength : first.length = second.length) (sameValue : leValue first = leValue second) :
    first = second := by
  induction first generalizing second with
  | nil => exact (eq_nil_of_length_eq_zero sameLength.symm).symm
  | cons byte rest ih =>
    cases second with
    | nil => exact absurd sameLength (Nat.succ_ne_zero rest.length)
    | cons other others =>
      have firstBound : byte.toNat < 256 := byte.toNat_lt
      have secondBound : other.toNat < 256 := other.toNat_lt
      simp only [leValue] at sameValue
      have sameByte : byte = other := UInt8.toNat_inj.mp (by omega)
      have sameRest : rest = others := ih (Nat.succ.inj sameLength) (by omega)
      rw [sameByte, sameRest]

end ByteImage
