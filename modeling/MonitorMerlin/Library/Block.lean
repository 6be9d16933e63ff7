import MonitorMerlin.Library.ByteImage

/-! # Blocks of memory -/

namespace ByteImage

open List

private theorem getElem?_slice (image : Bytes) (offset count index : Nat) :
    (slice image offset count)[index]? =
      if index < count then image[offset + index]? else none := by
  simp only [slice, getElem?_take, getElem?_drop]

theorem getElem?_patch_outside {image data : Bytes} {offset index : Nat}
    (fits : offset + data.length ≤ image.length)
    (outside : index < offset ∨ offset + data.length ≤ index) :
    (patch image offset data)[index]? = image[index]? := by
  rw [getElem?_patch fits, if_neg (by omega)]

variable {offset : Nat}

theorem patch_patch_adjacent {image first second : Bytes}
    (fits : offset + first.length + second.length ≤ image.length) :
    patch (patch image offset first) (offset + first.length) second =
      patch image offset (first ++ second) := by
  have firstLength : (patch image offset first).length = image.length := length_patch (by omega)
  apply ext_getElem?
  intro index
  rw [getElem?_patch (by omega), getElem?_patch (by omega),
    getElem?_patch (by rw [length_append]; omega), length_append, getElem?_append]
  grind

variable {count : Nat}

theorem slice_congr {image other : Bytes}
    (same : ∀ index, offset ≤ index → index < offset + count → image[index]? = other[index]?) :
    slice image offset count = slice other offset count := by
  apply ext_getElem?
  intro index
  rw [getElem?_slice, getElem?_slice]
  split_ifs
  · exact same _ (by omega) (by omega)
  · rfl

theorem slice_append_left {image behind : Bytes} (fits : offset + count ≤ image.length) :
    slice (image ++ behind) offset count = slice image offset count := by
  refine slice_congr fun index _ inside => ?_
  rw [getElem?_append_left (by omega)]

theorem patch_append_left {image data behind : Bytes} (fits : offset + data.length ≤ image.length) :
    patch (image ++ behind) offset data = patch image offset data ++ behind := by
  unfold patch
  rw [take_append_of_le_length (by omega), drop_append_of_le_length fits,
    append_assoc, append_assoc, append_assoc]

theorem length_slice {image : Bytes} (fits : offset + count ≤ image.length) :
    (slice image offset count).length = count := by
  simp only [slice, length_take, length_drop]
  omega

/-- The bytes from `offset` on, if they are inside of the block. -/
def load (block : Bytes) (offset count : Nat) : Option Bytes :=
  if offset + count ≤ block.length then some (slice block offset count) else none

def store (block : Bytes) (offset : Nat) (data : Bytes) : Option Bytes :=
  if offset + data.length ≤ block.length then some (patch block offset data) else none

theorem load_eq {block : Bytes} (fits : offset + count ≤ block.length) :
    load block offset count = some (slice block offset count) := if_pos fits

theorem store_eq {block data : Bytes} (fits : offset + data.length ≤ block.length) :
    store block offset data = some (patch block offset data) := if_pos fits

theorem slice_append_middle (front text rest : Bytes) :
    slice (front ++ text ++ rest) front.length text.length = text := by
  rw [slice, append_assoc, drop_left, take_left]

theorem load_append (front text rest : Bytes) :
    load (front ++ text ++ rest) front.length text.length = some text := by
  rw [load_eq (by rw [length_append, length_append]; omega), slice_append_middle]

theorem store_append (front : Bytes) {old data : Bytes} (rest : Bytes)
    (same : old.length = data.length) :
    store (front ++ old ++ rest) front.length data = some (front ++ data ++ rest) := by
  have fits : front.length + data.length ≤ (front ++ old ++ rest).length := by
    rw [length_append, length_append]
    omega
  rw [store_eq fits, patch, ← same, ← length_append, drop_left, append_assoc front old, take_left]

def cstring (bytes : Bytes) : Option Bytes :=
  if 0 ∈ bytes then some (bytes.takeWhile (· ≠ 0)) else none

theorem cstring_append {content : Bytes} (noTerminator : 0 ∉ content) (rest : Bytes) :
    cstring (content ++ 0 :: rest) = some content := by
  unfold cstring
  rw [if_pos (by simp)]
  congr 1
  rw [takeWhile_append_of_pos]
  · simp
  · intro byte member
    simp only [ne_eq, decide_not, Bool.not_eq_eq_eq_not, Bool.not_true, decide_eq_false_iff_not]
    rintro rfl
    exact noTerminator member

theorem isSome_cstring (bytes : Bytes) : (cstring bytes).isSome = true ↔ 0 ∈ bytes := by
  unfold cstring
  by_cases terminated : 0 ∈ bytes
  · simp [terminated]
  · simp [terminated]

end ByteImage
