import MonitorMerlin.Library.ByteImage
import MonitorMerlin.Library.MachineInt

/-! # Reading a file -/

namespace MonitorMerlin

open ByteImage List MachineInt

structure CfgRead where
  buf : Bytes
  rd : Int
  total : Int

def CfgRead.read (state : CfgRead) (data : Bytes) (count : Nat) : CfgRead where
  buf := patch state.buf state.rd.toNat data
  rd := truncateInt count
  total := truncateInt (state.total + truncateInt count)

def readLoop (content : Bytes) : Nat → List Nat → CfgRead → Option CfgRead
  | _, [], state => some { state with rd := 0 }
  | pos, count :: counts, state =>
    if state.rd.toNat + count ≤ state.buf.length then
      if (state.read (slice content pos count) count).total < content.length ∧
          0 < (state.read (slice content pos count) count).rd then
        readLoop content (pos + count) counts (state.read (slice content pos count) count)
      else
        some (state.read (slice content pos count) count)
    else
      none

/-- `cfg_read_file`. -/
def cfgReadFile (content : Bytes) (counts : List Nat) (buf : Bytes) : Option (Option Bytes) :=
  (readLoop content 0 counts ⟨buf, 0, 0⟩).map fun state =>
    if state.rd < 0 ∨ state.total ≠ (content.length : Int) then
      none
    else
      some (patch state.buf content.length [10, 0])

def Delivers (size : Nat) : Int → Nat → List Nat → Prop
  | _, pos, [] => pos = size
  | rd, pos, count :: counts =>
    0 < count ∧ rd + count ≤ size ∧ pos + count ≤ size ∧
      Delivers size (truncateInt count) (pos + count) counts

variable {content : Bytes} {counts : List Nat} {pos : Nat} {state after : CfgRead}

private theorem readLoop_total_lt (ran : readLoop content pos counts state = some after)
    (small : state.total < 2 ^ 31) : after.total < 2 ^ 31 := by
  induction counts generalizing pos state with
  | nil =>
    cases ran
    exact small
  | cons count counts ih =>
    have wrapped : (state.read (slice content pos count) count).total < 2 ^ 31 :=
      Int.bmod_lt (by decide)
    rw [readLoop] at ran
    split_ifs at ran
    · exact ih ran wrapped
    · cases ran
      exact wrapped

theorem truncateInt_of_small {count : Nat} (small : count < 2 ^ 31) : truncateInt count = count :=
  truncateInt_of_bounded (by omega) (by omega)

private theorem length_slice_of_le {count : Nat} (inFile : pos + count ≤ content.length) :
    (slice content pos count).length = count := by
  rw [slice, length_take, length_drop]
  omega

theorem readLoop_last (small : content.length < 2 ^ 31) (isBuf : content.length < state.buf.length)
    (delivers : Delivers content.length state.rd pos counts)
    (misplaced : 0 < state.rd ∧ state.rd < pos ∨
      state.rd = pos ∧ (if pos = 0 then 2 else 1) < counts.length)
    (ran : readLoop content pos counts state = some after) :
    after.buf[content.length - 1]? = state.buf[content.length - 1]? := by
  induction counts generalizing pos state with
  | nil =>
    cases ran
    rfl
  | cons count counts ih =>
    obtain ⟨positive, asked, inFile, later⟩ := delivers
    have isCount : truncateInt count = count := truncateInt_of_small (by omega)
    have isRd : (state.read (slice content pos count) count).rd = count := by
      rw [CfgRead.read, isCount]
    have length := length_slice_of_le inFile
    have fits : state.rd.toNat + (slice content pos count).length ≤ state.buf.length := by omega
    have before : state.rd + count < content.length := by
      rcases misplaced with front | ⟨isPos, enough⟩
      · omega
      · cases counts with
        | nil => split_ifs at enough <;> simp at enough
        | cons next counts =>
          obtain ⟨nextPositive, -, nextInFile, -⟩ := later
          omega
    have kept : (patch state.buf state.rd.toNat (slice content pos count))[content.length - 1]? =
        state.buf[content.length - 1]? := by
      rw [getElem?_patch fits, if_neg (by omega)]
    rw [readLoop, if_pos (by omega)] at ran
    rw [← kept]
    split_ifs at ran
    · rw [isCount, ← isRd] at later
      apply ih _ later _ ran
      · rwa [CfgRead.read, length_patch fits]
      · rw [isRd, length_cons] at *
        split_ifs at misplaced ⊢ <;> omega
    · cases ran
      rfl

private theorem patch_behind (front rest data : Bytes) :
    patch (front ++ rest) front.length data = front ++ data ++ rest.drop data.length := by
  simp [patch]

private theorem readLoop_cons {count : Nat} {rest : Bytes} (small : content.length < 2 ^ 31)
    (inFile : pos + count ≤ content.length) (fits : content.length ≤ pos + rest.length) :
    readLoop content pos (count :: counts) ⟨content.take pos ++ rest, pos, pos⟩ =
      if pos + count < content.length ∧ 0 < count then
        readLoop content (pos + count) counts
          ⟨content.take (pos + count) ++ rest.drop count, count, (pos + count : Nat)⟩
      else
        some ⟨content.take (pos + count) ++ rest.drop count, count, (pos + count : Nat)⟩ := by
  have front : (content.take pos).length = pos := by
    rw [length_take]
    omega
  have isRead : CfgRead.read ⟨content.take pos ++ rest, pos, pos⟩ (slice content pos count) count =
      ⟨content.take (pos + count) ++ rest.drop count, count, (pos + count : Nat)⟩ := by
    have patched := patch_behind (content.take pos) rest (slice content pos count)
    rw [front, length_slice_of_le inFile, slice, ← take_add] at patched
    simp only [CfgRead.read, Int.toNat_natCast, slice, patched]
    rw [truncateInt_of_small (by omega), ← Nat.cast_add, truncateInt_of_small (by omega)]
  rw [readLoop, isRead, if_pos (by simp; omega)]
  simp only [Nat.cast_lt, Int.natCast_pos]

variable (content counts) in
def ReadsFile : Prop :=
  ∀ buf : Bytes, buf.length = content.length + 3 →
    ∃ out, cfgReadFile content counts buf = some (some out) ∧
      out.take (content.length + 2) = content ++ [10, 0]

private theorem cfgReadFile_of_readLoop {rd : Int} {rest : Bytes} {buf : Bytes} (positive : 0 ≤ rd)
    (ran : readLoop content 0 counts ⟨buf, 0, 0⟩ = some ⟨content ++ rest, rd, content.length⟩) :
    ∃ out, cfgReadFile content counts buf = some (some out) ∧
      out.take (content.length + 2) = content ++ [10, 0] := by
  refine ⟨content ++ [10, 0] ++ rest.drop 2, ?_, ?_⟩
  · rw [cfgReadFile, ran, Option.map_some, if_neg (by simp [positive]), patch_behind]
    rfl
  · exact take_left' (by simp)

private theorem readsFile_of_short (small : content.length < 2 ^ 31)
    (delivers : Delivers content.length 0 0 counts) (short : counts.length ≤ 2) :
    ReadsFile content counts := by
  intro buf isBuf
  cases counts with
  | nil =>
    obtain rfl := eq_nil_of_length_eq_zero (Eq.symm delivers)
    exact cfgReadFile_of_readLoop le_rfl rfl
  | cons count counts =>
    simp only [Delivers, Nat.zero_add] at delivers
    obtain ⟨positive, -, inFile, later⟩ := delivers
    have first := @readLoop_cons content counts 0 count buf small (by omega) (by omega)
    rw [take_zero, nil_append, zero_add] at first
    cases counts with
    | nil =>
      have isAll : count = content.length := later
      rw [if_neg (by omega), isAll, take_length] at first
      rw [isAll]
      exact cfgReadFile_of_readLoop (Int.natCast_nonneg _) first
    | cons next counts =>
      rw [Delivers] at later
      obtain ⟨nextPositive, -, nextInFile, last⟩ := later
      have noMore : counts = [] := by
        rw [length_cons, length_cons] at short
        exact eq_nil_of_length_eq_zero (by omega)
      rw [noMore] at first last ⊢
      have isAll : count + next = content.length := last
      rw [if_pos (by omega), readLoop_cons small nextInFile (by rw [length_drop]; omega),
        if_neg (by omega), isAll, take_length] at first
      exact cfgReadFile_of_readLoop (Int.natCast_nonneg _) first

theorem readsFile_iff (delivers : Delivers content.length 0 0 counts) :
    ReadsFile content counts ↔ content.length < 2 ^ 31 ∧ counts.length ≤ 2 := by
  refine ⟨fun reads => ?_, fun ⟨small, short⟩ => readsFile_of_short small delivers short⟩
  have ran : ∀ byte, ∃ state, readLoop content 0 counts
      ⟨replicate (content.length + 3) byte, 0, 0⟩ = some state ∧
        state.total = content.length ∧
        (patch state.buf content.length [10, 0]).take (content.length + 2) =
          content ++ [10, 0] := by
    intro byte
    obtain ⟨out, isOut, isFile⟩ := reads _ length_replicate
    obtain ⟨state, isState, isNext⟩ := Option.map_eq_some_iff.mp isOut
    split_ifs at isNext with failed
    cases isNext
    exact ⟨state, isState, not_not.mp (not_or.mp failed).2, isFile⟩
  obtain ⟨state, isState, isTotal, -⟩ := ran 0
  have small : content.length < 2 ^ 31 := by
    have wrapped := readLoop_total_lt isState (show (0 : Int) < 2 ^ 31 by decide)
    omega
  refine ⟨small, not_lt.mp fun long => ?_⟩
  have some : 0 < content.length := by
    cases counts with
    | nil => cases long
    | cons count counts =>
      obtain ⟨positive, -, inFile, -⟩ := delivers
      omega
  have lastByte : ∀ byte, content[content.length - 1]? = Option.some byte := by
    intro byte
    obtain ⟨state, isState, -, isFile⟩ := ran byte
    have kept := readLoop_last small (by simp) delivers (.inr ⟨rfl, by simpa using long⟩) isState
    rw [getElem?_replicate_of_lt (by omega)] at kept
    obtain ⟨inside, -⟩ := List.getElem?_eq_some_iff.mp kept
    have sameByte := congrArg (fun bytes : Bytes => bytes[content.length - 1]?) isFile
    rw [getElem?_take_of_lt (by omega), patch, append_assoc,
      getElem?_append_left (by rw [length_take]; omega), getElem?_take_of_lt (by omega), kept,
      getElem?_append_left (by omega)] at sameByte
    exact sameByte.symm
  exact absurd ((lastByte 0).symm.trans (lastByte 1)) (by decide)

theorem readsFile_twoReads : ReadsFile [97, 98, 99] [1, 2] := by
  apply (readsFile_iff _).mpr (by decide)
  exact ⟨by decide, by decide, by decide, by decide, by decide, by decide, rfl⟩

theorem not_readsFile_threeReads : ¬ ReadsFile [97, 98, 99] [1, 1, 1] := by
  intro reads
  have ran : cfgReadFile [97, 98, 99] [1, 1, 1] [0, 0, 0, 0, 0, 0] =
      some (some [97, 99, 0, 10, 0, 0]) := by
    decide +kernel
  obtain ⟨out, isOut, isFile⟩ := reads [0, 0, 0, 0, 0, 0] rfl
  cases ran.symm.trans isOut
  exact absurd isFile (by decide)

end MonitorMerlin
