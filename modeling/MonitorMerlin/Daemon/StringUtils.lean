import MonitorMerlin.Library.ByteImage
import MonitorMerlin.Library.Loop
import MonitorMerlin.Library.MachineInt

/-! # Newlines in texts for the database -/

namespace MonitorMerlin

open ByteImage List

namespace Escape

def backslash : UInt8 := 92

def letterN : UInt8 := 110

def lineFeed : UInt8 := 10

end Escape

open Escape

structure Unescaper where
  i : Nat
  j : Nat
  written : List (UInt8 × Nat)
  deriving DecidableEq, Repr

namespace Unescaper

def start : Unescaper := ⟨0, 0, []⟩

def GoesOn (n : Nat) (run : Unescaper) : Prop := run.i < n

instance (n : Nat) : DecidablePred (GoesOn n) := fun _ => inferInstanceAs (Decidable (_ < _))

def put (run : Unescaper) (byte : UInt8) (count : Nat) : Unescaper :=
  ⟨run.i + count, run.j + 1, run.written ++ [(byte, run.j)]⟩

/-- A turn of `unescape_newlines`. -/
def turn (src : Bytes) (run : Unescaper) : Option Unescaper := do
  let byte ← src[run.i]?
  if run.i = src.length - 1 then
    return run.put byte 1
  else if byte = backslash then
    let next ← src[run.i + 1]?
    if next = letterN then
      return run.put lineFeed 2
    else if next = backslash then
      return run.put next 2
    else
      return run.put byte 1
  else
    return run.put byte 1

/-- `j`, as an `int`. -/
def ret (run : Unescaper) : Int := MachineInt.toInt run.j

end Unescaper

/-- `unescape_newlines` ends with these writes. -/
def UnescapeNewlines (src : Bytes) (run : Unescaper) : Prop :=
  Loop.EndsIn (Unescaper.GoesOn src.length) (fun run (_ : Unit) => Unescaper.turn src run)
    (fun _ => ()) Unescaper.start run

def escapedByte (byte : UInt8) : Bytes :=
  if byte = backslash then [backslash, backslash]
  else if byte = lineFeed then [backslash, letterN]
  else [byte]

def escaped (text : Bytes) : Bytes := text.flatMap escapedByte

def unescaped : Bytes → Bytes
  | [] => []
  | [byte] => [byte]
  | byte :: next :: rest =>
    if byte = backslash ∧ next = letterN then
      lineFeed :: unescaped rest
    else if byte = backslash ∧ next = backslash then
      backslash :: unescaped rest
    else
      byte :: unescaped (next :: rest)

def Inverts (text : Bytes) : Prop :=
  ∃ run, UnescapeNewlines (escaped text) run ∧ run.written = text.zipIdx ∧ run.ret = text.length

def StaysWithin (src : Bytes) : Prop :=
  ∃ run, UnescapeNewlines src run ∧ (∀ write ∈ run.written, (write.2 : Int) < run.ret) ∧
    run.ret ≤ src.length

private theorem unescaped_cons {byte : UInt8} (plain : byte ≠ backslash) (rest : Bytes) :
    unescaped (byte :: rest) = byte :: unescaped rest := by
  cases rest with
  | nil => rfl
  | cons next rest =>
    rw [unescaped, if_neg fun both => plain both.1, if_neg fun both => plain both.1]

private theorem unescaped_escapedByte (byte : UInt8) (rest : Bytes) :
    unescaped (escapedByte byte ++ rest) = byte :: unescaped rest := by
  rw [escapedByte]
  split
  · rename_i isBackslash
    rw [isBackslash]
    rfl
  · rename_i plain
    split
    · rename_i isLineFeed
      rw [isLineFeed]
      rfl
    · exact unescaped_cons plain rest

private theorem unescaped_escaped (text : Bytes) : unescaped (escaped text) = text := by
  induction text with
  | nil => rfl
  | cons byte text inverse =>
    rw [escaped, flatMap_cons, unescaped_escapedByte]
    exact congrArg (byte :: ·) inverse

private theorem length_unescaped_le (text : Bytes) : (unescaped text).length ≤ text.length := by
  fun_induction unescaped text with
  | case1 | case2 byte => exact Nat.le_refl _
  | case3 byte next rest isNewline bound | case4 byte next rest notNewline isBackslash bound =>
    simp only [length_cons]
    omega
  | case5 byte next rest notNewline notBackslash bound =>
    simp only [length_cons] at bound ⊢
    omega

namespace Unescaper

structure Copied (src : Bytes) (run : Unescaper) : Prop where
  within : run.i ≤ src.length
  copied : ∃ front, unescaped src = front ++ unescaped (src.drop run.i) ∧
    run.written = front.zipIdx ∧ run.j = front.length

variable {src : Bytes} {run : Unescaper}

private theorem copied_start (src : Bytes) : Copied src start where
  within := Nat.zero_le _
  copied := ⟨[], rfl, rfl, rfl⟩

theorem Copied.put {byte : UInt8} {count : Nat} (copied : Copied src run)
    (within : run.i + count ≤ src.length)
    (isNext : unescaped (src.drop run.i) = byte :: unescaped (src.drop (run.i + count))) :
    Copied src (run.put byte count) where
  within := within
  copied := by
    obtain ⟨front, isFront, isWritten, isCount⟩ := copied.copied
    refine ⟨front ++ [byte], ?_, ?_, ?_⟩
    · rw [isFront, isNext, append_assoc]
      rfl
    · rw [zipIdx_append, ← isWritten, Nat.zero_add, ← isCount]
      rfl
    · rw [length_append, ← isCount]
      rfl

private theorem turn_copied (copied : Copied src run) (goesOn : GoesOn src.length run) :
    ∃ next, turn src run = some next ∧ Copied src next ∧
      src.length - next.i < src.length - run.i := by
  have within : run.i < src.length := goesOn
  have lower : ∀ (byte : UInt8) (count : Nat), 0 < count →
      src.length - (run.put byte count).i < src.length - run.i := by
    intro byte count positive
    change src.length - (run.i + count) < _
    omega
  have isDrop := drop_eq_getElem_cons within
  rw [turn, getElem?_eq_getElem within, Option.bind_eq_bind, Option.bind_some]
  generalize src[run.i] = byte at isDrop ⊢
  have plain : unescaped (src.drop run.i) = byte :: unescaped (src.drop (run.i + 1)) →
      ∃ next, some (run.put byte 1) = some next ∧ Copied src next ∧
        src.length - next.i < src.length - run.i :=
    fun isNext => ⟨_, rfl, copied.put within isNext, lower byte 1 Nat.one_pos⟩
  split
  · rename_i isLast
    apply plain
    rw [isDrop, drop_of_length_le (by omega : src.length ≤ run.i + 1)]
    rfl
  · rename_i notLast
    have nextWithin : run.i + 1 < src.length := by omega
    have isNextDrop := drop_eq_getElem_cons nextWithin
    rw [isNextDrop] at isDrop
    split
    · rename_i isBackslash
      rw [getElem?_eq_getElem nextWithin, Option.bind_some]
      generalize src[run.i + 1] = next at isDrop isNextDrop ⊢
      split
      · rename_i isN
        refine ⟨_, rfl, copied.put nextWithin ?_, lower _ 2 Nat.two_pos⟩
        rw [isDrop, unescaped, if_pos ⟨isBackslash, isN⟩]
      · rename_i notN
        split
        · rename_i isNext
          refine ⟨_, rfl, copied.put nextWithin ?_, lower _ 2 Nat.two_pos⟩
          rw [isDrop, unescaped, if_neg fun both => notN both.2, if_pos ⟨isBackslash, isNext⟩,
            isNext]
        · rename_i notNext
          apply plain
          rw [isDrop, unescaped, if_neg fun both => notN both.2, if_neg fun both => notNext both.2,
            isNextDrop]
    · rename_i notBackslash
      apply plain
      rw [isDrop, unescaped_cons notBackslash, isNextDrop]

end Unescaper

private theorem unescapeNewlines_ends (src : Bytes) :
    ∃ run, UnescapeNewlines src run ∧ run.written = (unescaped src).zipIdx ∧
      run.j = (unescaped src).length := by
  have ended : ∃ run, UnescapeNewlines src run ∧ Unescaper.Copied src run :=
    Loop.endsIn_of_measure _ (fun run => src.length - run.i)
      (fun _ _ _ => Unescaper.turn_copied) (Unescaper.copied_start src)
  obtain ⟨run, ends, within, front, isFront, isWritten, isCount⟩ := ended
  have isEnd : ¬run.i < src.length := ends.choose_spec.2
  have all : unescaped src = front := by
    rw [isFront, drop_of_length_le (Nat.le_of_not_lt isEnd), unescaped, append_nil]
  rw [all]
  exact ⟨run, ends, isWritten, isCount⟩

private theorem inverts_iff_length (text : Bytes) : Inverts text ↔ text.length < 2 ^ 31 := by
  obtain ⟨run, ends, isWritten, isCount⟩ := unescapeNewlines_ends (escaped text)
  rw [unescaped_escaped] at isWritten isCount
  constructor
  · intro ⟨other, endsOther, _, isRet⟩
    rw [← ends.unique endsOther, Unescaper.ret, isCount] at isRet
    exact MachineInt.toInt_eq_iff.mp isRet
  · intro short
    refine ⟨run, ends, isWritten, ?_⟩
    rw [Unescaper.ret, isCount]
    exact MachineInt.toInt_of_lt short

private theorem staysWithin_iff_length (src : Bytes) :
    StaysWithin src ↔ (unescaped src).length < 2 ^ 31 := by
  obtain ⟨run, ends, isWritten, isCount⟩ := unescapeNewlines_ends src
  constructor
  · intro ⟨other, endsOther, below, _⟩
    rw [← ends.unique endsOther, Unescaper.ret, isWritten, isCount] at below
    apply Nat.lt_of_not_le
    intro long
    have last : (unescaped src).length - 1 < (unescaped src).length := by omega
    have belowRet := below _ (mk_mem_zipIdx_iff_getElem?.mpr (getElem?_eq_getElem last))
    have small := MachineInt.toInt_lt (unescaped src).length
    dsimp only at belowRet
    omega
  · intro short
    have isRet : run.ret = (unescaped src).length := by
      rw [Unescaper.ret, isCount]
      exact MachineInt.toInt_of_lt short
    refine ⟨run, ends, ?_, ?_⟩
    · intro write isWrite
      rw [isWritten] at isWrite
      rw [isRet]
      exact Int.ofNat_lt.mpr (snd_lt_of_mem_zipIdx isWrite)
    · rw [isRet]
      exact Int.ofNat_le.mpr (length_unescaped_le src)

/-- Newlines are unescaped and nothing is read or written outside, if and only if the
count that is returned fits in an `int`. -/
theorem unescapeNewlines_iff (text src : Bytes) :
    (Inverts text ↔ text.length < 2 ^ 31) ∧ (StaysWithin src ↔ (unescaped src).length < 2 ^ 31) :=
  ⟨inverts_iff_length text, staysWithin_iff_length src⟩

theorem not_inverts_long : ¬Inverts (List.replicate (2 ^ 31) Escape.letterN) := by
  rw [inverts_iff_length, length_replicate]
  exact Nat.lt_irrefl _

end MonitorMerlin
