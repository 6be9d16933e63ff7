import MonitorMerlin.Library.Shell
import MonitorMerlin.Module.Tolerance

/-! # Remote commands -/

namespace MonitorMerlin

open ByteImage List Shell

def monWords : List Bytes :=
  ["/usr/bin/mon".toUTF8.toList, "qh".toUTF8.toList, "query".toUTF8.toList,
    "--single".toUTF8.toList]

def runcmdQuery : Bytes := "@runcmd run ".toUTF8.toList

theorem words_cmdPrefix (rest : Bytes) :
    words .bare none (cmdPrefix ++ rest) =
      (words .single (some runcmdQuery) rest).map (monWords ++ ·) := by
  have isPrefix : cmdPrefix = [47, 117, 115, 114, 47, 98, 105, 110, 47, 109, 111, 110, 32,
      113, 104, 32, 113, 117, 101, 114, 121, 32, 45, 45, 115, 105, 110, 103, 108, 101, 32,
      39, 64, 114, 117, 110, 99, 109, 100, 32, 114, 117, 110, 32] := by
    decide +kernel
  have isWords : monWords = [[47, 117, 115, 114, 47, 98, 105, 110, 47, 109, 111, 110],
      [113, 104], [113, 117, 101, 114, 121], [45, 45, 115, 105, 110, 103, 108, 101]] := by
    decide +kernel
  have isQuery : runcmdQuery = [64, 114, 117, 110, 99, 109, 100, 32, 114, 117, 110, 32] := by
    decide +kernel
  rw [isPrefix, isWords, isQuery]
  simp [words, Function.comp_def]

/-- The worker gets the content of an accepted command as it is if and only if there is
no single quote in it. -/
theorem runCommand_words_iff {Rest : Type} {naemon : Naemon Rest} {env : ReceiveEnv}
    {world : World Rest} {body content : Bytes}
    (named : stringAt env.base runcmdSlot body = .ok (some content)) :
    runCommand naemon env body world =
        .ok (naemon.wprocRunCallback (cmdPrefix ++ content ++ [39]) world) ∧
      (words .bare none (cmdPrefix ++ content ++ [39]) =
          some (monWords ++ [runcmdQuery ++ content]) ↔
        39 ∉ content) := by
  constructor
  · rw [runCommand, named]
    rfl
  · rw [append_assoc, words_cmdPrefix, ← words_single_iff runcmdQuery, Option.map_eq_some_iff]
    constructor
    · rintro ⟨found, isFound, same⟩
      rw [isFound, append_cancel_left same]
    · exact fun isFound => ⟨_, isFound, rfl⟩

theorem runCommand_words_ls :
    words .bare none (cmdPrefix ++ [108, 115] ++ [39]) =
      some (monWords ++ [runcmdQuery ++ [108, 115]]) := by
  have named : stringAt sampleEnv.base runcmdSlot (runcmdBody 4108) = .ok (some [108, 115]) := rfl
  exact (@runCommand_words_iff Unit idleNaemon sampleEnv sampleWorld _ _ named).2.mpr (by decide)

theorem runCommand_words_quoted :
    stringAt sampleEnv.base runcmdSlot
          [5, 0, 0, 0, 12, 16, 0, 0, 0, 0, 0, 0, 39, 59, 105, 100, 39, 0] =
        .ok (some [39, 59, 105, 100, 39]) ∧
      words .bare none (cmdPrefix ++ [39, 59, 105, 100, 39] ++ [39]) ≠
        some (monWords ++ [runcmdQuery ++ [39, 59, 105, 100, 39]]) := by
  decide +kernel

end MonitorMerlin
