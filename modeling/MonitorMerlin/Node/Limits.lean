import Mathlib.Data.Nat.Digits.Defs
import MonitorMerlin.Library.Run
import MonitorMerlin.Node.Backlog
import MonitorMerlin.Tools.Logutils

/-! # The limits of a backlog -/

namespace MonitorMerlin

open List

def digitsValue (digits : List Char) : Nat :=
  digits.foldl (fun value digit => value * 10 + (digit.toNat - 48)) 0

/-- `strtoull`, with the text behind. -/
def strtoull (text : List Char) : Option (Nat × List Char) :=
  let (negative, text) := signOf (text.dropWhile isSpace)
  let digits := text.takeWhile Char.isDigit
  if digits = [] then none
  else
    let result :=
      if 2 ^ 64 ≤ digitsValue digits then 2 ^ 64 - 1
      else if negative then (2 ^ 64 - digitsValue digits) % 2 ^ 64
      else digitsValue digits
    some (result, text.drop digits.length)

/-- `read_positive_number`, with `out`. -/
def readPositiveNumber (value : List Char) (out : Nat) : Bool × Nat :=
  if value.head? = some '-' then
    (false, out)
  else
    match strtoull value with
    | none => (false, 0)
    | some (number, rest) => (rest.isEmpty, number)

structure BinlogSettings where
  binlogDir : Option (List Char)
  maxMemorySize : Nat
  maxFileSize : Nat
  persist : Bool
  deriving DecidableEq, Repr

def BinlogSettings.initial : BinlogSettings := ⟨none, 500, 5000, true⟩

structure BinlogVar where
  key : List Char
  value : List Char
  deriving DecidableEq, Repr

def memoryKey : List Char := "binlog_max_memory_size".toList

def fileKey : List Char := "binlog_max_file_size".toList

section Grok

variable (atoi : List Char → Int)

/-- `grok_binlog_var`. -/
def grokBinlogVar (settings : BinlogSettings) (v : BinlogVar) : Bool × BinlogSettings :=
  if v.key = "binlog_dir".toList then
    (true, { settings with binlogDir := some v.value })
  else if v.key = memoryKey then
    let number := readPositiveNumber v.value settings.maxMemorySize
    (number.1, { settings with maxMemorySize := number.2 })
  else if v.key = fileKey then
    let number := readPositiveNumber v.value settings.maxFileSize
    (number.1, { settings with maxFileSize := number.2 })
  else if v.key = "binlog_persist".toList then
    (true, { settings with persist := atoi v.value ≠ 0 })
  else
    (false, settings)

def grokStep (settings : BinlogSettings) (v : BinlogVar) : Option BinlogSettings :=
  match grokBinlogVar atoi settings v with
  | (true, settings) => some settings
  | (false, _) => none

end Grok

def BinlogSettings.backlog (settings : BinlogSettings) (binlogdir : List Char) (isModule : Bool)
    (name : List Char) : BacklogConfig where
  path :=
    (settings.binlogDir.getD binlogdir ++ '/' :: (if isModule then "module" else "daemon").toList ++
      '.' :: name ++ ".binlog".toList).map Char.toUInt8
  maxMemorySize := settings.maxMemorySize
  maxFileSize := settings.maxFileSize
  persist := settings.persist

def decimalNumber (text : List Char) : Int :=
  let (negative, digits) := signOf (text.dropWhile isSpace)
  let number : Nat := Nat.ofDigits 10 (digits.map fun digit => digit.toNat - 48).reverse
  if negative then -number else number

def configuredNumber (key : List Char) (initial : Int) (vars : List BinlogVar) : Int :=
  vars.foldl (fun number v => if v.key = key then decimalNumber v.value else number) initial

structure LimitsExact (vars : List BinlogVar) (bl : Binlog) : Prop where
  memory : bl.maxMemSize = configuredNumber memoryKey 500 vars * 2 ^ 20
  file : bl.maxFileSize = configuredNumber fileKey 5000 vars * 2 ^ 20
  nonneg : 0 ≤ bl.maxFileSize

def ReadAs (number : Int) (limit : Nat) : Prop :=
  if number.natAbs < 2 ^ 64 then (limit : Int) = number % 2 ^ 64 else limit = 2 ^ 64 - 1

variable {text rest : List Char} {number limit : Nat}

theorem digitsValue_eq (digits : List Char) :
    digitsValue digits = Nat.ofDigits 10 (digits.map fun digit => digit.toNat - 48).reverse := by
  rw [digitsValue, Nat.ofDigits_eq_foldr, foldr_reverse, foldl_map]
  simp only [Nat.cast_id, Nat.add_comm, Nat.mul_comm]

theorem strtoull_reads (result : strtoull text = some (number, [])) :
    ReadAs (decimalNumber text) number := by
  rw [strtoull] at result
  rw [decimalNumber]
  generalize signOf (text.dropWhile isSpace) = signed at *
  obtain ⟨negative, digits⟩ := signed
  dsimp only at result ⊢
  split at result
  · cases result
  · obtain ⟨isNumber, ended⟩ := Prod.mk.inj (Option.some.inj result)
    have front := takeWhile_prefix (l := digits) Char.isDigit
    have whole := front.eq_of_length_le (drop_eq_nil_iff.mp ended)
    rw [whole, digitsValue_eq] at isNumber
    rw [← isNumber, ReadAs]
    cases negative <;> simp only [Bool.false_eq_true, if_true, if_false] <;> split_ifs <;> omega

theorem readPositiveNumber_reads {value : List Char} {out : Nat}
    (accepted : (readPositiveNumber value out).1 = true) :
    ReadAs (decimalNumber value) (readPositiveNumber value out).2 := by
  unfold readPositiveNumber at *
  split at accepted
  · cases accepted
  · rename_i unsigned
    rw [if_neg unsigned]
    cases result : strtoull value with
    | none =>
      rw [result] at accepted
      cases accepted
    | some read =>
      rw [result] at accepted
      apply strtoull_reads
      rw [result, ← isEmpty_iff.mp accepted]

section Stored

variable {atoi : List Char → Int} {settings after : BinlogSettings} {memory file : Int}

structure Stored (memory file : Int) (settings : BinlogSettings) : Prop where
  memory : ReadAs memory settings.maxMemorySize
  file : ReadAs file settings.maxFileSize

theorem grokBinlogVar_memory {v : BinlogVar} (stored : ReadAs memory settings.maxMemorySize)
    (accepted : (grokBinlogVar atoi settings v).1 = true) :
    ReadAs (if v.key = memoryKey then decimalNumber v.value else memory)
      (grokBinlogVar atoi settings v).2.maxMemorySize := by
  unfold grokBinlogVar at accepted ⊢
  by_cases isMemory : v.key = memoryKey
  · have notDir : v.key ≠ "binlog_dir".toList := by
      rw [isMemory]
      decide
    rw [if_neg notDir, if_pos isMemory] at accepted ⊢
    rw [if_pos isMemory]
    exact readPositiveNumber_reads accepted
  · rw [if_neg isMemory, if_neg isMemory]
    split_ifs <;> exact stored

theorem grokBinlogVar_file {v : BinlogVar} (stored : ReadAs file settings.maxFileSize)
    (accepted : (grokBinlogVar atoi settings v).1 = true) :
    ReadAs (if v.key = fileKey then decimalNumber v.value else file)
      (grokBinlogVar atoi settings v).2.maxFileSize := by
  unfold grokBinlogVar at accepted ⊢
  by_cases isFile : v.key = fileKey
  · have others : v.key ≠ "binlog_dir".toList ∧ v.key ≠ memoryKey := by
      rw [isFile]
      decide
    rw [if_neg others.1, if_neg others.2, if_pos isFile] at accepted ⊢
    rw [if_pos isFile]
    exact readPositiveNumber_reads accepted
  · rw [if_neg isFile, if_neg isFile]
    split_ifs <;> exact stored

theorem Stored.step {v : BinlogVar} (stored : Stored memory file settings)
    (stepped : grokStep atoi settings v = some after) :
    Stored (if v.key = memoryKey then decimalNumber v.value else memory)
      (if v.key = fileKey then decimalNumber v.value else file) after := by
  rw [grokStep] at stepped
  split at stepped
  · rename_i grokked
    cases stepped
    have accepted : (grokBinlogVar atoi settings v).1 = true := by rw [grokked]
    have isAfter : (grokBinlogVar atoi settings v).2 = after := by rw [grokked]
    rw [← isAfter]
    exact ⟨grokBinlogVar_memory stored.memory accepted, grokBinlogVar_file stored.file accepted⟩
  · cases stepped

theorem Stored.run {vars : List BinlogVar} (stored : Stored memory file settings)
    (read : Run.run (grokStep atoi) settings vars = some after) :
    Stored (configuredNumber memoryKey memory vars) (configuredNumber fileKey file vars) after := by
  induction vars generalizing settings memory file with
  | nil =>
    cases read
    exact stored
  | cons v vars ih =>
    obtain ⟨next, stepped, rest⟩ := Option.bind_eq_some_iff.mp read
    exact ih (stored.step stepped) rest

theorem nodeCreateBinlog_limits (settings : BinlogSettings) (binlogdir : List Char)
    (isModule : Bool) (name : List Char) (disk : Disk) :
    ∃ bl after, nodeCreateBinlog (settings.backlog binlogdir isModule name) none disk =
        (0, some bl, after) ∧
      bl.maxMemSize = settings.maxMemorySize * 1024 * 1024 % 2 ^ 64 ∧
      bl.maxFileSize = offT (settings.maxFileSize * 1024 * 1024) := by
  have long : 15 ≤ (settings.backlog binlogdir isModule name).path.length := by
    have isLength : (if isModule then "module" else "daemon").toList.length = 6 := by
      cases isModule <;> rfl
    have isEnd : ".binlog".toList.length = 7 := rfl
    simp only [BinlogSettings.backlog, length_map, length_append, length_cons, isLength, isEnd]
    omega
  rw [nodeCreateBinlog, if_neg (by omega), binlogCreate, if_neg (by simp), if_neg (by
    dsimp only [Option.elim_some]
    omega)]
  exact ⟨_, _, rfl, rfl, rfl⟩

theorem ReadAs.memory_iff (reads : ReadAs memory limit) :
    ((limit * 1024 * 1024 % 2 ^ 64 : Nat) : Int) = memory * 2 ^ 20 ↔
      0 ≤ memory ∧ memory < 2 ^ 44 := by
  unfold ReadAs at reads
  split_ifs at reads <;> omega

theorem ReadAs.file_iff (reads : ReadAs file limit) :
    offT (limit * 1024 * 1024) = file * 2 ^ 20 ∧ 0 ≤ offT (limit * 1024 * 1024) ↔
      0 ≤ file ∧ file < 2 ^ 43 := by
  unfold ReadAs at reads
  unfold offT
  split_ifs at reads ⊢ <;> omega

end Stored

/-- The limits of a new backlog are what was configured if and only if no number is
negative, that for the memory is below `2 ^ 44`, and that for the file below
`2 ^ 43`. -/
theorem limitsExact_iff {atoi : List Char → Int} {vars : List BinlogVar}
    {settings : BinlogSettings} (read : Run.run (grokStep atoi) .initial vars = some settings)
    (binlogdir : List Char) (isModule : Bool) (name : List Char) (disk : Disk) :
    ∃ bl after, nodeCreateBinlog (settings.backlog binlogdir isModule name) none disk =
        (0, some bl, after) ∧
      (LimitsExact vars bl ↔
        (0 ≤ configuredNumber memoryKey 500 vars ∧
            configuredNumber memoryKey 500 vars < 2 ^ 44) ∧
          0 ≤ configuredNumber fileKey 5000 vars ∧
            configuredNumber fileKey 5000 vars < 2 ^ 43) := by
  have initially : Stored 500 5000 .initial := ⟨rfl, rfl⟩
  have stored := initially.run read
  obtain ⟨bl, after, created, memory, file⟩ :=
    nodeCreateBinlog_limits settings binlogdir isModule name disk
  refine ⟨bl, after, created, ?_⟩
  rw [← stored.memory.memory_iff, ← stored.file.file_iff, ← memory, ← file]
  exact ⟨fun exact => ⟨exact.memory, exact.file, exact.nonneg⟩,
    fun ⟨isMemory, isFile, nonneg⟩ => ⟨isMemory, isFile, nonneg⟩⟩

def noAtoi (_ : List Char) : Int := 0

def emptyDisk : Disk := ⟨none, none, none⟩

def largestVars : List BinlogVar :=
  [⟨memoryKey, "17592186044415".toList⟩, ⟨fileKey, "+8796093022207".toList⟩]

theorem limitsExact_largest :
    ∃ bl after, nodeCreateBinlog ((⟨none, 2 ^ 44 - 1, 2 ^ 43 - 1, true⟩ : BinlogSettings).backlog
        ['/'] true ['a']) none emptyDisk = (0, some bl, after) ∧ LimitsExact largestVars bl := by
  have read : Run.run (grokStep noAtoi) .initial largestVars =
      some ⟨none, 2 ^ 44 - 1, 2 ^ 43 - 1, true⟩ := by
    decide +kernel
  obtain ⟨bl, after, created, exact_iff⟩ := limitsExact_iff read ['/'] true ['a'] emptyDisk
  exact ⟨bl, after, created, exact_iff.mpr (by decide +kernel)⟩

def tooLargeVars : List BinlogVar :=
  [⟨memoryKey, "17592186044416".toList⟩, ⟨fileKey, "8796093022208".toList⟩]

theorem limits_tooLarge :
    Run.run (grokStep noAtoi) .initial tooLargeVars = some ⟨none, 2 ^ 44, 2 ^ 43, true⟩ ∧
      ∃ bl after, nodeCreateBinlog ((⟨none, 2 ^ 44, 2 ^ 43, true⟩ : BinlogSettings).backlog
          ['/'] true ['a']) none emptyDisk = (0, some bl, after) ∧
        bl.maxMemSize = 0 ∧ bl.maxFileSize = -2 ^ 63 ∧ ¬LimitsExact tooLargeVars bl := by
  refine ⟨by decide +kernel, ?_⟩
  obtain ⟨bl, after, created, memory, file⟩ :=
    nodeCreateBinlog_limits ⟨none, 2 ^ 44, 2 ^ 43, true⟩ ['/'] true ['a'] emptyDisk
  have negative : bl.maxFileSize = -2 ^ 63 := file.trans (by decide +kernel)
  refine ⟨bl, after, created, memory.trans (by decide +kernel), negative, ?_⟩
  intro exact
  have nonneg := exact.nonneg
  omega

end MonitorMerlin
