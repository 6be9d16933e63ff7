import Mathlib.Data.List.DropRight
import Mathlib.Data.List.Flatten
import Mathlib.Data.List.Infix

/-! # The object configuration files -/

namespace MonitorMerlin

open List

inductive Listing where
  | done
  | regular (name : List Char) (rest : Listing)
  | special (name : List Char) (rest : Listing)
  | directory (name : List Char) (opens : Bool) (entries rest : Listing)

structure CfgDir where
  opens : Bool
  entries : Listing

def isCfg (name : List Char) : Bool := name.rtake 4 == ['.', 'c', 'f', 'g']

def recurseLoop (maxDepth : Nat) (wd : List Char) (depth : Nat) (list : List (List Char)) :
    Listing → List (List Char)
  | .done => list
  | .regular name rest =>
    recurseLoop maxDepth wd depth (if isCfg name then (wd ++ '/' :: name) :: list else list) rest
  | .special _ rest => recurseLoop maxDepth wd depth list rest
  | .directory name opens entries rest =>
    if maxDepth ≤ depth then
      recurseLoop maxDepth wd depth list rest
    else
      recurseLoop maxDepth wd depth
        (if opens then
          recurseLoop maxDepth (wd ++ '/' :: name) (depth + 1 + 1) list entries else [])
        rest

/-- `recurse_cfg_dir`. -/
def recurseCfgDir (path : List Char) (dir : CfgDir) (list : List (List Char))
    (maxDepth depth : Nat) : List (List Char) :=
  if dir.opens then recurseLoop maxDepth path (depth + 1) list dir.entries else []

/-- `isspace`, except for newlines. -/
def isLineSpace (char : Char) : Bool :=
  char == ' ' || char == '\t' || char == '\r' || char == '\x0b' || char == '\x0c'

/-- `read_strip_split` of a file of lines. -/
def readStripSplit (lines : List (List Char)) : Option (List (List Char)) :=
  if lines.head?.any (fun line => line.all isLineSpace) then
    none
  else
    some (lines.map (List.rdropWhile isLineSpace))

section Files

variable (absolute : List Char → List Char) (dirAt : List Char → CfgDir)

def cfgLine (list : List (List Char)) (line : List Char) : List (List Char) :=
  if "cfg_file=".toList.isPrefixOf line then
    absolute (line.drop 9) :: list
  else if "cfg_dir=".toList.isPrefixOf line then
    recurseCfgDir (absolute (line.drop 8)) (dirAt (absolute (line.drop 8))) list 4 0
  else
    list

/-- `get_cfg_files`. -/
def getCfgFiles (lines : List (List Char)) : Option (List (List Char)) :=
  (readStripSplit lines).map fun lines => lines.foldl (cfgLine absolute dirAt) []

inductive Find where
  | found (path : List Char)
  | failed
  deriving DecidableEq

def foundPaths : List Find → List (List Char)
  | [] => []
  | .found path :: rest => path :: foundPaths rest
  | .failed :: rest => foundPaths rest

def finds : Nat → List Char → Listing → List Find
  | _, _, .done => []
  | levels, wd, .regular name rest =>
    (if isCfg name then [.found (wd ++ '/' :: name)] else []) ++ finds levels wd rest
  | levels, wd, .special _ rest => finds levels wd rest
  | 0, wd, .directory _ _ _ rest => finds 0 wd rest
  | levels + 1, wd, .directory name opens entries rest =>
    (if opens then finds levels (wd ++ '/' :: name) entries else [.failed]) ++
      finds (levels + 1) wd rest

def dirFinds (levels : Nat) (path : List Char) (dir : CfgDir) : List Find :=
  if dir.opens then finds levels path dir.entries else [.failed]

def lineFinds (levels : Nat) (line : List Char) : List Find :=
  let line := line.rdropWhile isLineSpace
  if "cfg_file=".toList.isPrefixOf line then
    [.found (absolute (line.drop 9))]
  else if "cfg_dir=".toList.isPrefixOf line then
    dirFinds (levels - 1) (absolute (line.drop 8)) (dirAt (absolute (line.drop 8)))
  else
    []

def cfgFinds (levels : Nat) (lines : List (List Char)) : List Find :=
  lines.flatMap (lineFinds absolute dirAt levels)

def collect (list : List (List Char)) : Find → List (List Char)
  | .found path => path :: list
  | .failed => []

end Files

private theorem recurseLoop_eq {levels : Nat} (few : levels ≤ 2) (wd : List Char)
    (list : List (List Char)) (entries : Listing) :
    recurseLoop 4 wd (5 - 2 * levels) list entries =
      (finds levels wd entries).foldl collect list := by
  induction entries generalizing levels wd list with
  | done => rfl
  | regular name rest ih =>
    rw [recurseLoop, ih few, finds]
    split_ifs <;> rfl
  | special name rest ih =>
    rw [recurseLoop, ih few]
    cases levels <;> rfl
  | directory name opens entries rest ihEntries ihRest =>
    rw [recurseLoop]
    cases levels with
    | zero => rw [if_pos (by omega), ihRest (Nat.zero_le 2), finds]
    | succ levels =>
      have deeper : 5 - 2 * (levels + 1) + 1 + 1 = 5 - 2 * levels := by omega
      rw [if_neg (by omega), ihRest few, deeper, ihEntries (by omega), finds, foldl_append]
      cases opens <;> rfl

variable (absolute : List Char → List Char) (dirAt : List Char → CfgDir)

private theorem cfgLine_eq (list : List (List Char)) (line : List Char) :
    cfgLine absolute dirAt list (line.rdropWhile isLineSpace) =
      (lineFinds absolute dirAt 3 line).foldl collect list := by
  rw [cfgLine, lineFinds]
  split_ifs
  · rfl
  · rw [recurseCfgDir, dirFinds]
    split_ifs
    · exact recurseLoop_eq le_rfl _ list _
    · rfl
  · rfl

private theorem foldl_cfgLine (list lines : List (List Char)) :
    (lines.map (rdropWhile isLineSpace)).foldl (cfgLine absolute dirAt) list =
      (cfgFinds absolute dirAt 3 lines).foldl collect list := by
  induction lines generalizing list with
  | nil => rfl
  | cons line lines ih =>
    rw [map_cons, foldl_cons, cfgLine_eq, ih, cfgFinds, cfgFinds, flatMap_cons, foldl_append]

private theorem foldl_collect_sublist (list : List (List Char)) (all : List Find) :
    (all.foldl collect list).Sublist ((foundPaths all).reverse ++ list) := by
  induction all generalizing list with
  | nil => exact Sublist.refl list
  | cons find all ih =>
    cases find with
    | found path => simpa [foundPaths, collect] using ih (path :: list)
    | failed => exact (ih []).trans (by simp [foundPaths])

private theorem length_foldl_collect_iff (list : List (List Char)) (all : List Find) :
    (all.foldl collect list).length = (foundPaths all).length + list.length ↔
      all.Pairwise (fun early late => late = .failed → early = .failed) ∧
        (.failed ∈ all → list = []) := by
  induction all generalizing list with
  | nil => simp [foundPaths]
  | cons find all ih =>
    rw [foldl_cons, pairwise_cons]
    cases find with
    | found path =>
      have rest := ih (path :: list)
      rw [length_cons, ← Nat.add_assoc] at rest
      rw [collect, foundPaths, length_cons, Nat.add_right_comm, rest]
      have noneFails : (∀ late ∈ all, ¬ late = .failed) ↔ .failed ∉ all :=
        ⟨fun opened member => opened _ member rfl,
          fun absent _ member same => absent (same ▸ member)⟩
      simp only [mem_cons, reduceCtorEq, false_or, imp_false, noneFails]
      tauto
    | failed =>
      have rest := ih []
      have fewer := (foldl_collect_sublist [] all).length_le
      rw [append_nil, length_reverse] at fewer
      rw [length_nil] at rest
      rw [collect, foundPaths, ← length_eq_zero_iff (l := list)]
      simp only [implies_true, and_true, mem_cons, true_or, forall_const] at rest ⊢
      rw [true_and, ← rest]
      omega

private theorem foundPaths_append (front rest : List Find) :
    foundPaths (front ++ rest) = foundPaths front ++ foundPaths rest := by
  induction front using foundPaths.induct with
  | case1 => rfl
  | case2 path front ih => rw [cons_append, foundPaths, foundPaths, ih, cons_append]
  | case3 front ih => rw [cons_append, foundPaths, foundPaths, ih]

private theorem foundPaths_finds_sublist (levels : Nat) (wd : List Char) (entries : Listing) :
    (foundPaths (finds levels wd entries)).Sublist
      (foundPaths (finds (levels + 1) wd entries)) := by
  induction entries generalizing levels wd with
  | done => exact Sublist.refl _
  | regular name rest ih =>
    rw [finds, finds, foundPaths_append, foundPaths_append]
    exact (ih levels wd).append_left _
  | special name rest ih =>
    rw [finds, finds]
    exact ih levels wd
  | directory name opens entries rest ihEntries ihRest =>
    cases levels with
    | zero =>
      rw [finds, finds, foundPaths_append]
      exact (ihRest 0 wd).trans (sublist_append_right _ _)
    | succ levels =>
      rw [finds, finds, foundPaths_append, foundPaths_append]
      apply Sublist.append _ (ihRest (levels + 1) wd)
      cases opens with
      | false => exact Sublist.refl _
      | true => exact ihEntries levels _

private theorem foundPaths_cfgFinds_sublist (lines : List (List Char)) :
    (foundPaths (cfgFinds absolute dirAt 3 lines)).Sublist
      (foundPaths (cfgFinds absolute dirAt 4 lines)) := by
  induction lines with
  | nil => exact Sublist.refl _
  | cons line lines ih =>
    rw [cfgFinds, cfgFinds, flatMap_cons, flatMap_cons, foundPaths_append, foundPaths_append]
    apply Sublist.append _ ih
    rw [lineFinds, lineFinds]
    split_ifs
    · exact Sublist.refl _
    · rw [dirFinds, dirFinds]
      split_ifs
      · exact foundPaths_finds_sublist 2 _ _
      · exact Sublist.refl _
    · exact Sublist.refl _

variable {absolute dirAt} in
/-- The first line is not blank, no directory fails to open after a file was found, and
there are no files on the fourth level. -/
theorem getCfgFiles_complete_iff (lines : List (List Char)) :
    (∃ files, getCfgFiles absolute dirAt lines = some files ∧
        files.Perm (foundPaths (cfgFinds absolute dirAt 4 lines))) ↔
      lines.head?.any (fun line => line.all isLineSpace) = false ∧
        (cfgFinds absolute dirAt 3 lines).Pairwise
          (fun early late => late = .failed → early = .failed) ∧
        foundPaths (cfgFinds absolute dirAt 3 lines) =
          foundPaths (cfgFinds absolute dirAt 4 lines) := by
  rw [getCfgFiles, readStripSplit]
  split_ifs with blank
  · simp [blank]
  · have isList := foldl_collect_sublist [] (cfgFinds absolute dirAt 3 lines)
    have isLength := length_foldl_collect_iff [] (cfgFinds absolute dirAt 3 lines)
    have deeper := foundPaths_cfgFinds_sublist absolute dirAt lines
    rw [append_nil] at isList
    rw [length_nil, Nat.add_zero, and_iff_left fun _ => rfl] at isLength
    rw [Option.map_some, foldl_cfgLine, ← isLength]
    constructor
    · rintro ⟨files, isFiles, perm⟩
      cases isFiles
      have fewer := isList.length_le
      have fewerDeeper := deeper.length_le
      have same := perm.length_eq
      rw [length_reverse] at fewer
      exact ⟨Bool.eq_false_iff.mpr blank, by omega, deeper.eq_of_length (by omega)⟩
    · rintro ⟨-, whole, same⟩
      refine ⟨_, rfl, ?_⟩
      rw [isList.eq_of_length (by rw [whole, length_reverse]), ← same]
      exact reverse_perm _

theorem getCfgFiles_unopened :
    getCfgFiles id (fun _ => ⟨false, .done⟩) ["cfg_file=a".toList, "cfg_dir=b".toList] = some [] ∧
      foundPaths (cfgFinds id (fun _ => ⟨false, .done⟩) 4
        ["cfg_file=a".toList, "cfg_dir=b".toList]) = [['a']] := by
  decide

end MonitorMerlin
