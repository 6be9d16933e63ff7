import MonitorMerlin.Library.Block
import MonitorMerlin.Library.Run
import MonitorMerlin.Module.AutoDelete

/-! # The list of the pollers that are deleted -/

namespace MonitorMerlin

open ByteImage List

universe u

def autoDeleteBufferSize : Nat := 1024

structure DeleteBuffer where
  bytes : Bytes
  size : bytes.length = autoDeleteBufferSize

structure DeleteList where
  buf : Bytes
  offset : Nat
  deriving DecidableEq, Repr

def blank : UInt8 := 32

def appendName (list : DeleteList) (name : Bytes) : Option DeleteList :=
  let text := name ++ [blank]
  if text.length < 2 ^ 31 then
    (store list.buf list.offset (text.take (autoDeleteBufferSize - 1) ++ [0])).map fun buf =>
      ⟨buf, list.offset + text.length⟩
  else
    none

def commandText (text : String) : Bytes := text.toList.map Char.toUInt8

/-- `auto_delete_node_cmd`. -/
def autoDeleteNodeCmd (nodesToDelete : Bytes) : Option Bytes :=
  let cmd := commandText "mon node remove " ++ nodesToDelete ++ commandText " && sudo mon restart"
  if cmd.length < autoDeleteBufferSize then some cmd else none

structure AutoDeleteRun where
  given : Option Bytes
  cmd : Option Bytes
  deriving DecidableEq, Repr

/-- `auto_delete_nodes`, for the chosen names. -/
def deleteNames (buf : DeleteBuffer) (names : List Bytes) : Option AutoDeleteRun :=
  (Run.run appendName ⟨buf.bytes, 0⟩ names).bind fun list =>
    if names = [] then
      some ⟨none, none⟩
    else
      (cstring list.buf).map fun given => ⟨some given, autoDeleteNodeCmd given⟩

/-- `auto_delete_nodes`. -/
def autoDeleteNodes {ι : Type u} [DecidableEq ι] {config : ModuleConfig ι}
    (deletion : Deletion config) (module : ModuleState ι) (seen : Seen ι) (buf : DeleteBuffer) :
    Option AutoDeleteRun :=
  deleteNames buf ((deletion.autoDeleted module seen).map deletion.name)

def listText (names : List Bytes) : Bytes := names.flatMap (· ++ [blank])

def BuildsSafely (run : Option AutoDeleteRun) (names : List Bytes) : Prop :=
  ∃ result, run = some result ∧ (result.cmd = none ∨ result.given = some (listText names))

def ListFits (names : List Bytes) : Prop :=
  (listText names).length < autoDeleteBufferSize ∨
    names.length = 1 ∧ (listText names).length < 2 ^ 31

section Append

variable {buf front rest name : Bytes} {names : List Bytes}

theorem length_blank (name : Bytes) : (name ++ [blank]).length = name.length + 1 := length_append

theorem length_cut (tooLong : autoDeleteBufferSize ≤ name.length + 1) :
    ((name ++ [blank]).take (autoDeleteBufferSize - 1)).length = autoDeleteBufferSize - 1 := by
  rw [length_take, length_blank]
  exact Nat.min_eq_left (by omega)

theorem listText_cons (name : Bytes) (names : List Bytes) :
    listText (name :: names) = name ++ [blank] ++ listText names := flatMap_cons

theorem length_listText_cons (name : Bytes) (names : List Bytes) :
    (listText (name :: names)).length = name.length + 1 + (listText names).length := by
  rw [listText_cons, length_append, length_blank]

theorem zero_notMem_listText (noTerminator : ∀ name ∈ names, 0 ∉ name) : 0 ∉ listText names := by
  intro member
  obtain ⟨name, isName, inName⟩ := mem_flatMap.mp member
  rcases mem_append.mp inName with within | isBlank
  · exact noTerminator name isName within
  · exact absurd (mem_singleton.mp isBlank) (by decide)

theorem appendName_of_fits (front name : Bytes)
    (size : (front ++ rest).length = autoDeleteBufferSize)
    (fits : front.length + (name.length + 1) < autoDeleteBufferSize) :
    ∃ more, appendName ⟨front ++ rest, front.length⟩ name =
        some ⟨front ++ (name ++ [blank]) ++ 0 :: more, (front ++ (name ++ [blank])).length⟩ ∧
      (front ++ (name ++ [blank]) ++ 0 :: more).length = autoDeleteBufferSize := by
  have isLength := length_blank name
  have isData : (name ++ [blank] ++ [0]).length = name.length + 2 := by
    rw [length_append, isLength, length_singleton]
  rw [length_append] at size
  have whole : (name ++ [blank]).take (autoDeleteBufferSize - 1) = name ++ [blank] :=
    take_of_length_le (by omega)
  have short : (name ++ [blank]).length < 2 ^ 31 := by
    rw [autoDeleteBufferSize] at fits
    omega
  have split := take_append_drop (name ++ [blank] ++ [0]).length rest
  refine ⟨rest.drop (name ++ [blank] ++ [0]).length, ?_, ?_⟩
  · rw [appendName, if_pos short, whole]
    dsimp only
    rw [← split, ← append_assoc front, store_append front _ (by
      rw [length_take]
      omega), Option.map_some, split]
    simp only [append_assoc, length_append, cons_append, nil_append]
  · rw [length_append, length_append, length_cons, length_drop]
    omega

theorem appendName_of_not_fits {offset : Nat} (size : buf.length = autoDeleteBufferSize)
    (behind : offset ≠ 0) (tooLong : autoDeleteBufferSize ≤ offset + (name.length + 1)) :
    appendName ⟨buf, offset⟩ name = none := by
  have isLength := length_blank name
  rw [appendName]
  split
  · rw [store, if_neg, Option.map_none]
    dsimp only
    rw [length_append, length_take, length_singleton, size]
    omega
  · rfl

theorem run_appendName_of_fits (names : List Bytes)
    (size : (front ++ 0 :: rest).length = autoDeleteBufferSize)
    (fits : front.length + (listText names).length < autoDeleteBufferSize) :
    ∃ more offset, Run.run appendName ⟨front ++ 0 :: rest, front.length⟩ names =
      some ⟨front ++ listText names ++ 0 :: more, offset⟩ := by
  induction names generalizing front rest with
  | nil =>
    refine ⟨rest, front.length, ?_⟩
    rw [listText, flatMap_nil, append_nil]
    rfl
  | cons name names appended =>
    rw [length_listText_cons] at fits
    obtain ⟨more, isNext, nextSize⟩ := appendName_of_fits front name size (by omega)
    have nextFits : (front ++ (name ++ [blank])).length + (listText names).length <
        autoDeleteBufferSize := by
      rw [length_append, length_blank]
      omega
    rw [Run.run_cons_of_step isNext, listText_cons, ← append_assoc front (name ++ [blank])]
    exact appended nextSize nextFits

theorem run_appendName_of_not_fits (size : (front ++ 0 :: rest).length = autoDeleteBufferSize)
    (behind : front ≠ [])
    (tooLong : autoDeleteBufferSize ≤ front.length + (listText names).length) :
    Run.run appendName ⟨front ++ 0 :: rest, front.length⟩ names = none := by
  have started := length_pos_iff.mpr behind
  induction names generalizing front rest with
  | nil =>
    rw [listText, flatMap_nil, length_nil] at tooLong
    rw [length_append, length_cons] at size
    omega
  | cons name names failed =>
    rw [length_listText_cons] at tooLong
    by_cases fits : front.length + (name.length + 1) < autoDeleteBufferSize
    · obtain ⟨more, isNext, nextSize⟩ := appendName_of_fits front name size fits
      have isLength : (front ++ (name ++ [blank])).length = front.length + (name.length + 1) := by
        rw [length_append, length_blank]
      rw [Run.run_cons_of_step isNext]
      exact failed nextSize (append_ne_nil_of_left_ne_nil behind _) (by omega) (by omega)
    · rw [Run.run, appendName_of_not_fits size (by omega) (by omega)]
      rfl

theorem appendName_cut (size : buf.length = autoDeleteBufferSize)
    (tooLong : autoDeleteBufferSize ≤ name.length + 1) (short : name.length + 1 < 2 ^ 31) :
    appendName ⟨buf, 0⟩ name =
      some ⟨(name ++ [blank]).take (autoDeleteBufferSize - 1) ++ [0], name.length + 1⟩ := by
  have isLength := length_blank name
  have isData : ((name ++ [blank]).take (autoDeleteBufferSize - 1) ++ [0]).length =
      autoDeleteBufferSize := by
    rw [length_append, length_cut tooLong]
    rfl
  rw [appendName, if_pos (by omega), store_eq (by dsimp only; omega), Option.map_some, patch]
  dsimp only
  rw [take_zero, nil_append, Nat.zero_add, isData, ← size, drop_length,
    append_nil, Nat.zero_add, isLength, size]

end Append

section Safe

variable {names : List Bytes}

theorem buildsSafely_nil (buf : DeleteBuffer) : BuildsSafely (deleteNames buf []) [] :=
  ⟨⟨none, none⟩, rfl, .inl rfl⟩

variable {buf : DeleteBuffer} {name : Bytes}

theorem deleteNames_cut (buf : DeleteBuffer) (noTerminator : 0 ∉ name)
    (tooLong : autoDeleteBufferSize ≤ name.length + 1) (short : name.length + 1 < 2 ^ 31) :
    BuildsSafely (deleteNames buf [name]) [name] := by
  have isCut := length_cut tooLong
  have clean : 0 ∉ (name ++ [blank]).take (autoDeleteBufferSize - 1) := by
    intro member
    rcases mem_append.mp (mem_of_mem_take member) with within | isBlank
    · exact noTerminator within
    · exact absurd (mem_singleton.mp isBlank) (by decide)
  generalize isGiven : (name ++ [blank]).take (autoDeleteBufferSize - 1) = given at isCut clean
  have noCommand : autoDeleteNodeCmd given = none := by
    rw [autoDeleteNodeCmd, if_neg]
    rw [length_append, length_append, isCut]
    decide
  refine ⟨⟨some given, none⟩, ?_, .inl rfl⟩
  rw [deleteNames, Run.run, appendName_cut buf.size tooLong short, isGiven, Option.bind_some,
    Run.run, Option.bind_some, if_neg (cons_ne_nil _ _), cstring_append clean,
    Option.map_some, noCommand]

theorem appendName_first (buf : DeleteBuffer) (fits : name.length + 1 < autoDeleteBufferSize) :
    ∃ more, appendName ⟨buf.bytes, 0⟩ name =
        some ⟨name ++ [blank] ++ 0 :: more, (name ++ [blank]).length⟩ ∧
      (name ++ [blank] ++ 0 :: more).length = autoDeleteBufferSize :=
  appendName_of_fits [] name buf.size (by rw [length_nil]; omega)

theorem buildsSafely_of_fits (buf : DeleteBuffer) (noTerminator : ∀ name ∈ names, 0 ∉ name)
    (fits : (listText names).length < autoDeleteBufferSize) :
    BuildsSafely (deleteNames buf names) names := by
  cases names with
  | nil => exact buildsSafely_nil buf
  | cons name names =>
    have isLength := length_blank name
    have isTotal := length_listText_cons name names
    obtain ⟨more, isNext, nextSize⟩ := appendName_first buf (by omega : name.length + 1 < _)
    obtain ⟨rest, offset, isRun⟩ := run_appendName_of_fits names nextSize (by omega)
    rw [← listText_cons] at isRun
    refine ⟨⟨some (listText (name :: names)), autoDeleteNodeCmd (listText (name :: names))⟩, ?_,
      .inr rfl⟩
    rw [deleteNames, (Run.run_cons_of_step isNext).trans isRun, Option.bind_some,
      if_neg (cons_ne_nil _ _), cstring_append (zero_notMem_listText noTerminator),
      Option.map_some]

theorem buildsSafely_of_listFits (buf : DeleteBuffer) (noTerminator : ∀ name ∈ names, 0 ∉ name)
    (fits : ListFits names) : BuildsSafely (deleteNames buf names) names := by
  rcases fits with fits | ⟨single, short⟩
  · exact buildsSafely_of_fits buf noTerminator fits
  · obtain ⟨name, rfl⟩ := length_eq_one_iff.mp single
    have isTotal : (listText [name]).length = name.length + 1 := length_listText_cons name []
    by_cases firstFits : name.length + 1 < autoDeleteBufferSize
    · exact buildsSafely_of_fits buf noTerminator (by omega)
    · exact deleteNames_cut buf (noTerminator name mem_cons_self) (by omega) (by omega)

theorem run_appendName_eq_none (buf : DeleteBuffer) (tooLong : ¬ListFits names) :
    Run.run appendName ⟨buf.bytes, 0⟩ names = none := by
  obtain ⟨tooLong, several⟩ := not_or.mp tooLong
  cases names with
  | nil => exact absurd (by decide) tooLong
  | cons name names =>
    have isLength := length_blank name
    have isTotal := length_listText_cons name names
    by_cases firstFits : name.length + 1 < autoDeleteBufferSize
    · obtain ⟨more, isNext, nextSize⟩ := appendName_first buf firstFits
      rw [Run.run_cons_of_step isNext]
      exact run_appendName_of_not_fits nextSize (append_ne_nil_of_right_ne_nil _
        (cons_ne_nil _ _)) (by omega)
    by_cases short : name.length + 1 < 2 ^ 31
    · cases names with
      | nil => exact absurd ⟨rfl, isTotal ▸ short⟩ several
      | cons second names =>
        have size : ((name ++ [blank]).take (autoDeleteBufferSize - 1) ++ [0]).length =
            autoDeleteBufferSize := by
          rw [length_append, length_cut (not_lt.mp firstFits)]
          rfl
        rw [Run.run_cons_of_step (appendName_cut buf.size (by omega) short), Run.run,
          appendName_of_not_fits size (by omega) (by omega)]
        rfl
    · rw [Run.run, appendName, if_neg (isLength ▸ short)]
      rfl

theorem deleteNames_defined_iff (buf : DeleteBuffer) (noTerminator : ∀ name ∈ names, 0 ∉ name) :
    (∃ result, deleteNames buf names = some result) ↔ ListFits names := by
  constructor
  · rintro ⟨result, isResult⟩
    by_contra tooLong
    rw [deleteNames, run_appendName_eq_none buf tooLong] at isResult
    cases isResult
  · intro fits
    obtain ⟨result, isResult, -⟩ := buildsSafely_of_listFits buf noTerminator fits
    exact ⟨result, isResult⟩

theorem buildsSafely_iff (buf : DeleteBuffer) (noTerminator : ∀ name ∈ names, 0 ∉ name) :
    BuildsSafely (deleteNames buf names) names ↔ ListFits names := by
  constructor
  · intro ⟨result, isResult, _⟩
    exact (deleteNames_defined_iff buf noTerminator).mp ⟨result, isResult⟩
  · exact buildsSafely_of_listFits buf noTerminator

end Safe

section Run

variable {ι : Type u} [DecidableEq ι] {config : ModuleConfig ι}

/-- `auto_delete_nodes` stays inside of its buffer and gives complete names to its command
exactly if the names of the nodes it chooses fit or it chooses a single node. -/
theorem autoDeleteNodes_buildsSafely_iff (deletion : Deletion config) (module : ModuleState ι)
    (seen : Seen ι) (buf : DeleteBuffer) :
    BuildsSafely (autoDeleteNodes deletion module seen buf)
        ((deletion.autoDeleted module seen).map deletion.name) ↔
      ListFits ((deletion.autoDeleted module seen).map deletion.name) := by
  apply buildsSafely_iff buf
  intro name isName
  obtain ⟨node, _, rfl⟩ := mem_map.mp isName
  exact deletion.noTerminator node

end Run

def longNames : Deletion pollerPair :=
  { pollerPairDeletion 10 with
    name := fun _ => List.replicate 600 112
    noTerminator := fun _ member => absurd (eq_of_mem_replicate member) (by decide) }

theorem not_buildsSafely_longNames :
    ¬BuildsSafely
      (autoDeleteNodes longNames pollerPairModule ⟨100, 50, fun _ => 85⟩
        ⟨List.replicate 1024 0, length_replicate⟩)
      ((longNames.autoDeleted pollerPairModule ⟨100, 50, fun _ => 85⟩).map longNames.name) := by
  have chosen : longNames.autoDeleted pollerPairModule ⟨100, 50, fun _ => 85⟩ = [1, 2] := by
    decide
  rw [autoDeleteNodes, chosen]
  generalize DeleteBuffer.mk (replicate 1024 0) length_replicate = buf
  have clean : ∀ name ∈ [1, 2].map longNames.name, 0 ∉ name := by
    intro name isName
    obtain ⟨node, _, rfl⟩ := mem_map.mp isName
    exact longNames.noTerminator node
  rw [buildsSafely_iff buf clean]
  have long : ∀ node, (longNames.name node).length = 600 := fun _ => length_replicate
  rintro (fits | ⟨single, -⟩)
  · rw [map_cons, map_cons, length_listText_cons, length_listText_cons, long, long,
      autoDeleteBufferSize] at fits
    omega
  · cases single

end MonitorMerlin
