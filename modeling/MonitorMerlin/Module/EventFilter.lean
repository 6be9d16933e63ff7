import Mathlib.Data.BitVec
import Mathlib.Data.List.Basic

/-! # Event filters -/

namespace MonitorMerlin

open List

def callbackList : List (List Char) :=
  ["PROCESS", "TIMED_EVENT", "LOG", "SYSTEM_COMMAND", "EVENT_HANDLER", "NOTIFICATION",
    "SERVICE_CHECK", "HOST_CHECK", "COMMENT", "DOWNTIME", "FLAPPING", "PROGRAM_STATUS",
    "HOST_STATUS", "SERVICE_STATUS", "ADAPTIVE_PROGRAM", "ADAPTIVE_HOST", "ADAPTIVE_SERVICE",
    "EXTERNAL_COMMAND", "AGGREGATED_STATUS", "RETENTION", "CONTACT_NOTIFICATION",
    "CONTACT_NOTIFICATION_METHOD", "ACKNOWLEDGEMENT", "STATE_CHANGE", "CONTACT_STATUS",
    "ADAPTIVE_CONTACT"].map String.toList

structure FilterResult where
  code : Int
  evtMask : Option (BitVec 32)
  deriving DecidableEq

variable (id : List Char → Nat)

/-- `callback_id`. -/
def callbackId (origName : List Char) : Option (Option Nat) :=
  if 100 < origName.length then some none
  else if origName.length = 100 then none
  else if callbackList.contains (origName.map Char.toUpper) then
    some (some (id (origName.map Char.toUpper)))
  else some none

/-- What `parse_event_filter` does with a name. -/
def filterName (str : List Char) : Option (FilterResult ⊕ Nat) :=
  if str = ['a', 'l', 'l'] then
    some (.inl ⟨-1, some (.allOnes 32)⟩)
  else
    (callbackId id str).map fun code => match code with
      | some code => if code < 32 then .inr code else .inl ⟨-1, none⟩
      | none => .inl ⟨-1, none⟩

def filterLoop : BitVec 32 → List (List Char) → Option FilterResult
  | _, [] => none
  | mask, piece :: pieces =>
    if piece.dropWhile (· == ' ') = [] then
      filterLoop mask pieces
    else
      match filterName id (piece.dropWhile (· == ' ')) with
      | none => none
      | some (.inl result) => some result
      | some (.inr code) =>
        if pieces = [] then
          some ⟨0, some (mask ||| .twoPow 32 code)⟩
        else
          filterLoop (mask ||| .twoPow 32 code) pieces

/-- `parse_event_filter`. -/
def parseEventFilter (origStr : List Char) : Option FilterResult :=
  if origStr = [] then some ⟨-1, none⟩ else filterLoop id 0 (origStr.splitOn ',')

def Accepted (name : List Char) : Prop :=
  name.map Char.toUpper ∈ callbackList ∧ id (name.map Char.toUpper) < 32

instance (name : List Char) : Decidable (Accepted id name) := inferInstanceAs (Decidable (_ ∧ _))

def filterNames (pieces : List (List Char)) : List (List Char) :=
  (pieces.map fun piece => piece.dropWhile (· == ' ')).filter (· ≠ [])

def nameMask (mask : BitVec 32) (names : List (List Char)) : BitVec 32 :=
  names.foldl (fun mask name => mask ||| .twoPow 32 (id (name.map Char.toUpper))) mask

variable {id}

theorem getLsbD_nameMask {mask : BitVec 32} {names : List (List Char)} {i : Nat} (bit : i < 32) :
    (nameMask id mask names).getLsbD i = true ↔
      mask.getLsbD i = true ∨ ∃ name ∈ names, id (name.map Char.toUpper) = i := by
  induction names generalizing mask with
  | nil => simp [nameMask]
  | cons name names ih =>
    rw [nameMask, foldl_cons, ← nameMask, ih, BitVec.getLsbD_or, BitVec.getLsbD_twoPow]
    have inside : id (name.map Char.toUpper) < 32 ∧ id (name.map Char.toUpper) = i ↔
        id (name.map Char.toUpper) = i :=
      and_iff_right_of_imp fun same => same ▸ bit
    simp [bit, or_assoc, inside]

theorem filterName_of_accepted {name : List Char} (accepted : Accepted id name) :
    filterName id name = some (.inr (id (name.map Char.toUpper))) := by
  have short : (name.map Char.toUpper).length < 100 :=
    (by decide : ∀ listed ∈ callbackList, listed.length < 100) _ accepted.1
  have notAll : name ≠ ['a', 'l', 'l'] := by
    rintro rfl
    exact absurd accepted.1 (by decide)
  rw [length_map] at short
  rw [filterName, if_neg notAll, callbackId, if_neg (by omega), if_neg (by omega),
    if_pos (contains_iff_mem.mpr accepted.1)]
  simp [accepted.2]

theorem filterName_of_refused {name : List Char} (refused : ¬ Accepted id name) :
    filterName id name = none ∧ name.length = 100 ∨
      name.length ≠ 100 ∧ ∃ result, filterName id name = some (.inl result) := by
  rw [filterName]
  split_ifs with isAll
  · exact .inr ⟨by simp [isAll], _, rfl⟩
  · rw [callbackId]
    split_ifs with long whole listed
    · exact .inr ⟨by omega, _, rfl⟩
    · exact .inl ⟨rfl, whole⟩
    · have large : ¬ id (name.map Char.toUpper) < 32 :=
        fun small => refused ⟨contains_iff_mem.mp listed, small⟩
      refine .inr ⟨whole, ⟨-1, none⟩, ?_⟩
      simp [large]
    · exact .inr ⟨whole, _, rfl⟩

theorem filterLoop_blank {mask : BitVec 32} {piece : List Char} {pieces : List (List Char)}
    (blank : piece.dropWhile (· == ' ') = []) :
    filterLoop id mask (piece :: pieces) = filterLoop id mask pieces ∧
      filterNames (piece :: pieces) = filterNames pieces := by
  rw [filterLoop, if_pos blank]
  simp [filterNames, blank]

theorem filterNames_cons {piece : List Char} {pieces : List (List Char)}
    (named : piece.dropWhile (· == ' ') ≠ []) :
    filterNames (piece :: pieces) = piece.dropWhile (· == ' ') :: filterNames pieces := by
  simp [filterNames, named]

theorem filterLoop_refused {mask : BitVec 32} {pieces : List (List Char)} {name : List Char}
    (first : (filterNames pieces).find? (¬ Accepted id ·) = some name) :
    filterLoop id mask pieces = none ↔ name.length = 100 := by
  induction pieces generalizing mask with
  | nil => cases first
  | cons piece pieces ih =>
    by_cases blank : piece.dropWhile (· == ' ') = []
    · obtain ⟨skipped, sameNames⟩ := @filterLoop_blank id mask piece pieces blank
      rw [skipped]
      exact ih (sameNames ▸ first)
    · rw [filterNames_cons blank] at first
      rw [filterLoop, if_neg blank]
      by_cases accepted : Accepted id (piece.dropWhile (· == ' '))
      · rw [find?_cons_of_neg (by simpa using accepted)] at first
        have more : pieces ≠ [] := by
          rintro rfl
          cases first
        rw [filterName_of_accepted accepted]
        simp only [if_neg more]
        exact ih first
      · rw [find?_cons_of_pos (by simpa using accepted)] at first
        cases first
        rcases filterName_of_refused accepted with ⟨isNone, whole⟩ | ⟨short, result, isSome⟩
        · simp [isNone, whole]
        · simp [isSome, short]

theorem filterLoop_accepted {mask : BitVec 32} {pieces : List (List Char)}
    (accepted : ∀ name ∈ filterNames pieces, Accepted id name) :
    filterLoop id mask pieces =
      if pieces.getLast?.any (fun piece => piece.dropWhile (· == ' ') ≠ []) then
        some ⟨0, some (nameMask id mask (filterNames pieces))⟩
      else
        none := by
  induction pieces generalizing mask with
  | nil => rfl
  | cons piece pieces ih =>
    by_cases blank : piece.dropWhile (· == ' ') = []
    · obtain ⟨skipped, sameNames⟩ := @filterLoop_blank id mask piece pieces blank
      rw [skipped, sameNames, ih (sameNames ▸ accepted)]
      cases pieces with
      | nil =>
        simp only [getLast?_singleton, Option.any_some, blank, ne_eq, not_true_eq_false,
          decide_false]
        rfl
      | cons next pieces => rw [getLast?_cons_cons]
    · rw [filterNames_cons blank] at accepted ⊢
      rw [filterLoop, if_neg blank, filterName_of_accepted (accepted _ mem_cons_self)]
      cases pieces with
      | nil =>
        simp only [getLast?_singleton, Option.any_some, blank, ne_eq, not_false_eq_true,
          decide_true]
        rfl
      | cons next pieces =>
        simp only [if_neg (cons_ne_nil next pieces)]
        rw [ih fun name member => accepted name (mem_cons_of_mem _ member), getLast?_cons_cons]
        rfl

variable (id) in
structure ValidFilter (origStr : List Char) (names : List (List Char)) : Prop where
  named : ∀ name ∈ names, name ≠ []
  accepted : ∀ name ∈ names, Accepted id name
  pieces : ∃ commas, (origStr.splitOn ',').map (fun piece => piece.dropWhile (· == ' ')) =
    names ++ replicate commas []

variable (id) in
def FilterRight (origStr : List Char) : Prop :=
  ∃ result, parseEventFilter id origStr = some result ∧
    ∀ names, ValidFilter id origStr names → result.code = 0 ∧
      ∃ mask, result.evtMask = some mask ∧
        ∀ i < 32, (mask.getLsbD i = true ↔ ∃ name ∈ names, id (name.map Char.toUpper) = i)

theorem ValidFilter.filterNames_eq {origStr : List Char} {names : List (List Char)}
    (valid : ValidFilter id origStr names) : filterNames (origStr.splitOn ',') = names := by
  obtain ⟨commas, isPieces⟩ := valid.pieces
  rw [filterNames, isPieces, filter_append, filter_eq_self.mpr (by simpa using valid.named),
    filter_eq_nil_iff.mpr (by simp), append_nil]

theorem filterRight_iff_ne_none {origStr : List Char} (given : origStr ≠ []) :
    FilterRight id origStr ↔ filterLoop id 0 (origStr.splitOn ',') ≠ none := by
  rw [FilterRight, parseEventFilter, if_neg given]
  constructor
  · rintro ⟨result, ran, -⟩ isNone
    rw [isNone] at ran
    cases ran
  · intro isSome
    obtain ⟨result, ran⟩ := Option.ne_none_iff_exists'.mp isSome
    refine ⟨result, ran, fun names valid => ?_⟩
    have accepted : ∀ name ∈ filterNames (origStr.splitOn ','), Accepted id name :=
      valid.filterNames_eq ▸ valid.accepted
    rw [filterLoop_accepted accepted, valid.filterNames_eq] at ran
    split_ifs at ran
    cases ran
    refine ⟨rfl, _, rfl, fun i bit => ?_⟩
    rw [getLsbD_nameMask bit]
    simp

/-- The name of the first unknown event must not have 100 characters.  When all events
are known, there must be one behind the last comma. -/
theorem filterRight_iff {origStr : List Char} (given : origStr ≠ []) :
    FilterRight id origStr ↔
      ((filterNames (origStr.splitOn ',')).find? (¬ Accepted id ·)).elim
        ((origStr.splitOn ',').getLast?.any (fun piece => piece.dropWhile (· == ' ') ≠ []) = true)
        fun name => name.length ≠ 100 := by
  rw [filterRight_iff_ne_none given]
  cases first : (filterNames (origStr.splitOn ',')).find? (¬ Accepted id ·) with
  | none =>
    rw [filterLoop_accepted (by simpa using first)]
    simp
  | some name => exact not_congr (filterLoop_refused first)

theorem filterRight_hostCheck :
    FilterRight (fun _ => 14) "host_check, HOST_CHECK".toList := by
  have known : (filterNames ("host_check, HOST_CHECK".toList.splitOn ',')).find?
      (¬ Accepted (fun _ => 14) ·) = none := by
    decide
  rw [filterRight_iff (by decide), known, Option.elim_none]
  decide

theorem not_filterRight_comma : ¬ FilterRight (fun _ => 14) "HOST_CHECK,".toList := by
  rintro ⟨result, ran, -⟩
  have leaves : parseEventFilter (fun _ => 14) "HOST_CHECK,".toList = none := by decide
  cases leaves.symm.trans ran

end MonitorMerlin
