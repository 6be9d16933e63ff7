import MonitorMerlin.Daemon.State
import MonitorMerlin.Library.MachineInt
import MonitorMerlin.Tools.Auth
import MonitorMerlin.Tools.Rename

/-! # Lines of a log -/

namespace MonitorMerlin

open List

def nul : Char := '\x00'

def cstr (text : List Char) : List Char := text.takeWhile (· != nul)

def isSpace (char : Char) : Bool := char == ' ' || ('\t' ≤ char && char ≤ '\r')

def signOf : List Char → Bool × List Char
  | '-' :: text => (true, text)
  | '+' :: text => (false, text)
  | text => (false, text)

/-- `strtoul`, with the text behind. -/
def strtoul (text : List Char) : Option (Int × List Char) :=
  let (negative, text) := signOf (text.dropWhile isSpace)
  let digits := text.takeWhile Char.isDigit
  let value : Nat := digits.foldl (fun value digit => value * 10 + (digit.toNat - 48)) 0
  if digits = [] then none
  else
    let result :=
      if 2 ^ 64 ≤ value then 2 ^ 64 - 1
      else if negative then (2 ^ 64 - value) % 2 ^ 64
      else value
    some (MachineInt.toInt64 result, text.drop digits.length)

inductive LineStart where
  | bogus
  | untimed
  | timed (ltime : Int) (text : List Char)
  deriving DecidableEq, Repr

/-- `strtotimet`, with the text behind. -/
def lineStart (line : List Char) : LineStart :=
  if line.length < 12 ∨ line.head? ≠ some '[' then .bogus
  else
    match strtoul line.tail with
    | none => .untimed
    | some (ltime, text) => .timed ltime (text.dropWhile fun char => char == ']' || char == ' ')

theorem signOf_suffix (text : List Char) : (signOf text).2 <:+ text := by
  unfold signOf
  split
  · exact suffix_cons _ _
  · exact suffix_cons _ _
  · exact suffix_refl _

theorem strtoul_suffix {text rest : List Char} {value : Int}
    (result : strtoul text = some (value, rest)) : rest <:+ text := by
  simp only [strtoul] at result
  split at result
  · cases result
  · cases result
    exact (drop_suffix _ _).trans ((signOf_suffix _).trans (dropWhile_suffix _))

theorem lineStart_suffix {line text : List Char} {ltime : Int}
    (timed : lineStart line = .timed ltime text) : text <:+ line := by
  unfold lineStart at timed
  split at timed
  · cases timed
  · split at timed
    · cases timed
    · rename_i result
      cases timed
      exact (dropWhile_suffix _).trans ((strtoul_suffix result).trans (tail_suffix _))

/-- `struct string_code`. -/
structure StringCode (κ : Type) where
  nvecs : Nat
  str : String
  code : κ
  deriving DecidableEq, Repr

/-- `get_string_code`. -/
def getStringCode {κ : Type} (codes : List (StringCode κ)) (str : List Char) :
    Option (StringCode κ) :=
  codes.find? fun code => code.str.toList == str

def startsWith (text : List Char) (start : String) : Bool := start.toList.isPrefixOf text

def strstr (text : List Char) (part : String) : Bool := text.tails.any (startsWith · part)

/-- `is_interesting`. -/
def isInteresting (text : List Char) : Bool :=
  ["Auto-save of retention data", "Event broker module", "You do not have permission",
    "Local time is"].all fun start => !startsWith text start

/-- `is_start_event`. -/
def isStartEvent (text : List Char) : Bool :=
  startsWith text "Finished daemonizing..." || startsWith text "Caught SIGHUP" ||
    strstr text "starting..."

/-- `is_stop_event`. -/
def isStopEvent (text : List Char) : Bool :=
  ["PROGRAM_RESTART", "Caught SIGTERM", "Successfully shutdown...", "Bailing out",
    "Lockfile"].any (startsWith text) || strstr text "shutting down..."

/-- `parse_host_state_gently`. -/
def parseHostState (str : List Char) : Option Nat :=
  ["UP", "DOWN", "UNREACHABLE"].findIdx? (·.toList == str)

/-- `parse_service_state_gently`. -/
def parseServiceState (str : List Char) : Option Nat :=
  ["OK", "WARNING", "CRITICAL", "UNKNOWN"].findIdx? (·.toList == str)

/-- `SOFT_STATE` is 0, and `HARD_STATE` is 1. -/
def softHard (str : List Char) : Option Nat := ["SOFT", "HARD"].findIdx? (·.toList == str)

/-- What `add_interesting_object` adds to. -/
structure InterestingObjects where
  hosts : Option (List (List Char))
  services : Option (List (List Char × List Char))

/-- `is_interesting_host`. -/
def isInterestingHost (interesting : InterestingObjects) (host : List Char) : Bool :=
  match interesting.hosts with
  | none => true
  | some hosts => decide (host ∈ hosts)

/-- `service` may be `NULL`. -/
def isInterestingService (interesting : InterestingObjects) (host : List Char)
    (service : Option (List Char)) : Bool :=
  match service, interesting.services with
  | some service, some services => decide ((host, service) ∈ services)
  | _, _ => isInterestingHost interesting host

def vectorizeFrom (nvecs : Nat) : (i : Nat) → List Char → List Char × List Nat
  | _, [] => ([], [])
  | i, char :: text =>
    if char = nul ∨ nvecs ≤ i then (char :: text, [])
    else if char = ';' then
      let (text, strv) := vectorizeFrom nvecs (i + 1) text
      (nul :: text, 1 :: strv.map (· + 1))
    else
      let (text, strv) := vectorizeFrom nvecs i text
      (char :: text, strv.map (· + 1))

/-- `vectorize_string`, with `strv`. -/
def vectorizeString (nvecs : Nat) (str : List Char) : List Char × List (List Char) :=
  let (text, strv) := vectorizeFrom nvecs 1 str
  (text, (0 :: strv).map fun start => cstr (text.drop start))

def cutFields : (cuts : Nat) → List Char → List (List Char)
  | 0, text => [text]
  | _ + 1, [] => [[]]
  | cuts + 1, char :: text =>
    if char = ';' then [] :: cutFields cuts text
    else (cutFields (cuts + 1) text).modifyHead (char :: ·)

theorem cstr_eq_self {text : List Char} (noNul : nul ∉ text) : cstr text = text := by
  rw [cstr, takeWhile_eq_self_iff]
  intro char member
  exact bne_iff_ne.mpr fun same => noNul (same ▸ member)

theorem cstr_cons {char : Char} (notNul : char ≠ nul) (text : List Char) :
    cstr (char :: text) = char :: cstr text := takeWhile_cons_of_pos (bne_iff_ne.mpr notNul)

theorem cutFields_append {cuts : Nat} {field : List Char} (whole : ';' ∉ field) (text : List Char) :
    cutFields (cuts + 1) (field ++ ';' :: text) = field :: cutFields cuts text := by
  induction field with
  | nil => rw [nil_append, cutFields, if_pos rfl]
  | cons char field ih =>
    rw [mem_cons, not_or] at whole
    rw [cons_append, cutFields, if_neg (Ne.symm whole.1), ih whole.2, modifyHead_cons]

variable {str : List Char}

theorem vectorizeFrom_fields {nvecs i cuts : Nat} (noNul : nul ∉ str) (isCuts : nvecs - i = cuts) :
    (0 :: (vectorizeFrom nvecs i str).2).map
      (fun start => cstr ((vectorizeFrom nvecs i str).1.drop start)) = cutFields cuts str := by
  induction str generalizing i cuts with
  | nil => cases cuts <;> rfl
  | cons char text ih =>
    have whole := cstr_eq_self noNul
    rw [mem_cons, not_or] at noNul
    cases cuts with
    | zero =>
      rw [vectorizeFrom, if_pos (.inr (by omega)), cutFields]
      exact congrArg (fun text => [text]) whole
    | succ cuts =>
      have goesOn : ¬ (char = nul ∨ nvecs ≤ i) := not_or.mpr ⟨Ne.symm noNul.1, by omega⟩
      rw [vectorizeFrom, if_neg goesOn, cutFields]
      by_cases cut : char = ';'
      · rw [if_pos cut, if_pos cut, ← ih noNul.2 (by omega : nvecs - (i + 1) = cuts)]
        simp only [map_cons, map_map]
        rfl
      · rw [if_neg cut, if_neg cut, ← ih noNul.2 isCuts]
        simp only [map_cons, map_map, modifyHead_cons, drop_zero, cstr_cons (Ne.symm noNul.1)]
        rfl

theorem vectorizeString_fields {nvecs : Nat} (noNul : nul ∉ str) :
    (vectorizeString nvecs str).2 = cutFields (nvecs - 1) str := vectorizeFrom_fields noNul rfl

end MonitorMerlin
