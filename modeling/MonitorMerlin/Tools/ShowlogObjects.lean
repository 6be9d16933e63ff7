import MonitorMerlin.Tools.Showlog

/-! # Lines of restricted objects -/

namespace MonitorMerlin

open List

structure ObjectEvent where
  type : String
  fields : Nat
  object : Nat × Option Nat
  deriving DecidableEq, Repr

def objectEvents : List ObjectEvent :=
  [⟨"HOST ALERT", 5, (0, none)⟩,
    ⟨"INITIAL HOST STATE", 5, (0, none)⟩,
    ⟨"CURRENT HOST STATE", 5, (0, none)⟩,
    ⟨"HOST EVENT HANDLER", 5, (0, none)⟩,
    ⟨"HOST NOTIFICATION", 5, (1, none)⟩,
    ⟨"HOST NOTIFICATION SUPPRESSED", 2, (0, none)⟩,
    ⟨"HOST CONTACT NOTIFICATION SUPPRESSED", 3, (1, none)⟩,
    ⟨"SERVICE ALERT", 6, (0, some 1)⟩,
    ⟨"INITIAL SERVICE STATE", 6, (0, some 1)⟩,
    ⟨"CURRENT SERVICE STATE", 6, (0, some 1)⟩,
    ⟨"SERVICE EVENT HANDLER", 6, (0, some 1)⟩,
    ⟨"SERVICE NOTIFICATION", 6, (1, some 2)⟩,
    ⟨"SERVICE NOTIFICATION SUPPRESSED", 3, (0, some 1)⟩,
    ⟨"SERVICE CONTACT NOTIFICATION SUPPRESSED", 4, (1, some 2)⟩,
    ⟨"HOST DOWNTIME ALERT", 3, (0, none)⟩,
    ⟨"HOST FLAPPING ALERT", 3, (0, none)⟩,
    ⟨"SERVICE DOWNTIME ALERT", 4, (0, some 1)⟩,
    ⟨"SERVICE FLAPPING ALERT", 4, (0, some 1)⟩]

def taggedCodes : List (StringCode (BitVec 32)) :=
  eventCodes.filter fun sc => sc.code &&& (evtHost ||| evtService) != 0

def mistakenTypes : List String :=
  ["HOST CONTACT NOTIFICATION SUPPRESSED", "SERVICE NOTIFICATION SUPPRESSED",
    "SERVICE CONTACT NOTIFICATION SUPPRESSED"]

structure CompleteLine (event : ObjectEvent) (names : List (List Char)) (line : List Char) :
    Prop where
  text : lineText line = event.type.toList ++ ':' :: ' ' :: [';'].intercalate names
  timed : ∃ ltime text, lineStart line = .timed ltime text
  count : names.length = event.fields
  whole : ∀ name ∈ names.dropLast, ';' ∉ name
  stripped : ([';'].intercalate names).head? ≠ some ' '
  noNul : nul ∉ line

def entryFields (nvecs : Nat) (names : List (List Char)) : List (List Char) :=
  names.take (nvecs - 1) ++ [[';'].intercalate (names.drop (nvecs - 1))]

def checkedObject (sc : StringCode (BitVec 32)) (names : List (List Char)) : Option StateObject :=
  (objectFields sc.code).map (objectIn (entryFields sc.nvecs names))

namespace ShowlogSettings

def unrestricted (settings : ShowlogSettings) : ShowlogSettings :=
  { settings with restrictObjects := false, interesting := ⟨none, none⟩ }

end ShowlogSettings

def Shows (settings : ShowlogSettings) (state : Showlog) (line : List Char) : Prop :=
  (showlogLine settings state line).printed ≠ state.printed

/-- A line is shown iff its object is permitted and asked for. -/
def ShowsExactly (settings : ShowlogSettings) (state : Showlog) (line : List Char)
    (object : StateObject) : Prop :=
  Shows settings state line ↔
    settings.authorises object = true ∧ settings.isInteresting object = true

def objectEntries : List (StringCode (BitVec 32) × ObjectEvent) := taggedCodes.zip objectEvents

theorem objectEntries_types :
    objectEntries.map (·.1) = taggedCodes ∧
      ∀ entry ∈ objectEntries, entry.1.str = entry.2.type := by
  decide

theorem getStringCode_toList {κ : Type} (codes : List (StringCode κ)) (str : String) :
    getStringCode codes str.toList = codes.find? fun code => code.str == str := by
  have same (code : StringCode κ) : (code.str.toList == str.toList) = (code.str == str) := by
    rw [Bool.eq_iff_iff, beq_iff_eq, beq_iff_eq, String.toList_inj]
  simp only [getStringCode, same]

theorem find_entry : ∀ entry ∈ objectEntries,
    (eventCodes.find? fun code => code.str == entry.1.str) = some entry.1 := by
  decide

theorem nvecs_entry : ∀ entry ∈ objectEntries,
    0 < entry.1.nvecs ∧ entry.1.nvecs ≤ entry.2.fields ∧ entry.1.code ≠ 0 ∧
      objectFields entry.1.code ≠ none := by
  decide

def InFront (nvecs : Nat) (object : Nat × Option Nat) : Prop :=
  object.1 + 1 < nvecs ∧ object.2.getD 0 + 1 < nvecs

instance (nvecs : Nat) (object : Nat × Option Nat) : Decidable (InFront nvecs object) :=
  inferInstanceAs (Decidable (_ ∧ _))

theorem entry_fits : ∀ entry ∈ objectEntries, entry.2.type ∉ mistakenTypes →
    objectFields entry.1.code = some entry.2.object ∧ InFront entry.1.nvecs entry.2.object := by
  decide

theorem type_front : ∀ entry ∈ objectEntries,
    ':' ∉ entry.1.str.toList ∧ entry.1.str.toList.head?.any (· ∈ ['H', 'I', 'C', 'S']) = true := by
  decide +kernel

theorem isInteresting_append {front : List Char} (rest : List Char)
    (letter : front.head?.any (· ∈ ['H', 'I', 'C', 'S']) = true) :
    isInteresting (front ++ rest) = true := by
  cases front with
  | nil => cases letter
  | cons first front =>
    simp only [head?_cons, Option.any_some, decide_eq_true_eq, mem_cons,
      not_mem_nil, or_false] at letter
    rcases letter with rfl | rfl | rfl | rfl <;> rfl

variable {names : List (List Char)}

theorem cutFields_intercalate {cuts : Nat} (enough : cuts < names.length)
    (whole : ∀ name ∈ names.take cuts, ';' ∉ name) :
    cutFields cuts ([';'].intercalate names) = entryFields (cuts + 1) names := by
  induction cuts generalizing names with
  | zero =>
    rw [cutFields]
    rfl
  | succ cuts ih =>
    cases names with
    | nil => cases enough
    | cons name names =>
      have later : cuts < names.length := Nat.lt_of_succ_lt_succ enough
      cases names with
      | nil => cases later
      | cons next names =>
        rw [take_succ_cons, forall_mem_cons] at whole
        rw [intercalate_cons_cons, append_assoc, singleton_append,
          cutFields_append whole.1, ih later whole.2]
        rfl

variable {nvecs : Nat}

theorem objectIn_entryFields {object : Nat × Option Nat} (inFront : InFront nvecs object)
    (enough : nvecs ≤ names.length) :
    objectIn (entryFields nvecs names) object = objectIn names object := by
  have same {index : Nat} (small : index + 1 < nvecs) :
      (entryFields nvecs names).getD index [] = names.getD index [] := by
    rw [entryFields, getD_eq_getElem?_getD, getD_eq_getElem?_getD,
      getElem?_append_left (by rw [length_take]; omega),
      getElem?_take_of_lt (by omega)]
  obtain ⟨host, service⟩ := object
  cases service with
  | none => rw [objectIn, objectIn, same inFront.1]
  | some service =>
    have sameService : (entryFields nvecs names).getD service [] = names.getD service [] :=
      same inFront.2
    rw [objectIn, objectIn, same inFront.1, sameService]

def LineVerdict.Prints : LineVerdict → Prop
  | .prints _ _ _ => True
  | _ => False

variable {settings : ShowlogSettings} {state : Showlog} {line : List Char}

theorem shows_iff (running : state.exited = false) (noSkip : state.skip = 0) (noNul : nul ∉ line) :
    Shows settings state line ↔ (filterLine plainFields settings state.tables line).Prints := by
  rw [Shows, showlogLine, if_neg (by rw [running]; decide), ← filterLine_mangled noNul]
  cases filterLine vectorizeString settings state.tables line with
  | crashes | returns tables => simp [LineVerdict.mangled, LineVerdict.Prints]
  | prints tables type text => simp [LineVerdict.mangled, LineVerdict.Prints, printLine, noSkip]

variable {sc : StringCode (BitVec 32)} {event : ObjectEvent}

theorem cutFields_complete (entry : (sc, event) ∈ objectEntries)
    (complete : CompleteLine event names line) :
    cutFields (sc.nvecs - 1) ([';'].intercalate names) = entryFields sc.nvecs names := by
  obtain ⟨positive, few, _⟩ := nvecs_entry _ entry
  have count := complete.count
  dsimp only at positive few
  rw [cutFields_intercalate (by omega), Nat.sub_add_cancel positive]
  intro name member
  apply complete.whole
  rw [dropLast_eq_take]
  exact take_subset_take_left _ (by omega) member

theorem blank_parts {body : List Char} (stripped : body.head? ≠ some ' ') :
    (' ' :: body).takeWhile (· == ' ') = [' '] ∧ (' ' :: body).dropWhile (· == ' ') = body := by
  cases body with
  | nil => exact ⟨rfl, rfl⟩
  | cons char body =>
    have notBlank : ¬ (char == ' ') = true := fun blank =>
      stripped (congrArg some (beq_iff_eq.mp blank))
    simp [notBlank]

theorem filterLine_complete (entry : (sc, event) ∈ objectEntries)
    (complete : CompleteLine event names line) {ltime : Int} {text : List Char}
    (start : lineStart line = .timed ltime text) (settings : ShowlogSettings)
    (tables : StateTables) :
    filterLine plainFields settings tables line =
      if ltime < settings.firstTime ∨ settings.lastTime < ltime then .returns tables
      else if sc.code &&& settings.eventFilter ≠ sc.code then .returns tables
      else filterFields settings tables sc (event.type.toList ++ [':', ' '])
        ([';'].intercalate names, entryFields sc.nvecs names) := by
  obtain ⟨noColon, letter⟩ := type_front _ entry
  have type : sc.str = event.type := objectEntries_types.2 _ entry
  obtain ⟨positive, -, isCode, -⟩ := nvecs_entry _ entry
  have found : getStringCode eventCodes event.type.toList = some sc := by
    rw [getStringCode_toList, ← type]
    exact find_entry _ entry
  have isText := complete.text
  rw [lineText, start] at isText
  dsimp only at isText noColon letter positive isCode
  rw [type] at noColon letter
  obtain ⟨blank, body⟩ := blank_parts complete.stripped
  rw [filterLine, start]
  dsimp only
  rw [isText, isInteresting_append _ letter, strchr_append noColon]
  dsimp only
  rw [found]
  dsimp only
  rw [filterEvent, blank, body, if_neg (Nat.ne_of_gt positive), plainFields,
    cutFields_complete entry complete]
  simp only [isCode, false_or, Bool.true_eq_false, if_false]

theorem permits_unrestricted (object : StateObject) :
    settings.unrestricted.permits object = true := by
  cases object <;> rfl

variable {tables : StateTables} {object : StateObject} {after : StateTables}

theorem stateEventPasses_iff {filter : BitVec 32} {parseState : List Char → Option Nat}
    {name type : List Char}
    (passes : settings.unrestricted.stateEventPasses filter parseState object name type tables =
      some (true, after)) :
    (∃ after, settings.stateEventPasses filter parseState object name type tables =
      some (true, after)) ↔ settings.permits object = true := by
  unfold ShowlogSettings.stateEventPasses at passes ⊢
  rw [permits_unrestricted] at passes
  cases isHard : softHard type with
  | none =>
    rw [isHard] at passes
    cases passes
  | some hard =>
    rw [isHard] at passes
    simp only [Option.bind_eq_bind, Option.bind_some] at passes ⊢
    by_cases wrongType : settings.statetypeFilter.getLsbD hard = false
    · rw [if_pos (show settings.unrestricted.statetypeFilter.getLsbD hard = false from wrongType)]
        at passes
      cases passes
    · rw [if_neg (show ¬ settings.unrestricted.statetypeFilter.getLsbD hard = false from wrongType)]
        at passes
      rw [if_neg wrongType]
      cases isSeverity : parseState name with
      | none =>
        rw [isSeverity] at passes
        cases passes
      | some severity =>
        rw [isSeverity, Option.bind_some] at passes
        rw [Option.bind_some]
        split at passes
        · cases passes
        · rename_i passesState
          rw [if_neg passesState]
          cases settings.permits object with
          | false => simp
          | true => exact ⟨fun _ => rfl, fun _ => ⟨after, passes⟩⟩

variable {strv : List (List Char)}

theorem filterFields_prints_iff {front str : List Char} (count : strv.length = sc.nvecs) :
    (filterFields settings tables sc front (str, strv)).Prints ↔
      ∃ after, settings.eventPasses sc.code strv tables = some (true, after) := by
  rw [filterFields, if_neg (not_not.mpr count)]
  rcases settings.eventPasses sc.code strv tables with - | ⟨- | -, after⟩
  all_goals simp [LineVerdict.Prints]

theorem length_entryFields (positive : 0 < nvecs) (few : nvecs ≤ names.length) :
    (entryFields nvecs names).length = nvecs := by
  rw [entryFields, length_append, length_take, length_singleton]
  omega

theorem shows_iff_permits (entry : (sc, event) ∈ objectEntries)
    (complete : CompleteLine event names line) (running : state.exited = false)
    (noSkip : state.skip = 0) (passes : Shows settings.unrestricted state line) :
    ∃ checked, checkedObject sc names = some checked ∧
      (Shows settings state line ↔ settings.permits checked = true) := by
  obtain ⟨ltime, text, start⟩ := complete.timed
  obtain ⟨positive, few, -, isObject⟩ := nvecs_entry _ entry
  have count : (entryFields sc.nvecs names).length = sc.nvecs :=
    length_entryFields positive (complete.count ▸ few)
  obtain ⟨fields, isFields⟩ := Option.ne_none_iff_exists'.mp isObject
  have isChecked :
      checkedObject sc names = some (objectIn (entryFields sc.nvecs names) fields) := by
    rw [checkedObject, isFields, Option.map_some]
  refine ⟨_, isChecked, ?_⟩
  rw [shows_iff running noSkip complete.noNul, filterLine_complete entry complete start] at passes ⊢
  by_cases outside : ltime < settings.firstTime ∨ settings.lastTime < ltime
  · rw [if_pos (by exact outside)] at passes
    exact passes.elim
  · rw [if_neg (by exact outside)] at passes
    rw [if_neg outside]
    by_cases filtered : sc.code &&& settings.eventFilter ≠ sc.code
    · rw [if_pos (by exact filtered)] at passes
      exact passes.elim
    · rw [if_neg (by exact filtered), filterFields_prints_iff count] at passes
      obtain ⟨after, passes⟩ := passes
      rw [if_neg filtered, filterFields_prints_iff count]
      rw [ShowlogSettings.eventPasses, isFields, Option.map_some] at passes ⊢
      dsimp only at passes ⊢
      split_ifs at passes ⊢
      · exact stateEventPasses_iff passes
      · exact stateEventPasses_iff passes
      · simp

theorem permits_iff (restricts : settings.restrictObjects = true) (object : StateObject) :
    settings.permits object = true ↔
      settings.authorises object = true ∧ settings.isInteresting object = true := by
  rw [ShowlogSettings.permits, restricts, Bool.and_eq_true]
  rfl

/-- Lines are restricted to their object, unless their type is one of the mistaken ones and
what is checked is permitted other than the object. -/
theorem showsExactly_iff (settings : ShowlogSettings) (state : Showlog)
    {sc : StringCode (BitVec 32)} {event : ObjectEvent} {names : List (List Char)}
    {line : List Char} (entry : (sc, event) ∈ objectEntries)
    (complete : CompleteLine event names line) (running : state.exited = false)
    (noSkip : state.skip = 0) (restricts : settings.restrictObjects = true)
    (passes : Shows settings.unrestricted state line) :
    ShowsExactly settings state line (objectIn names event.object) ↔
      event.type ∉ mistakenTypes ∨ (checkedObject sc names).map settings.permits =
        some (settings.permits (objectIn names event.object)) := by
  obtain ⟨checked, isChecked, shows⟩ := shows_iff_permits entry complete running noSkip passes
  rw [ShowsExactly, ← permits_iff restricts, shows, isChecked, Option.map_some,
    Option.some.injEq, ← Bool.eq_iff_iff]
  constructor
  · exact .inr
  · rintro (fits | agrees)
    · obtain ⟨isFields, inFront⟩ := entry_fits _ entry fits
      have few := (nvecs_entry _ entry).2.1
      rw [checkedObject, isFields, Option.map_some, Option.some.injEq,
        objectIn_entryFields inFront (complete.count ▸ few)] at isChecked
      rw [isChecked]
    · exact agrees

def suppressedCode : StringCode (BitVec 32) :=
  ⟨3, "SERVICE CONTACT NOTIFICATION SUPPRESSED", evtNsr ||| evtNotify ||| evtContact ||| evtHost⟩

def suppressedEvent : ObjectEvent := ⟨"SERVICE CONTACT NOTIFICATION SUPPRESSED", 4, (1, some 2)⟩

def suppressedNames : List (List Char) := [['o'], ['w'], ['h'], ['x']]

def suppressedLine : List Char :=
  "[1234567890] SERVICE CONTACT NOTIFICATION SUPPRESSED: o;w;h;x".toList

def oneService : ShowlogSettings :=
  { showEverything with restrictObjects := true, auth := ⟨[], [(['w'], ['h'])]⟩ }

def showlogStart : Showlog := ⟨0, 0, stateInit, [], false⟩

theorem suppressed_mem : (suppressedCode, suppressedEvent) ∈ objectEntries := by
  decide

theorem completeLine_suppressed : CompleteLine suppressedEvent suppressedNames suppressedLine where
  text := by decide +kernel
  timed := ⟨1234567890, lineText suppressedLine, by decide +kernel⟩
  count := rfl
  whole := by decide
  stripped := by decide
  noNul := by decide

theorem shows_suppressed : Shows oneService.unrestricted showlogStart suppressedLine := by
  unfold Shows
  decide +kernel

theorem showsExactly_iff_suppressed :
    ShowsExactly oneService showlogStart suppressedLine (.service ['w'] ['h']) ↔
      suppressedEvent.type ∉ mistakenTypes ∨
        (checkedObject suppressedCode suppressedNames).map oneService.permits = some true :=
  showsExactly_iff oneService showlogStart suppressed_mem completeLine_suppressed rfl rfl rfl
    shows_suppressed

theorem not_showsExactly_suppressed :
    CompleteLine suppressedEvent suppressedNames suppressedLine ∧
      Shows oneService.unrestricted showlogStart suppressedLine ∧
      ¬ ShowsExactly oneService showlogStart suppressedLine (.service ['w'] ['h']) := by
  refine ⟨completeLine_suppressed, shows_suppressed, fun exactly => ?_⟩
  obtain ⟨checked, isChecked, shows⟩ :=
    shows_iff_permits suppressed_mem completeLine_suppressed rfl rfl shows_suppressed
  have isHost : checked = .host ['w'] := (Option.some.inj isChecked).symm
  rw [isHost] at shows
  exact absurd (shows.mp (exactly.mpr ⟨rfl, rfl⟩)) (by decide)

end MonitorMerlin
