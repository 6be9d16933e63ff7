import Mathlib.Data.Bool.AllAny
import MonitorMerlin.Config.HeardLines

/-! # The two parsers of a configuration file -/

namespace MonitorMerlin

open Lines List Nesting Trim

def SameTree (path text : List Char) : Prop :=
  ∃ comp, cfgParseFile path text = .ok comp ∧ (parseConf path text).parents = [] ∧
    comp.items = (parseConf path text).current.items ∧
    comp.nest = (parseConf path text).current.nest

section Python

variable {heardLines : List (List Char)} {events : List ConfigEvent}

theorem exists_resolved (heardLines : List (List Char)) (cur : Cursor (List Char) ConfigVar) :
    ∃ events, List.Forall₂ Resolved heardLines events ∧
      cur.run events = some (heardLines.foldl confStep cur) := by
  induction heardLines generalizing cur with
  | nil => exact ⟨[], .nil, rfl⟩
  | cons line heardLines ih =>
    obtain ⟨events, resolved, ran⟩ := ih (confStep cur line)
    refine ⟨confEvent (cur.parents ≠ []) line :: events, .cons ⟨_, rfl⟩ resolved, ?_⟩
    have stepped : cur.step (confEvent (cur.parents ≠ []) line) = some (confStep cur line) := by
      rw [confStep]
      cases isEvent : confEvent (cur.parents ≠ []) line with
      | start name | item var => rfl
      | close =>
        rw [confEvent] at isEvent
        split_ifs at isEvent with closes
        cases isClosed : cur.close with
        | none =>
          exact absurd (Cursor.close_eq_none_iff.mp isClosed) (decide_eq_true_iff.mp closes.2)
        | some closed =>
          rw [Cursor.step, isClosed]
          rfl
    rw [Cursor.run_cons, stepped, Option.bind_some, ran]
    rfl

private theorem exists_pairs (texts : List (List Char)) (cur : Cursor (List Char) ConfigVar) :
    ∃ pairs : List (List Char × List ConfigEvent), pairs.map Prod.fst = texts ∧
      (∀ pair ∈ pairs, List.Forall₂ Resolved (heard pair.1) pair.2) ∧
      cur.run (pairs.flatMap Prod.snd) = some ((texts.flatMap heard).foldl confStep cur) := by
  induction texts generalizing cur with
  | nil => exact ⟨[], rfl, fun _ => nofun, rfl⟩
  | cons line texts ih =>
    obtain ⟨events, resolved, ran⟩ := exists_resolved (heard line) cur
    obtain ⟨pairs, isTexts, allResolved, ranPairs⟩ := ih ((heard line).foldl confStep cur)
    refine ⟨(line, events) :: pairs, by rw [map_cons, isTexts],
      forall_mem_cons.mpr ⟨resolved, allResolved⟩, ?_⟩
    rw [flatMap_cons, Cursor.run_append, ran, Option.bind_some, ranPairs,
      flatMap_cons, foldl_append]

private theorem foldl_confStep {cur after : Cursor (List Char) ConfigVar}
    (agrees : List.Forall₂ Agrees heardLines events) (ran : cur.run events = some after) :
    heardLines.foldl confStep cur = after := by
  induction agrees generalizing cur with
  | nil => exact Option.some.inj ran
  | @cons line event heardLines events first rest ih =>
    rw [Cursor.run_cons, Option.bind_eq_some_iff] at ran
    obtain ⟨next, isNext, ran⟩ := ran
    have isEvent : confEvent (cur.parents ≠ []) line = event := by
      by_cases nested : cur.parents = []
      · rw [nested]
        apply first.2
        rintro rfl
        rw [Cursor.step, Cursor.close_eq_none_iff.mpr nested] at isNext
        cases isNext
      · rw [decide_eq_true nested]
        exact first.1
    rw [foldl_cons, confStep, isEvent, isNext]
    exact ih ran

theorem exists_related {α β : Type} {related : α → β → Prop} {firsts : List α} {seconds : List β}
    (all : List.Forall₂ related firsts seconds) {second : β} (member : second ∈ seconds) :
    ∃ first ∈ firsts, related first second := by
  induction all with
  | nil => cases member
  | cons isFirst rest ih =>
    rcases mem_cons.mp member with rfl | member
    · exact ⟨_, mem_cons_self, isFirst⟩
    · obtain ⟨first, isMember, isRelated⟩ := ih member
      exact ⟨first, mem_cons_of_mem _ isMember, isRelated⟩

end Python

structure GrammarLine (line : List Char) : Prop where
  conf : ConfLine line
  whole : '\n' ∉ line
  starts : StartsFull isCfgSpace line
  ends : EndsFull isCfgSpace line
  alone : ClosesAlone line

/-- Both parsers run over the same lines. -/
structure SameRun (pairs : List (List Char × List ConfigEvent))
    (cursor after : Cursor (List Char) ConfigVar) : Prop where
  grammar : ∀ pair ∈ pairs, GrammarLine pair.1
  resolved : ∀ pair ∈ pairs, List.Forall₂ Resolved (heard pair.1) pair.2
  ran : cursor.run (pairs.flatMap fun pair => lineEvents pair.1) = some after
  ranPython : cursor.run (pairs.flatMap Prod.snd) = some after

section Lines

variable {line name : List Char} {var : ConfigVar}

private theorem length_lineEvents (line : List Char) : (lineEvents line).length ≤ 1 := by
  rw [lineEvents]
  cases lineKind line with
  | silent => exact Nat.zero_le 1
  | start | close | var => exact Nat.le_refl 1

private theorem of_start_mem (isEvent : .start name ∈ lineEvents line) :
    lineKind line = .start ∧ name = lineName line := by
  rw [lineEvents] at isEvent
  cases kind : lineKind line with
  | silent =>
    rw [kind] at isEvent
    cases isEvent
  | start =>
    rw [kind] at isEvent
    exact ⟨rfl, Event.start.inj (mem_singleton.mp isEvent)⟩
  | close | var =>
    rw [kind] at isEvent
    cases mem_singleton.mp isEvent

private theorem of_item_mem (isEvent : .item var ∈ lineEvents line) :
    lineKind line = .var ∧ var = lineVar (withoutSemicolon line) := by
  rw [lineEvents] at isEvent
  cases kind : lineKind line with
  | silent =>
    rw [kind] at isEvent
    cases isEvent
  | start | close =>
    rw [kind] at isEvent
    cases mem_singleton.mp isEvent
  | var =>
    rw [kind] at isEvent
    exact ⟨rfl, Event.item.inj (mem_singleton.mp isEvent)⟩

theorem lineVar_head {first : Char} {rest : List Char} (notSpace : isCfgSpace first = false)
    (notLone : first :: rest ≠ [';']) :
    (lineVar (withoutSemicolon (first :: rest))).key.head? = some first := by
  have starts : StartsFull isCfgSpace (first :: rest) := by
    intro char isChar
    rw [← Option.some.inj isChar]
    exact notSpace
  obtain ⟨back, isBack, -⟩ := exists_withoutSemicolon (first :: rest)
  have kept := (withoutSemicolon_append [] starts (cons_ne_nil _ _) notLone).2
  obtain ⟨char, text, isText⟩ := exists_cons_of_ne_nil kept
  rw [isText] at isBack ⊢
  rw [head_eq_of_cons_eq isBack]
  rfl

theorem GrammarLine.lineVar_head (grammar : GrammarLine line) (kind : lineKind line = .var) :
    (lineVar (withoutSemicolon line)).key.head? = line.head? := by
  have loud := (isSilent_eq_false_iff.mp (of_lineKind_var kind).1).1
  obtain ⟨first, rest, rfl⟩ := exists_cons_of_ne_nil loud
  exact MonitorMerlin.lineVar_head (grammar.starts first rfl)
    (grammar.conf.ne_singleton (by decide))

theorem GrammarLine.notClose_var (grammar : GrammarLine line) (kind : lineKind line = .var) :
    line.head? ≠ some '}' := fun isClose => (of_lineKind_var kind).2.1 (grammar.alone isClose)

theorem GrammarLine.notClose_start (grammar : GrammarLine line) (kind : lineKind line = .start) :
    line.head? ≠ some '}' := fun isClose => (of_lineKind_start kind).2.1 (grammar.alone isClose)

end Lines

namespace SameRun

variable {pairs : List (List Char × List ConfigEvent)} {cursor after : Cursor (List Char) ConfigVar}
  (same : SameRun pairs cursor after) {pair : List Char × List ConfigEvent}

include same

private theorem exists_heard {event : ConfigEvent} (isPython : event ∈ pairs.flatMap Prod.snd) :
    ∃ line, HeardLine line ∧ Resolved line event := by
  obtain ⟨pair, member, isEvent⟩ := mem_flatMap.mp isPython
  obtain ⟨line, isHeard, resolved⟩ := exists_related (same.resolved pair member) isEvent
  exact ⟨line, heardLine_of_mem isHeard, resolved⟩

private theorem lineName_whole (member : pair ∈ pairs) (kind : lineKind pair.1 = .start) :
    '\r' ∉ lineName pair.1 ∧ StartsFull isPySpace (lineName pair.1) ∧
      EndsFull isPySpace (lineName pair.1) := by
  have isEvent : .start (lineName pair.1) ∈ pairs.flatMap fun pair => lineEvents pair.1 := by
    refine mem_flatMap.mpr ⟨pair, member, ?_⟩
    rw [lineEvents, kind]
    exact mem_singleton_self _
  rw [start_mem_iff same.ran same.ranPython] at isEvent
  obtain ⟨line, heardLine, resolved⟩ := same.exists_heard isEvent
  exact heardLine.start_name resolved

theorem named {name : List Char} (isPython : .start name ∈ pairs.flatMap Prod.snd) : name ≠ [] := by
  rw [← start_mem_iff same.ran same.ranPython] at isPython
  obtain ⟨pair, member, isEvent⟩ := mem_flatMap.mp isPython
  have grammar := same.grammar pair member
  obtain ⟨kind, rfl⟩ := of_start_mem isEvent
  exact lineName_ne_nil grammar.conf (of_lineKind_start kind).2.2 grammar.starts

section

variable (member : pair ∈ pairs)

include member

private theorem safeLine_start (kind : lineKind pair.1 = .start) : SafeLine pair.1 := by
  obtain ⟨nameWhole, starts, ends⟩ := same.lineName_whole member kind
  rw [SafeLine, kind]
  refine ⟨fun isReturn => ?_, (same.grammar pair member).notClose_start kind, starts, ends⟩
  obtain ⟨event, isEvent, nested, isStart⟩ := exists_related (same.resolved pair member).flip
    (mem_heard_of_return (of_lineKind_start kind).2.2 isReturn nameWhole)
  obtain rfl : .start [] = event := isStart
  exact same.named (mem_flatMap.mpr ⟨pair, member, isEvent⟩) rfl

private theorem events_start (kind : lineKind pair.1 = .start) : pair.2 = lineEvents pair.1 := by
  have grammar := same.grammar pair member
  have agrees := (same.safeLine_start member kind).agrees grammar.conf grammar.whole
    grammar.starts grammar.ends
  have resolved := same.resolved pair member
  rw [lineEvents, kind] at agrees ⊢
  obtain ⟨line, rest, agree, nothing, isHeard⟩ := List.forall₂_cons_right_iff.mp agrees
  rw [List.forall₂_nil_right_iff.mp nothing] at isHeard
  rw [isHeard] at resolved
  obtain ⟨event, others, resolvedLine, nothing, isEvents⟩ := List.forall₂_cons_left_iff.mp resolved
  rw [isEvents, List.forall₂_nil_left_iff.mp nothing]
  obtain ⟨nested, rfl⟩ := resolvedLine
  cases nested with
  | true => rw [agree.1]
  | false =>
    have opens : Event.start (lineName pair.1) ≠ (.close : ConfigEvent) := by
      intro isClose
      cases isClose
    rw [agree.2 opens]

private theorem events_close (kind : lineKind pair.1 = .close) : pair.2 = [.close] := by
  have resolved := same.resolved pair member
  have isHeard : heard pair.1 = [['}']] := by
    rw [of_lineKind_close kind]
    rfl
  rw [isHeard] at resolved
  obtain ⟨event, others, resolvedLine, nothing, isEvents⟩ := List.forall₂_cons_left_iff.mp resolved
  rw [List.forall₂_nil_left_iff.mp nothing] at isEvents
  obtain ⟨nested, rfl⟩ := resolvedLine
  cases nested with
  | true => exact isEvents
  | false =>
    have isPython : .item ⟨['}'], none⟩ ∈ pairs.flatMap Prod.snd := by
      refine mem_flatMap.mpr ⟨pair, member, ?_⟩
      rw [isEvents]
      exact mem_singleton_self _
    rw [← item_mem_iff same.ran same.ranPython] at isPython
    obtain ⟨other, isOther, isEvent⟩ := mem_flatMap.mp isPython
    have grammar := same.grammar other isOther
    obtain ⟨otherKind, isVar⟩ := of_item_mem isEvent
    have isHead := grammar.lineVar_head otherKind
    rw [← isVar] at isHead
    exact absurd isHead.symm (grammar.notClose_var otherKind)

private theorem lineKey_whole (kind : lineKind pair.1 = .var) :
    '=' ∉ (lineVar (withoutSemicolon pair.1)).key ∧
      StartsFull isPySpace (lineVar (withoutSemicolon pair.1)).key ∧
      EndsFull isPySpace (lineVar (withoutSemicolon pair.1)).key := by
  have isEvent : .item (lineVar (withoutSemicolon pair.1)) ∈
      pairs.flatMap fun pair => lineEvents pair.1 := by
    refine mem_flatMap.mpr ⟨pair, member, ?_⟩
    rw [lineEvents, kind]
    exact mem_singleton_self _
  rw [item_mem_iff same.ran same.ranPython] at isEvent
  obtain ⟨line, heardLine, resolved⟩ := same.exists_heard isEvent
  exact heardLine.item_key resolved

private theorem first_var (kind : lineKind pair.1 = .var) :
    ∃ first rest, pair.1 = first :: rest ∧ isPySpace first = false ∧ first ≠ '#' ∧ first ≠ '=' := by
  obtain ⟨noEquals, starts, -⟩ := same.lineKey_whole member kind
  have isHead := (same.grammar pair member).lineVar_head kind
  obtain ⟨notEmpty, notComment⟩ := isSilent_eq_false_iff.mp (of_lineKind_var kind).1
  obtain ⟨first, rest, isLine⟩ := exists_cons_of_ne_nil notEmpty
  rw [isLine, head?_cons] at notComment
  rw [isLine, head?_cons, ← isLine] at isHead
  refine ⟨first, rest, isLine, starts first isHead, ?_, ?_⟩
  · exact fun isComment => notComment (congrArg some isComment)
  · rintro rfl
    exact noEquals (mem_of_mem_head? isHead)

private theorem names_eq :
    ((lineEvents pair.1).flatMap Event.names).length = (pair.2.flatMap Event.names).length := by
  refine forall_count_eq (fun pair member => ?_)
    (grows_names.perm same.ran same.ranPython).length_eq pair member
  cases kind : lineKind pair.1 with
  | start => rw [same.events_start member kind]
  | _ =>
    rw [lineEvents, kind]
    exact Nat.zero_le _

private theorem closes_eq :
    ((lineEvents pair.1).flatMap Event.closes).length = (pair.2.flatMap Event.closes).length := by
  refine forall_count_eq (fun pair member => ?_)
    (length_closes_eq same.ran same.ranPython) pair member
  cases kind : lineKind pair.1 with
  | close => rw [same.events_close member kind, lineEvents, kind]
  | _ =>
    rw [lineEvents, kind]
    exact Nat.zero_le _

private theorem items_eq :
    ((lineEvents pair.1).flatMap Event.items).length = (pair.2.flatMap Event.items).length := by
  refine forall_count_eq (fun pair member => ?_)
    (grows_items.perm same.ran same.ranPython).length_eq pair member
  cases kind : lineKind pair.1 with
  | var =>
    have names := same.names_eq member
    have closes := same.closes_eq member
    have lengths := length_eq_counts pair.2
    obtain ⟨first, rest, isLine, notSpace, notComment, -⟩ := same.first_var member kind
    have isHeard := length_pos_iff.mpr (heard_ne_nil notSpace notComment rest)
    rw [← isLine, (same.resolved pair member).length_eq] at isHeard
    rw [lineEvents, kind] at names closes ⊢
    simp only [flatMap_singleton, Event.names, Event.closes, Event.items, length_nil,
      length_singleton] at names closes ⊢
    omega
  | _ =>
    rw [lineEvents, kind]
    exact Nat.zero_le _

private theorem events_eq : lineEvents pair.1 = pair.2 :=
  forall_eq_of_counts same.ran same.ranPython (fun pair _ => length_lineEvents pair.1)
    (fun _ => same.names_eq) (fun _ => same.items_eq) (fun _ => same.closes_eq) pair member

theorem safeLine : SafeLine pair.1 := by
  have grammar := same.grammar pair member
  have resolved := same.resolved pair member
  rw [← same.events_eq member] at resolved
  cases kind : lineKind pair.1 with
  | silent =>
    rw [lineEvents, kind, List.forall₂_nil_right_iff] at resolved
    rw [SafeLine, kind]
    exact resolved
  | start => exact same.safeLine_start member kind
  | close =>
    rw [SafeLine, kind]
    exact trivial
  | var =>
    rw [lineEvents, kind] at resolved
    obtain ⟨line, rest, resolvedLine, nothing, isHeard⟩ := List.forall₂_cons_right_iff.mp resolved
    rw [List.forall₂_nil_right_iff.mp nothing] at isHeard
    obtain ⟨key, left, right, value, parts⟩ := exists_varParts grammar.conf kind
    have notEmpty : key ≠ [] := by
      rintro rfl
      obtain ⟨first, rest, isLine, notSpace, -, notEquals⟩ := same.first_var member kind
      have isSplit := parts.isSplit
      rw [isLine, nil_append] at isSplit
      cases left with
      | nil => exact notEquals (head_eq_of_cons_eq isSplit)
      | cons blank left =>
        have space := blank_isPySpace parts.blankLeft blank mem_cons_self
        rw [← head_eq_of_cons_eq isSplit, notSpace] at space
        cases space
    exact parts.safeLine notEmpty kind grammar.whole grammar.ends (grammar.notClose_var kind)
      isHeard resolvedLine

end

end SameRun

section Trees

variable {path text : List Char} {comp : ConfigComp} {line : List Char}

theorem SafeLine.closesAlone (safe : SafeLine line) : ClosesAlone line := by
  cases kind : lineKind line with
  | silent => exact closesAlone_of_silent (of_lineKind_silent kind)
  | close => exact fun _ => of_lineKind_close kind
  | start | var =>
    rw [SafeLine, kind] at safe
    exact fun isClose => absurd isClose safe.2.1

private theorem compoundName_eq (notBlank : ¬Blank isCfgSpace path) :
    compoundName path = .ok (path.rdropWhile isCfgSpace) := by
  rw [compoundName, if_neg]
  exact fun nothing => notBlank (rdropWhile_eq_nil_iff.mp nothing)

private theorem not_blank_of_parsed (parsed : cfgParseFile path text = .ok comp) :
    ¬Blank isCfgSpace path := by
  intro blank
  rw [cfgParseFile, parseFile, compoundName, if_pos (rdropWhile_eq_nil_iff.mpr blank)] at parsed
  cases parsed

private theorem grammarLine_trim (conf : MerlinConf text) (member : line ∈ lines '\n' text)
    (alone : ClosesAlone (trim isCfgSpace line)) : GrammarLine (trim isCfgSpace line) := by
  refine ⟨conf.grammar line member, fun isNewline => notMem_of_mem_lines member ?_,
    startsFull_trim _ _, endsFull_trim _ _, alone⟩
  obtain ⟨front, back, isLine, -, -⟩ := exists_trim isCfgSpace line
  rw [isLine]
  exact mem_append_left _ (mem_append_right _ isNewline)

private theorem parseConf_trim (path text : List Char) :
    parseConf path text =
      (((lines '\n' text).map (trim isCfgSpace)).flatMap heard).foldl confStep
        ⟨.node path [] [], []⟩ := by
  rw [parseConf_eq, heard_lines, flatMap_map]
  simp only [heard_trim]

private theorem run_textEvents (conf : MerlinConf text)
    (alone : ∀ line ∈ lines '\n' text, ClosesAlone (trim isCfgSpace line))
    (notBlank : ¬Blank isCfgSpace path) :
    ∃ comp, cfgParseFile path text = .ok comp ∧
      (⟨.node path [] [], []⟩ : Cursor (List Char) ConfigVar).run (textEvents text) =
        some ⟨.node path comp.items comp.nest, []⟩ := by
  obtain ⟨comp, ran, parsed⟩ := cfgParseFile_conf conf (compoundName_eq notBlank) alone
  exact ⟨comp, parsed, Cursor.run_renamed ran path⟩

private theorem sameTree_of_safe (conf : MerlinConf text) (notBlank : ¬Blank isCfgSpace path)
    (safe : ∀ line ∈ lines '\n' text, SafeLine (trim isCfgSpace line)) : SameTree path text := by
  have alone := fun line member => (safe line member).closesAlone
  obtain ⟨comp, parsed, ran⟩ := run_textEvents conf alone notBlank
  have agrees : List.Forall₂ Agrees (((lines '\n' text).map (trim isCfgSpace)).flatMap heard)
      (textEvents text) := by
    have related : List.Forall₂ (fun line other => line = other ∧ SafeLine line ∧ GrammarLine line)
        ((lines '\n' text).map (trim isCfgSpace)) ((lines '\n' text).map (trim isCfgSpace)) := by
      rw [List.forall₂_same, forall_mem_map]
      exact fun line member => ⟨rfl, safe line member,
        grammarLine_trim conf member (alone line member)⟩
    apply rel_flatMap related
    rintro line _ ⟨rfl, safeLine, grammar⟩
    exact safeLine.agrees grammar.conf grammar.whole grammar.starts grammar.ends
  have isConf := foldl_confStep agrees ran
  rw [← parseConf_trim] at isConf
  rw [SameTree, isConf]
  exact ⟨comp, parsed, rfl, rfl, rfl⟩

private theorem safe_of_sameTree (conf : MerlinConf text) (same : SameTree path text) :
    ∀ line ∈ lines '\n' text, SafeLine (trim isCfgSpace line) := by
  obtain ⟨comp, parsed, noParents, sameItems, sameNest⟩ := same
  have alone := closesAlone_of_cfgParseFile conf parsed
  obtain ⟨other, parsedOther, ran⟩ := run_textEvents conf alone (not_blank_of_parsed parsed)
  obtain rfl : comp = other := Except.ok.inj (parsed.symm.trans parsedOther)
  obtain ⟨pairs, isTexts, resolved, ranPython⟩ := exists_pairs
    ((lines '\n' text).map (trim isCfgSpace)) ⟨.node path [] [], []⟩
  rw [← parseConf_trim] at ranPython
  have isConf : parseConf path text = ⟨(parseConf path text).current, []⟩ := by
    rw [← noParents]
  rw [isConf] at ranPython
  have renamed := Cursor.run_renamed ranPython path
  rw [← sameItems, ← sameNest] at renamed
  rw [textEvents, ← isTexts, flatMap_map] at ran
  have sameRun : SameRun pairs ⟨.node path [] [], []⟩ ⟨.node path comp.items comp.nest, []⟩ := by
    refine ⟨fun pair member => ?_, resolved, ran, renamed⟩
    have isText : pair.1 ∈ (lines '\n' text).map (trim isCfgSpace) := by
      rw [← isTexts]
      exact mem_map_of_mem member
    obtain ⟨line, isLine, isPair⟩ := mem_map.mp isText
    rw [← isPair]
    exact grammarLine_trim conf isLine (alone line isLine)
  intro line member
  have isText : trim isCfgSpace line ∈ pairs.map Prod.fst := by
    rw [isTexts]
    exact mem_map_of_mem member
  obtain ⟨pair, isPair, isLine⟩ := mem_map.mp isText
  rw [← isLine]
  exact sameRun.safeLine isPair

/-- The two parsers make the same tree of a text of the grammar if and only if all
of its lines are safe. -/
theorem sameTree_iff (conf : MerlinConf text) :
    SameTree path text ↔
      ¬Blank isCfgSpace path ∧ ∀ line ∈ lines '\n' text, SafeLine (trim isCfgSpace line) := by
  constructor
  · rintro ⟨comp, parsed, rest⟩
    exact ⟨not_blank_of_parsed parsed, safe_of_sameTree conf ⟨comp, parsed, rest⟩⟩
  · rintro ⟨notBlank, safe⟩
    exact sameTree_of_safe conf notBlank safe

end Trees

def peerConf : List Char := "# a peer\npeer b \x7b\n\taddress = 10.0.0.1;\n\x7d\n".toList

private theorem merlinConf_peerConf : MerlinConf peerConf where
  ascii := all_iff_forall_prop.mp (by decide)
  grammar := by
    have isLines : (lines '\n' peerConf).map (trim isCfgSpace) =
        ["# a peer".toList, "peer b".toList ++ [' '] ++ ['{'], "address = 10.0.0.1;".toList,
          ['}']] := by decide
    have conf : ∀ line ∈ ["# a peer".toList, "peer b".toList ++ [' '] ++ ['{'],
        "address = 10.0.0.1;".toList, ['}']], ConfLine line := by
      simp only [forall_mem_cons]
      exact ⟨.comment _, .start _ _ (by decide) (by decide),
        .var "address".toList [' '] [' '] "10.0.0.1;".toList
          (all_iff_forall_prop.mp (by decide)) (by decide) (by decide) (by decide)
          (by decide), .close, fun _ => nofun⟩
    rw [← isLines, forall_mem_map] at conf
    exact conf
  balanced := by decide

theorem sameTree_peer : MerlinConf peerConf ∧ SameTree "merlin.conf".toList peerConf :=
  ⟨merlinConf_peerConf, (sameTree_iff merlinConf_peerConf).mpr ⟨by decide, by decide⟩⟩

theorem not_sameTree_semicolon :
    MerlinConf "k = v ;\n".toList ∧
      cfgParseFile ['f'] "k = v ;\n".toList = .ok (.node ['f'] [⟨['k'], some ['v']⟩] []) ∧
      (parseConf ['f'] "k = v ;\n".toList).current = .node ['f'] [⟨['k'], some ['v', ' ']⟩] [] ∧
      ¬SameTree ['f'] "k = v ;\n".toList := by
  refine ⟨⟨all_iff_forall_prop.mp (by decide), ?_, by decide⟩, rfl, rfl, ?_⟩
  · intro line member
    obtain rfl : line = "k = v ;".toList := mem_singleton.mp member
    exact .var ['k'] [' '] [' '] "v ;".toList (all_iff_forall_prop.mp (by decide))
      (by decide) (by decide) (by decide) (by decide)
  · rintro ⟨comp, parsed, -, items, -⟩
    rw [← Except.ok.inj parsed] at items
    exact absurd items (by decide)

end MonitorMerlin
