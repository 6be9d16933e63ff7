import MonitorMerlin.Config.Cfgfile

/-! # The configuration parser of the tools -/

namespace MonitorMerlin

open Lines List Nesting Trim

def isPySpace (char : Char) : Bool :=
  char == ' ' || 9 ≤ char.toNat && char.toNat ≤ 13 || 28 ≤ char.toNat && char.toNat ≤ 31

def universalNewlines : List Char → List Char
  | [] => []
  | char :: text =>
    if char = '\r' then
      if text.head? = some '\n' then universalNewlines text else '\n' :: universalNewlines text
    else
      char :: universalNewlines text

def confVar (line : List Char) : ConfigVar :=
  if '=' ∈ line then
    let value := ((line.dropWhile fun char => char != '=').tail.dropWhile isPySpace).rdropWhile
      fun char => char == ';'
    ⟨(line.takeWhile fun char => char != '=').rdropWhile isPySpace, some value⟩
  else
    ⟨line, none⟩

def confEvent (nested : Bool) (line : List Char) : ConfigEvent :=
  if line.head? = some '}' ∧ nested then
    .close
  else if line.getLast? = some '{' then
    .start (trim isPySpace line.dropLast)
  else
    .item (confVar line)

def isSilent (line : List Char) : Bool := line = [] ∨ line.head? = some '#'

theorem isSilent_eq_false_iff {line : List Char} :
    isSilent line = false ↔ line ≠ [] ∧ line.head? ≠ some '#' := by
  rw [isSilent, decide_eq_false_iff_not, not_or]

def confStep (cur : Cursor (List Char) ConfigVar) (line : List Char) :
    Cursor (List Char) ConfigVar :=
  (cur.step (confEvent (cur.parents ≠ []) line)).getD cur

def parseConfLine (cur : Cursor (List Char) ConfigVar) (line : List Char) :
    Cursor (List Char) ConfigVar :=
  let line := trim isPySpace line
  if isSilent line then cur else confStep cur line

/-- `parse_conf`. -/
def parseConf (path text : List Char) : Cursor (List Char) ConfigVar :=
  (lines '\n' (universalNewlines text)).foldl parseConfLine ⟨.node path [] [], []⟩

def heard (text : List Char) : List (List Char) :=
  ((lines '\n' (universalNewlines text)).map (trim isPySpace)).filter fun line => !isSilent line

theorem foldl_parseConfLine (texts : List (List Char)) (cur : Cursor (List Char) ConfigVar) :
    texts.foldl parseConfLine cur =
      ((texts.map (trim isPySpace)).filter fun line => !isSilent line).foldl confStep cur := by
  induction texts generalizing cur with
  | nil => rfl
  | cons line texts ih =>
    rw [foldl_cons, map_cons, ih, parseConfLine]
    cases silent : isSilent (trim isPySpace line) with
    | true => rw [filter_cons_of_neg (by rw [silent]; decide), if_pos rfl]
    | false => rw [filter_cons_of_pos (by rw [silent]; rfl), foldl_cons, if_neg Bool.false_ne_true]

theorem parseConf_eq (path text : List Char) :
    parseConf path text = (heard text).foldl confStep ⟨.node path [] [], []⟩ :=
  foldl_parseConfLine _ _

variable {piece rest first second : List Char} {char : Char}

private theorem universalNewlines_piece (noReturn : '\r' ∉ piece) (rest : List Char) :
    universalNewlines (piece ++ rest) = piece ++ universalNewlines rest := by
  induction piece with
  | nil => rfl
  | cons char piece ih =>
    rw [mem_cons, not_or] at noReturn
    rw [cons_append, universalNewlines, if_neg (Ne.symm noReturn.1), ih noReturn.2]
    rfl

def endsPyLine (char : Char) : Bool := char == '\n' || char == '\r'

def heardPiece (piece : List Char) : List (List Char) :=
  [trim isPySpace piece].filter fun line => !isSilent line

theorem heard_newline (noNewline : '\n' ∉ piece) (noReturn : '\r' ∉ piece) (rest : List Char) :
    heard (piece ++ '\n' :: rest) = heardPiece piece ++ heard rest := by
  rw [heard, universalNewlines_piece noReturn, universalNewlines, if_neg (by decide),
    lines_line noNewline, map_cons, ← singleton_append, filter_append]
  rfl

private theorem heardPiece_nil : heardPiece [] = [] := rfl

theorem heard_return (noNewline : '\n' ∉ piece) (noReturn : '\r' ∉ piece) (rest : List Char) :
    heard (piece ++ '\r' :: rest) = heardPiece piece ++ heard rest := by
  by_cases newline : rest.head? = some '\n'
  · obtain ⟨rest, rfl⟩ : ∃ more, rest = '\n' :: more := head?_eq_some_iff.mp newline
    have skipped : universalNewlines (piece ++ '\r' :: '\n' :: rest) =
        universalNewlines (piece ++ '\n' :: rest) := by
      rw [universalNewlines_piece noReturn, universalNewlines_piece noReturn, universalNewlines,
        if_pos rfl, if_pos newline, universalNewlines, if_neg (by decide)]
    have empty : heard ([] ++ '\n' :: rest) = heardPiece [] ++ heard rest :=
      heard_newline not_mem_nil not_mem_nil rest
    rw [heardPiece_nil, nil_append, nil_append] at empty
    rw [heard, skipped, empty]
    exact heard_newline noNewline noReturn rest
  · have same : universalNewlines (piece ++ '\r' :: rest) =
        piece ++ '\n' :: universalNewlines rest := by
      rw [universalNewlines_piece noReturn, universalNewlines, if_pos rfl, if_neg newline]
    rw [heard, same, lines_line noNewline, map_cons, ← singleton_append, filter_append]
    rfl

theorem heard_single (noNewline : '\n' ∉ piece) (noReturn : '\r' ∉ piece) :
    heard piece = heardPiece piece := by
  have same := universalNewlines_piece noReturn []
  rw [append_nil, universalNewlines, append_nil] at same
  by_cases empty : piece = []
  · rw [empty]
    rfl
  · rw [heard, same, lines_single empty noNewline]
    rfl

theorem heard_break (ends : endsPyLine char = true) (noNewline : '\n' ∉ piece)
    (noReturn : '\r' ∉ piece) (rest : List Char) :
    heard (piece ++ char :: rest) = heardPiece piece ++ heard rest := by
  have ended : char = '\n' ∨ char = '\r' := by
    simpa [endsPyLine] using ends
  rcases ended with rfl | rfl
  · exact heard_newline noNewline noReturn rest
  · exact heard_return noNewline noReturn rest

theorem pieces_induction {motive : List Char → Prop}
    (last : ∀ piece, '\n' ∉ piece → '\r' ∉ piece → motive piece)
    (line : ∀ piece char rest, '\n' ∉ piece → '\r' ∉ piece → endsPyLine char = true →
      motive rest → motive (piece ++ char :: rest))
    (text : List Char) : motive text := by
  induction isLength : text.length using Nat.strong_induction_on generalizing text with
  | _ length ih =>
    have parts := takeWhile_append_dropWhile (p := fun char => !endsPyLine char) (l := text)
    have noNewline : '\n' ∉ text.takeWhile fun char => !endsPyLine char :=
      fun member => absurd (mem_takeWhile_imp member) (by decide)
    have noReturn : '\r' ∉ text.takeWhile fun char => !endsPyLine char :=
      fun member => absurd (mem_takeWhile_imp member) (by decide)
    cases dropped : text.dropWhile fun char => !endsPyLine char with
    | nil =>
      rw [dropped, append_nil] at parts
      rw [← parts]
      exact last _ noNewline noReturn
    | cons char rest =>
      have ends := head?_dropWhile_not (fun char => !endsPyLine char) text
      rw [dropped] at parts ends
      rw [← parts, length_append, length_cons] at isLength
      rw [← parts]
      exact line _ char rest noNewline noReturn (by simpa using ends)
        (ih rest.length (by omega) rest rfl)

theorem heard_append (ends : endsPyLine char = true) (first second : List Char) :
    heard (first ++ char :: second) = heard first ++ heard second := by
  induction first using pieces_induction with
  | last piece noNewline noReturn =>
    rw [heard_break ends noNewline noReturn, heard_single noNewline noReturn]
  | line piece next rest noNewline noReturn nextEnds ih =>
    rw [append_assoc, cons_append, heard_break nextEnds noNewline noReturn,
      heard_break nextEnds noNewline noReturn, ih, append_assoc]

section

variable (space : isCfgSpace char = true)

include space

theorem isPySpace_of_isCfgSpace : isPySpace char = true := by
  simp only [isCfgSpace, Bool.or_eq_true, beq_iff_eq] at space
  rcases space with (rfl | rfl) | rfl
  · rfl
  · rfl
  · rfl

private theorem blank_singleton : Blank isPySpace [char] := by
  intro element member
  rw [mem_singleton.mp member]
  exact isPySpace_of_isCfgSpace space

private theorem notMem_cons_of_blank (noReturn : char ≠ '\r') (pieceNewline : '\n' ∉ piece)
    (pieceReturn : '\r' ∉ piece) : '\n' ∉ char :: piece ∧ '\r' ∉ char :: piece := by
  have noNewline : char ≠ '\n' := by
    rintro rfl
    exact absurd space (by decide)
  rw [mem_cons, mem_cons, not_or, not_or]
  exact ⟨⟨Ne.symm noNewline, pieceNewline⟩, ⟨Ne.symm noReturn, pieceReturn⟩⟩

private theorem heard_cons_blank (text : List Char) : heard (char :: text) = heard text := by
  by_cases isReturn : char = '\r'
  · rw [isReturn]
    exact heard_append rfl [] text
  · have shorter : ∀ piece, heardPiece (char :: piece) = heardPiece piece := by
      intro piece
      have same := trim_around (blank_singleton space) blank_nil piece
      rw [append_nil] at same
      rw [heardPiece, heardPiece, ← same]
      rfl
    cases text using pieces_induction with
    | last piece noNewline noReturn =>
      obtain ⟨allNewline, allReturn⟩ := notMem_cons_of_blank space isReturn noNewline noReturn
      rw [heard_single allNewline allReturn, heard_single noNewline noReturn, shorter]
    | line piece next rest noNewline noReturn nextEnds =>
      obtain ⟨allNewline, allReturn⟩ := notMem_cons_of_blank space isReturn noNewline noReturn
      rw [← cons_append, heard_break nextEnds allNewline allReturn,
        heard_break nextEnds noNewline noReturn, shorter]

private theorem heard_concat_blank (text : List Char) : heard (text ++ [char]) = heard text := by
  by_cases isReturn : char = '\r'
  · rw [isReturn, heard_append rfl text []]
    exact append_nil _
  · induction text using pieces_induction with
    | last piece noNewline noReturn =>
      obtain ⟨allNewline, allReturn⟩ := notMem_cons_of_blank space isReturn noNewline noReturn
      have same := trim_around blank_nil (blank_singleton space) piece
      rw [nil_append] at same
      rw [heard_single, heard_single noNewline noReturn, heardPiece, same]
      · rfl
      · simpa using And.comm.mp (not_or.mp (by simpa using allNewline))
      · simpa using And.comm.mp (not_or.mp (by simpa using allReturn))
    | line piece next rest noNewline noReturn nextEnds ih =>
      rw [append_assoc, cons_append, heard_break nextEnds noNewline noReturn,
        heard_break nextEnds noNewline noReturn, ih]

end

theorem heard_blank_append {front : List Char} (blank : Blank isCfgSpace front)
    (text : List Char) : heard (front ++ text) = heard text := by
  induction front with
  | nil => rfl
  | cons char front ih =>
    rw [cons_append, heard_cons_blank (blank char mem_cons_self)]
    exact ih fun element member => blank element (mem_cons_of_mem _ member)

theorem heard_append_blank {back : List Char} (blank : Blank isCfgSpace back)
    (text : List Char) : heard (text ++ back) = heard text := by
  induction back using reverseRecOn with
  | nil => rw [append_nil]
  | append_singleton back char ih =>
    rw [← append_assoc, heard_concat_blank (blank char (by simp)),
      ih fun element member => blank element (by simp [member])]

theorem heard_trim (line : List Char) : heard (trim isCfgSpace line) = heard line := by
  obtain ⟨front, back, isLine, blankFront, blankBack⟩ := exists_trim isCfgSpace line
  conv_rhs => rw [isLine, heard_append_blank blankBack, heard_blank_append blankFront]

theorem heard_lines (text : List Char) : heard text = (lines '\n' text).flatMap heard := by
  induction isLength : text.length using Nat.strong_induction_on generalizing text with
  | _ length ih =>
    by_cases empty : text = []
    · rw [empty]
      rfl
    · obtain ⟨line, after, rfl, whole, ends, isLines⟩ := exists_frontLine empty
      rw [isLines, flatMap_cons]
      cases after with
      | nil =>
        rw [append_nil]
        exact (append_nil _).symm
      | cons newline rest =>
        obtain rfl := ends newline rfl
        rw [heard_append rfl, tail_cons, ← ih rest.length _ rest rfl]
        rw [← isLength, length_append, length_cons]
        omega

structure HeardLine (line : List Char) : Prop where
  oneLine : '\n' ∉ line ∧ '\r' ∉ line
  starts : StartsFull isPySpace line
  ends : EndsFull isPySpace line
  loud : isSilent line = false

theorem heardLine_of_mem {text line : List Char} (member : line ∈ heard text) : HeardLine line := by
  have ofPiece : ∀ {piece}, '\n' ∉ piece → '\r' ∉ piece → line ∈ heardPiece piece →
      HeardLine line := by
    intro piece noNewline noReturn member
    rw [heardPiece, mem_filter, mem_singleton] at member
    obtain ⟨rfl, loud⟩ := member
    obtain ⟨front, back, isPiece, -, -⟩ := exists_trim isPySpace piece
    have part : ∀ {char}, char ∈ trim isPySpace piece → char ∈ piece := by
      intro char isChar
      rw [isPiece]
      exact mem_append_left _ (mem_append_right _ isChar)
    exact ⟨⟨fun isNewline => noNewline (part isNewline), fun isReturn => noReturn (part isReturn)⟩,
      startsFull_trim _ _, endsFull_trim _ _, by simpa using loud⟩
  induction text using pieces_induction with
  | last piece noNewline noReturn =>
    rw [heard_single noNewline noReturn] at member
    exact ofPiece noNewline noReturn member
  | line piece next rest noNewline noReturn nextEnds ih =>
    rw [heard_break nextEnds noNewline noReturn, mem_append] at member
    exact member.elim (ofPiece noNewline noReturn) ih

end MonitorMerlin
