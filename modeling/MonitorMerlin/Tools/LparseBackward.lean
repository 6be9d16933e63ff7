import MonitorMerlin.Tools.LparseForward

/-! # Reading a log backward -/

namespace MonitorMerlin

open ByteImage Lines List

theorem parseBack_ended {first bytesRd fuel blkparsed eol : Nat} (buf : Bytes)
    (parsed : List Bytes) (ended : bytesRd ≤ blkparsed) :
    parseBack first bytesRd (fuel + 1) blkparsed eol buf parsed = some (buf, parsed) := by
  rw [parseBack, if_neg (Nat.not_lt.mpr ended)]

theorem lineLength_reverse {before line : Bytes} (whole : newline ∉ line) :
    lineLength (before ++ newline :: line).reverse = line.length := by
  rw [reverse_append, reverse_cons, append_assoc, singleton_append,
    lineLength_append (fun member => whole (mem_reverse.mp member)), length_reverse]

variable {last : UInt8} {parsed : List Bytes} {content buf : Bytes}

theorem parseBack_line {bytesRd fuel blkparsed left : Nat} {front before line rest : Bytes}
    (whole : newline ∉ line) (isLeft : before = [] ∧ left = 0 ∧ line ≠ [] ∨
      ∃ more, before = more ++ [newline] ∧ left = more.length)
    (remains : bytesRd = blkparsed + (before ++ line).length) :
    parseBack front.length bytesRd (fuel + 1) blkparsed (front.length + (before ++ line).length)
        (front ++ (before ++ line) ++ last :: rest) parsed =
      parseBack front.length bytesRd fuel (blkparsed + line.length + 1) (front.length + left)
        (front ++ (before ++ line) ++ 0 :: rest) (parsed ++ [line]) := by
  have more : blkparsed < bytesRd := by
    rw [length_append] at remains
    rcases isLeft with ⟨-, -, notEmpty⟩ | ⟨more, rfl, -⟩
    · have := length_pos_iff.mpr notEmpty
      omega
    · rw [length_append, length_singleton] at remains
      omega
  have window : ByteImage.load (front ++ (before ++ line) ++ last :: rest) front.length
      (bytesRd - blkparsed) = some (before ++ line) := by
    rw [remains, Nat.add_sub_cancel_left, load_append]
  have written : store (front ++ (before ++ line) ++ last :: rest)
      (front.length + (before ++ line).length) [0] =
      some (front ++ (before ++ line) ++ 0 :: rest) := by
    rw [← length_append, append_cons _ last, append_cons _ 0]
    exact store_append _ rest rfl
  have text : slice (front ++ (before ++ line) ++ 0 :: rest) (front.length + before.length)
      line.length = line := by
    rw [← length_append, ← append_assoc front before, slice_append_middle]
  have len : front.length + (before ++ line).length - (front.length + before.length) =
      line.length := by
    rw [length_append]
    omega
  rw [parseBack, if_pos more, window, Option.bind_eq_bind, Option.bind_some]
  dsimp only
  rw [written, Option.bind_some]
  rcases isLeft with ⟨rfl, rfl, -⟩ | ⟨more, rfl, rfl⟩
  · rw [nil_append] at text len ⊢
    rw [if_neg whole, if_neg whole]
    rw [length_nil, Nat.add_zero] at text len
    rw [len, text]
    rfl
  · have inside : newline ∈ more ++ [newline] ++ line := by simp
    have isReverse : lineLength (more ++ [newline] ++ line).reverse = line.length := by
      rw [← append_cons, lineLength_reverse whole]
    have cur : front.length + ((more ++ [newline] ++ line).length - line.length - 1) =
        front.length + more.length := by
      rw [length_append, length_append, length_singleton]
      omega
    have start : front.length + more.length + 1 = front.length + (more ++ [newline]).length := by
      rw [length_append, length_singleton]
      omega
    rw [if_pos inside, if_pos inside, isReverse, cur, start, len, text]

theorem parseBack_lines {bytesRd fuel blkparsed : Nat} (front body behind : Bytes)
    (parsed : List Bytes) (room : behind ≠ []) (remains : bytesRd = blkparsed + body.length)
    (enough : body.length < fuel) :
    ∃ buf passed, buf.length = (front ++ body ++ behind).length ∧
      parseBack front.length bytesRd fuel blkparsed (front.length + body.length)
        (front ++ body ++ behind) parsed = some (buf, parsed ++ passed) ∧
      passed.filter (· ≠ []) = (nonempty newline body).reverse := by
  induction fuel generalizing blkparsed body behind parsed with
  | zero => exact absurd enough (Nat.not_lt_zero _)
  | succ fuel ih =>
    obtain ⟨last, rest, rfl⟩ := exists_cons_of_ne_nil room
    by_cases inside : newline ∈ body
    · obtain ⟨before, line, rfl, whole⟩ := exists_last_separator inside
      have parts : before ++ newline :: line = before ++ [newline] ++ line :=
        append_cons before newline line
      rw [parts] at remains enough ⊢
      rw [parseBack_line whole (.inr ⟨before, rfl, rfl⟩) remains]
      simp only [length_append, length_singleton] at remains enough
      have left : bytesRd = blkparsed + line.length + 1 + before.length := by
        omega
      obtain ⟨buf, passed, sameLength, parsedRest, isPassed⟩ :=
        ih before (newline :: (line ++ 0 :: rest)) (parsed ++ [line]) (cons_ne_nil _ _) left
          (by omega)
      have buffer : front ++ (before ++ [newline] ++ line) ++ 0 :: rest =
          front ++ before ++ newline :: (line ++ 0 :: rest) := by
        simp
      refine ⟨buf, line :: passed, ?_, ?_, ?_⟩
      · rw [sameLength]
        simp
      · rw [buffer, parsedRest]
        simp
      · rw [nonempty_append (closed_append_separator before), nonempty_concat,
          nonempty_single whole, reverse_append, ← isPassed, filter_cons]
        by_cases empty : line = []
        · simp [empty]
        · simp [empty]
    · by_cases empty : body = []
      · refine ⟨_, [], rfl, ?_, ?_⟩
        · rw [parseBack_ended _ _ (by rw [remains, empty]; simp), append_nil]
        · rw [empty]
          rfl
      · cases fuel with
        | zero =>
          have := length_pos_iff.mpr empty
          omega
        | succ fuel =>
          refine ⟨front ++ body ++ 0 :: rest, [body], by simp, ?_, ?_⟩
          · refine (parseBack_line inside (.inl ⟨rfl, rfl, empty⟩) remains).trans ?_
            exact parseBack_ended _ _ (by omega)
          · rw [nonempty_single inside]
            simp [empty]

theorem firstLine_le (size totRd : Nat) (data : Bytes) :
    firstLine size totRd data ≤ data.length := by
  unfold firstLine
  split
  · split
    · rename_i inside
      obtain ⟨line, rest, rfl, whole⟩ := eq_append_cons_of_mem inside
      rw [lineLength_append whole, length_append, length_cons]
      omega
    · exact Nat.zero_le _
  · exact Nat.zero_le _

theorem exists_body {text stale : Bytes} (room : stale ≠ [])
    (isLast : text.getLast? = some last ∨ text = []) :
    ∃ body behind, text ++ stale = body ++ behind ∧ behind ≠ [] ∧
      (if last = newline then text.length - 1 else text.length) = body.length ∧
      nonempty newline body = nonempty newline text := by
  rcases isLast with isLast | rfl
  · by_cases isNewline : last = newline
    · have parts : text = text.dropLast ++ [newline] := by
        rw [← isNewline]
        exact (dropLast_append_getLast? last isLast).symm
      refine ⟨text.dropLast, newline :: stale, ?_, cons_ne_nil _ _, ?_, ?_⟩
      · rw [append_cons, ← parts]
      · rw [if_pos isNewline, length_dropLast]
      · rw [parts, nonempty_concat, dropLast_concat]
    · exact ⟨text, stale, rfl, room, by rw [if_neg isNewline], rfl⟩
  · refine ⟨[], stale, rfl, room, ?_, rfl⟩
    split
    · rfl
    · rfl

theorem backwardTurn_eq {content : Bytes} {size : Nat} {reader : LogReader} {limit : Nat}
    {data : Bytes}
    (read : readSome content (size - reader.totRd - toRead size reader.totRd)
      (toRead size reader.totRd) limit = data)
    (room : reader.buf.length = maxBuf + 1) (notEmpty : data ≠ []) (short : data.length ≤ maxBuf) :
    ∃ next passed, backwardTurn content size reader (some limit) = some next ∧
      next.totRd = reader.totRd + (data.length - firstLine size reader.totRd data) ∧
      next.buf.length = maxBuf + 1 ∧ next.failed = reader.failed ∧
      next.parsed = reader.parsed ++ passed ∧
      passed.filter (· ≠ []) =
        (nonempty newline (data.drop (firstLine size reader.totRd data))).reverse := by
  have firstLe := firstLine_le size reader.totRd data
  rw [backwardTurn]
  dsimp only
  rw [read, store_front (by omega)]
  generalize firstLine size reader.totRd data = first at firstLe ⊢
  have stale : reader.buf.drop data.length ≠ [] := by
    rw [ne_eq, drop_eq_nil_iff]
    omega
  have parts : data.take first ++ data.drop first = data := take_append_drop first data
  have headLength : (data.take first).length = first := by
    rw [length_take, Nat.min_eq_left firstLe]
  have lastRead : (data ++ reader.buf.drop data.length)[data.length - 1]? = data.getLast? := by
    rw [getElem?_append_left (by have := length_pos_iff.mpr notEmpty; omega), getLast?_eq_getElem?]
  obtain ⟨last, isLast⟩ : ∃ last, data.getLast? = some last :=
    ⟨_, getLast?_eq_some_getLast notEmpty⟩
  have lastOfRest : (data.drop first).getLast? = some last ∨ data.drop first = [] := by
    by_cases empty : data.drop first = []
    · exact .inr empty
    · left
      rw [← isLast, ← parts, getLast?_append_of_ne_nil _ empty, parts]
  obtain ⟨body, behind, isBody, roomBehind, bodyLength, sameLines⟩ := exists_body stale lastOfRest
  obtain ⟨buf, passed, sameLength, delivered, isPassed⟩ :=
    parseBack_lines (data.take first) body behind reader.parsed roomBehind
      (Nat.zero_add _).symm (Nat.lt_succ_self _)
  have buffer : data ++ reader.buf.drop data.length = data.take first ++ body ++ behind := by
    rw [append_assoc, ← isBody, ← append_assoc, parts]
  rw [length_drop] at bodyLength
  simp only [Option.bind_eq_bind, Option.bind_some]
  rw [if_neg (by rw [length_eq_zero_iff]; exact notEmpty), lastRead, isLast, Option.bind_some,
    bodyLength, buffer]
  rw [headLength] at delivered
  rw [delivered]
  refine ⟨_, passed, rfl, rfl, ?_, rfl, rfl, ?_⟩
  · rw [← room, sameLength, ← buffer]
    simp only [length_append, length_drop]
    omega
  · rw [isPassed, sameLines]

section FirstLine

variable {size totRd : Nat} {data : Bytes}

theorem firstLine_of_newline (partly : totRd + data.length < size)
    (inside : newline ∈ data.dropLast) :
    ∃ line rest, data = line ++ newline :: rest ∧ rest ≠ [] ∧
      firstLine size totRd data = (line ++ [newline]).length := by
  obtain ⟨line, more, isFront, whole⟩ := eq_append_cons_of_mem inside
  have notEmpty : data ≠ [] := by
    intro empty
    rw [empty] at inside
    cases inside
  have parts : data = line ++ newline :: (more ++ [data.getLast notEmpty]) := by
    rw [← cons_append, ← append_assoc, ← isFront, dropLast_concat_getLast]
  refine ⟨line, _, parts, by simp, ?_⟩
  have isLength := lineLength_append whole (more ++ [data.getLast notEmpty])
  rw [← parts] at isLength
  rw [firstLine, if_pos partly, if_pos (dropLast_subset data inside), isLength,
    length_append, length_singleton]

theorem firstLine_eq_length (partly : totRd + data.length < size) (inside : newline ∈ data)
    (notBefore : newline ∉ data.dropLast) : firstLine size totRd data = data.length := by
  obtain ⟨line, rest, rfl, whole⟩ := eq_append_cons_of_mem inside
  have ends : rest = [] := by
    by_contra notEmpty
    apply notBefore
    rw [dropLast_append_of_ne_nil (cons_ne_nil _ _), dropLast_cons_of_ne_nil notEmpty]
    simp
  rw [firstLine, if_pos partly, if_pos inside, lineLength_append whole, ends, length_append,
    length_singleton]

end FirstLine

def MovesBack (content : Bytes) (totRd : Nat) (answer : Option Nat) : Prop :=
  ∀ limit, answer = some limit →
    let data := readSome content (content.length - totRd - toRead content.length totRd)
      (toRead content.length totRd) limit
    totRd + data.length < content.length → newline ∈ data → newline ∈ data.dropLast

structure ReadBackward (content : Bytes) (reader : LogReader) : Prop where
  room : reader.buf.length = maxBuf + 1
  inside : reader.totRd ≤ content.length
  fine : reader.failed = false

section Backward

variable {reader : LogReader} {limit size totRd : Nat}

theorem toRead_pos (more : totRd < size) : 0 < toRead size totRd := by
  unfold toRead
  split
  · decide
  · omega

theorem toRead_le (more : totRd < size) :
    toRead size totRd ≤ maxBuf ∧ toRead size totRd ≤ size - totRd := by
  unfold toRead
  split
  · omega
  · omega

section

variable (backward : ReadBackward content reader) (more : reader.totRd < content.length)

include backward more

theorem ReadBackward.turn {data : Bytes}
    (read : readSome content (content.length - reader.totRd - toRead content.length reader.totRd)
      (toRead content.length reader.totRd) limit = data) :
    data ≠ [] ∧ ∃ next passed, backwardTurn content content.length reader (some limit) = some next ∧
      ReadBackward content next ∧
      next.totRd = reader.totRd + (data.length - firstLine content.length reader.totRd data) ∧
      next.parsed = reader.parsed ++ passed ∧
      passed.filter (· ≠ []) =
        (nonempty newline (data.drop (firstLine content.length reader.totRd data))).reverse := by
  have bounds := toRead_le more
  have asked := toRead_pos more
  have notEmpty : data ≠ [] := by
    rw [← read, ← length_pos_iff]
    exact readSome_length_pos (by omega) asked
  have short : data.length ≤ toRead content.length reader.totRd := by
    rw [← read]
    exact readSome_length_le
  obtain ⟨next, passed, turned, isNext, room, fine, isParsed, isPassed⟩ :=
    backwardTurn_eq read backward.room notEmpty (short.trans bounds.1)
  refine ⟨notEmpty, next, passed, turned, ⟨room, ?_, fine.trans backward.fine⟩, isNext, isParsed,
    isPassed⟩
  omega

theorem ReadBackward.turn_moves (moves : MovesBack content reader.totRd (some limit)) :
    ∃ next, backwardTurn content content.length reader (some limit) = some next ∧
      ReadBackward content next ∧ reader.totRd < next.totRd := by
  obtain ⟨notEmpty, next, passed, turned, backwardNext, isNext, -, -⟩ := backward.turn more rfl
  refine ⟨next, turned, backwardNext, ?_⟩
  have found := moves limit rfl
  dsimp only at found
  generalize readSome content (content.length - reader.totRd - toRead content.length reader.totRd)
    (toRead content.length reader.totRd) limit = data at *
  have length := length_pos_iff.mpr notEmpty
  rw [isNext]
  by_cases partly : reader.totRd + data.length < content.length
  · by_cases inside : newline ∈ data
    · obtain ⟨line, rest, isData, isRest, isFirst⟩ :=
        firstLine_of_newline partly (found partly inside)
      have restLength := length_pos_iff.mpr isRest
      rw [isFirst]
      rw [isData]
      simp only [length_append, length_cons, length_nil]
      omega
    · rw [firstLine, if_pos partly, if_neg inside]
      omega
  · rw [firstLine, if_neg partly]
    omega

theorem ReadBackward.turn_stays (stuck : ¬ MovesBack content reader.totRd (some limit)) :
    ∃ next, backwardTurn content content.length reader (some limit) = some next ∧
      ReadBackward content next ∧ next.totRd = reader.totRd := by
  obtain ⟨notEmpty, next, passed, turned, backwardNext, isNext, -, -⟩ := backward.turn more rfl
  refine ⟨next, turned, backwardNext, ?_⟩
  unfold MovesBack at stuck
  simp only [Option.some.injEq, forall_eq', not_forall] at stuck
  obtain ⟨partly, inside, notBefore⟩ := stuck
  rw [isNext, firstLine_eq_length partly inside notBefore, Nat.sub_self, Nat.add_zero]

end

end Backward

section Termination

variable (content) (limits : Nat → Nat)

def ForwardReads (buf : Bytes) : Prop :=
  ∀ count reader,
    Loop.after (LogReader.GoesOn content.length) (forwardTurn content content.length)
      (fun read => some (limits read)) (.start buf) count = some reader →
    reader.GoesOn content.length → FindsNewline content reader (some (limits count))

def BackwardReads (buf : Bytes) : Prop :=
  ∀ count reader,
    Loop.after (LogReader.GoesOn content.length) (backwardTurn content content.length)
      (fun read => some (limits read)) (.start buf) count = some reader →
    reader.GoesOn content.length →
    ∃ more, MovesBack content reader.totRd (some (limits (count + more)))

variable {content limits}

theorem lparseFd_ends_iff (room : buf.length = maxBuf + 1) :
    (∃ final, LparseFd content content.length (fun read => some (limits read)) buf final) ↔
      ForwardReads content limits buf := by
  apply Loop.endsIn_iff_allowed (ReadForward content)
    (fun reader => content.length - reader.totRd) (FindsNewline content)
  · intro reader count forward goesOn finds
    obtain ⟨next, turned, forwardNext, further⟩ := forward.turn goesOn.1 finds
    have more := goesOn.1
    exact ⟨next, turned, forwardNext, by omega⟩
  · intro reader count forward goesOn misses
    exact forward.turn_fails misses
  · exact readForward_start content room

theorem lparseRevFd_ends_iff (room : buf.length = maxBuf + 1) :
    (∃ final, LparseRevFd content content.length (fun read => some (limits read)) buf final) ↔
      BackwardReads content limits buf := by
  refine Loop.endsIn_iff_helps LogReader.totRd (MovesBack content) (ReadBackward content)
    ?_ ?_ (fun totRd => content.length - totRd) ?_ ?_
  · intro first second _ backward same goesOn
    exact ⟨same ▸ goesOn.1, backward.fine⟩
  · intro reader count backward goesOn stuck
    exact backward.turn_stays goesOn.1 stuck
  · intro reader count backward goesOn moves
    obtain ⟨next, turned, backwardNext, further⟩ := backward.turn_moves goesOn.1 moves
    have more := goesOn.1
    exact ⟨next, turned, backwardNext, by omega⟩
  · exact ⟨room, Nat.zero_le _, rfl⟩

/-- Both functions end without leaving the buffer exactly when every read forward
finds a newline and no read backward is repeated for ever. -/
theorem lparse_ends_iff (content buf revBuf : Bytes) (limits revLimits : Nat → Nat)
    (room : buf.length = maxBuf + 1) (revRoom : revBuf.length = maxBuf + 1) :
    ((∃ final, LparseFd content content.length (fun read => some (limits read)) buf final) ∧
      ∃ final, LparseRevFd content content.length (fun read => some (revLimits read)) revBuf
        final) ↔
      ForwardReads content limits buf ∧ BackwardReads content revLimits revBuf :=
  and_congr (lparseFd_ends_iff room) (lparseRevFd_ends_iff revRoom)

end Termination

section Reverse

variable {reader : LogReader} {limit : Nat}

/-- What was read from the end is passed on. -/
structure PassedBackward (content : Bytes) (reader : LogReader) : Prop
    extends ReadBackward content reader where
  passed : reader.parsed.filter (· ≠ []) =
    (nonempty newline (content.drop (content.length - reader.totRd))).reverse
  closed : 0 < reader.totRd → Closed newline (content.take (content.length - reader.totRd))

theorem exists_block_before (more : reader.totRd < content.length) (complete : maxBuf ≤ limit) :
    ∃ before data, content.take (content.length - reader.totRd) = before ++ data ∧
      data.length = toRead content.length reader.totRd ∧
      readSome content (content.length - reader.totRd - toRead content.length reader.totRd)
        (toRead content.length reader.totRd) limit = data := by
  have bounds := toRead_le more
  have asked := toRead_pos more
  refine ⟨_, _, (take_append_drop
    (content.length - reader.totRd - toRead content.length reader.totRd) _).symm, ?_, ?_⟩
  · rw [length_drop, length_take]
    omega
  · rw [readSome, drop_take]
    congr 1
    omega

theorem newline_mem_dropLast (more : reader.totRd < content.length)
    (short : ∀ piece ∈ pieces newline content, piece.length < maxBuf) {before data : Bytes}
    (parts : content.take (content.length - reader.totRd) = before ++ data)
    (length : data.length = toRead content.length reader.totRd)
    (partly : reader.totRd + data.length < content.length) : newline ∈ data.dropLast := by
  by_contra absent
  have full : data.length = maxBuf := by
    unfold toRead at length
    split at length
    · exact length
    · omega
  have notEmpty : data ≠ [] := by
    rw [← length_pos_iff, full]
    decide
  obtain ⟨piece, member, long⟩ :=
    exists_piece_of_stretch before (content.drop (content.length - reader.totRd)) notEmpty absent
  rw [← parts, take_append_drop] at member
  have bounded := short piece member
  omega

theorem PassedBackward.turn (backward : PassedBackward content reader)
    (more : reader.totRd < content.length)
    (short : ∀ piece ∈ pieces newline content, piece.length < maxBuf)
    (complete : maxBuf ≤ limit) :
    ∃ next, backwardTurn content content.length reader (some limit) = some next ∧
      PassedBackward content next ∧ reader.totRd < next.totRd := by
  obtain ⟨before, data, parts, length, read⟩ := exists_block_before more complete
  obtain ⟨notEmpty, next, passed, turned, backwardNext, isNext, isParsed, isPassed⟩ :=
    backward.toReadBackward.turn more read
  have asked := toRead_pos more
  have total : (before ++ data).length = content.length - reader.totRd := by
    rw [← parts, length_take]
    omega
  rw [length_append] at total
  /- the block without its first line ends where a line does -/
  obtain ⟨head, rest, isData, isFirst, isRest, headClosed⟩ :
      ∃ head rest, data = head ++ rest ∧
        firstLine content.length reader.totRd data = head.length ∧ rest ≠ [] ∧
        Closed newline (before ++ head) := by
    by_cases partly : reader.totRd + data.length < content.length
    · obtain ⟨line, rest, isData, isRest, isFirst⟩ :=
        firstLine_of_newline partly (newline_mem_dropLast more short parts length partly)
      refine ⟨line ++ [newline], rest, ?_, isFirst, isRest, ?_⟩
      · rw [isData, append_cons]
      · rw [← append_assoc]
        exact closed_append_separator _
    · have isBefore : before = [] := by
        rw [← length_eq_zero_iff]
        omega
      refine ⟨[], data, rfl, ?_, notEmpty, ?_⟩
      · rw [firstLine, if_neg partly]
        rfl
      · rw [isBefore]
        exact closed_nil
  have restLength := length_pos_iff.mpr isRest
  rw [isFirst, isData, length_append] at isNext
  rw [isFirst, isData, drop_left] at isPassed
  rw [isData, length_append] at total
  have whole : before ++ head ++ (rest ++ content.drop (content.length - reader.totRd)) =
      content := by
    rw [← append_assoc, append_assoc before, ← isData, ← parts, take_append_drop]
  have isEnd : (before ++ head).length = content.length - next.totRd := by
    rw [length_append]
    omega
  have isTaken : content.take (content.length - next.totRd) = before ++ head := by
    rw [← isEnd]
    nth_rewrite 1 [← whole]
    exact take_left
  have isDropped : content.drop (content.length - next.totRd) =
      rest ++ content.drop (content.length - reader.totRd) := by
    rw [← isEnd]
    nth_rewrite 1 [← whole]
    exact drop_left
  refine ⟨next, turned, ⟨backwardNext, ?_, fun _ => isTaken ▸ headClosed⟩, by omega⟩
  rw [isParsed, filter_append, backward.passed, isPassed, isDropped, ← reverse_append]
  congr 1
  by_cases atStart : reader.totRd = 0
  · have nothing : content.drop (content.length - reader.totRd) = [] := by
      rw [drop_eq_nil_iff]
      omega
    rw [nothing, append_nil]
    exact append_nil _
  · have restClosed : Closed newline rest := by
      have closed := backward.closed (Nat.pos_of_ne_zero atStart)
      rw [parts, isData, ← append_assoc] at closed
      exact Closed.of_append closed
    exact (nonempty_append restClosed _).symm

end Reverse

theorem lparseRevFd_ends {answers : Nat → Option Nat} (room : buf.length = maxBuf + 1)
    (short : ∀ piece ∈ pieces newline content, piece.length < maxBuf)
    (complete : CompleteReads answers) :
    ∃ final, LparseRevFd content content.length answers buf final ∧
      final.parsed.filter (· ≠ []) = (nonempty newline content).reverse := by
  have ends : ∃ final, LparseRevFd content content.length answers buf final ∧
      PassedBackward content final := by
    apply Loop.endsIn_of_measure (PassedBackward content)
      (fun reader => content.length - reader.totRd)
    · intro count reader _ backward goesOn
      obtain ⟨limit, isAnswer, isComplete⟩ := complete count
      obtain ⟨next, turned, backwardNext, further⟩ := backward.turn goesOn.1 short isComplete
      have more := goesOn.1
      rw [isAnswer]
      exact ⟨next, turned, backwardNext, by omega⟩
    · refine ⟨⟨room, Nat.zero_le _, rfl⟩, ?_, fun started => absurd started (Nat.lt_irrefl _)⟩
      have nothing : content.drop (content.length - (LogReader.start buf).totRd) = [] :=
        drop_eq_nil_iff.mpr (Nat.le_refl _)
      rw [nothing]
      rfl
  obtain ⟨final, ended, backward⟩ := ends
  have stops := ended.choose_spec.2
  have all : content.length ≤ final.totRd := not_lt.mp fun less => stops ⟨less, backward.fine⟩
  refine ⟨final, ended, ?_⟩
  rw [backward.passed, Nat.sub_eq_zero_of_le all, drop_zero]

/-- `lparse_rev_fd` passes the lines on that `lparse_fd` passes on, backward and up
to empty lines. -/
theorem lparseRevFd_reverse (content buf revBuf : Bytes) (answers revAnswers : Nat → Option Nat)
    (room : buf.length = maxBuf + 1) (revRoom : revBuf.length = maxBuf + 1)
    (short : ∀ piece ∈ pieces newline content, piece.length < maxBuf)
    (complete : CompleteReads answers) (revComplete : CompleteReads revAnswers) :
    ∃ final revFinal, LparseFd content content.length answers buf final ∧
      LparseRevFd content content.length revAnswers revBuf revFinal ∧
      revFinal.parsed.filter (· ≠ []) = (final.parsed.filter (· ≠ [])).reverse := by
  obtain ⟨final, ended, forward, all⟩ :=
    lparseFd_ends room (fun piece member => Nat.le_of_lt (short piece member)) complete
  obtain ⟨revFinal, revEnded, isPassed⟩ := lparseRevFd_ends revRoom short revComplete
  refine ⟨final, revFinal, ended, revEnded, ?_⟩
  rw [isPassed, forward.parsed_all all]
  rfl

theorem lparseRevFd_reverse_two :
    ∃ final revFinal,
      LparseFd [97, 10, 10, 98] 4 (fun _ => some maxBuf) (List.replicate (maxBuf + 1) 0) final ∧
      LparseRevFd [97, 10, 10, 98] 4 (fun _ => some maxBuf) (List.replicate (maxBuf + 1) 0)
        revFinal ∧
      revFinal.parsed.filter (· ≠ []) = (final.parsed.filter (· ≠ [])).reverse :=
  lparseRevFd_reverse [97, 10, 10, 98] _ _ (fun _ => some maxBuf) (fun _ => some maxBuf)
    length_replicate length_replicate (by decide) (fun _ => ⟨maxBuf, rfl, Nat.le_refl _⟩)
    fun _ => ⟨maxBuf, rfl, Nat.le_refl _⟩

theorem lparse_ends_short :
    (∃ final, LparseFd [97, 10, 10, 98] 4 (fun _ => some maxBuf)
      (List.replicate (maxBuf + 1) 0) final) ∧
      ∃ final, LparseRevFd [97, 10, 10, 98] 4 (fun _ => some maxBuf)
        (List.replicate (maxBuf + 1) 0) final := by
  have room : (replicate (maxBuf + 1) (0 : UInt8)).length = maxBuf + 1 := length_replicate
  have complete : CompleteReads fun _ => some maxBuf := fun _ => ⟨maxBuf, rfl, Nat.le_refl _⟩
  have short : ∀ piece ∈ pieces newline [97, 10, 10, 98], piece.length < maxBuf := by
    decide
  obtain ⟨final, ended, -⟩ :=
    lparseFd_ends room (fun piece member => Nat.le_of_lt (short piece member)) complete
  obtain ⟨revFinal, revEnded, -⟩ := lparseRevFd_ends room short complete
  have forward := (lparseFd_ends_iff room).mp ⟨final, ended⟩
  have backward := (lparseRevFd_ends_iff room).mp ⟨revFinal, revEnded⟩
  exact (lparse_ends_iff [97, 10, 10, 98] _ _ (fun _ => maxBuf) (fun _ => maxBuf) room room).mpr
    ⟨forward, backward⟩

theorem not_lparseFd_of_long (room : buf.length = maxBuf + 1) (long : maxBuf < content.length)
    (absent : newline ∉ content.take maxBuf) :
    ¬ ∃ final, LparseFd content content.length (fun _ => some maxBuf) buf final := by
  intro ends
  have reads := (lparseFd_ends_iff room).mp ends
  have started : (LogReader.start buf).GoesOn content.length := ⟨Nat.zero_lt_of_lt long, rfl⟩
  have finds := reads 0 (.start buf) rfl started maxBuf rfl
  have isData : readSome content (LogReader.start buf).position
      (if maxBuf < content.length then maxBuf else content.length) maxBuf =
      content.take maxBuf := by
    rw [if_pos long, readSome, Nat.max_eq_right (by decide), Nat.min_self]
    rfl
  rw [isData] at finds
  apply absent
  apply finds
  rw [length_take, Nat.min_eq_left (Nat.le_of_lt long)]
  exact (Nat.zero_add maxBuf).symm ▸ long

theorem not_lparseRevFd_of_long {content buf line : Bytes} (room : buf.length = maxBuf + 1)
    (long : maxBuf < content.length)
    (ends : content.drop (content.length - maxBuf) = line ++ [newline]) (whole : newline ∉ line) :
    ¬ ∃ final, LparseRevFd content content.length (fun _ => some maxBuf) buf final := by
  intro isEnd
  have reads := (lparseRevFd_ends_iff room).mp isEnd
  have started : (LogReader.start buf).GoesOn content.length := ⟨Nat.zero_lt_of_lt long, rfl⟩
  obtain ⟨more, moves⟩ := reads 0 (.start buf) rfl started
  have asked : toRead content.length 0 = maxBuf := by
    rw [toRead, if_pos (by omega)]
  have isData : readSome content (content.length - 0 - toRead content.length 0)
      (toRead content.length 0) maxBuf = line ++ [newline] := by
    rw [asked, readSome, Nat.max_eq_right (by decide), Nat.min_self, Nat.sub_zero, ends,
      ← ends, take_of_length_le]
    rw [length_drop]
    omega
  have found := moves maxBuf rfl
  dsimp only [LogReader.start] at found
  rw [isData, dropLast_concat] at found
  refine whole (found ?_ (by simp))
  rw [← ends, length_drop]
  omega

theorem lparse_not_ends :
    let line := replicate (maxBuf + 1) (97 : UInt8)
    let buf := replicate (maxBuf + 1) (0 : UInt8)
    (¬ ∃ final, LparseFd line line.length (fun _ => some maxBuf) buf final) ∧
      ¬ ∃ final, LparseRevFd (line ++ [newline]) (line ++ [newline]).length
        (fun _ => some maxBuf) buf final := by
  intro line buf
  have room : buf.length = maxBuf + 1 := length_replicate
  have isLength : line.length = maxBuf + 1 := length_replicate
  constructor
  · apply not_lparseFd_of_long room (by omega)
    intro member
    cases eq_of_mem_replicate (mem_of_mem_take member)
  · have ends : (line ++ [newline]).drop ((line ++ [newline]).length - maxBuf) =
        line.drop 2 ++ [newline] := by
      have isStart : (line ++ [newline]).length - maxBuf = 2 := by
        rw [length_append, length_singleton]
        omega
      rw [isStart, drop_append_of_le_length (by rw [isLength]; decide)]
    refine not_lparseRevFd_of_long room ?_ ends ?_
    · rw [length_append]
      omega
    · intro member
      cases eq_of_mem_replicate (mem_of_mem_drop member)

end MonitorMerlin
