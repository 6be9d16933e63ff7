import MonitorMerlin.Tools.Lparse

/-! # Reading a log forward -/

namespace MonitorMerlin

open ByteImage Lines List

variable {line buf front tail : Bytes} {parsed : List Bytes} {bytesRd fuel : Nat}

theorem lineLength_append (whole : newline ∉ line) (rest : Bytes) :
    lineLength (line ++ newline :: rest) = line.length := by
  unfold lineLength
  rw [takeWhile_append_of_pos]
  · simp
  · intro char member
    exact decide_eq_true fun isNewline => whole (isNewline ▸ member)

theorem rewind_skip {front : Nat} {count : Nat}
    (clear : ∀ index < count, ∃ char, buf[front + index]? = some char ∧ char ≠ newline) :
    rewind buf (front + count) = rewind buf front := by
  induction count with
  | zero => rfl
  | succ count ih =>
    obtain ⟨char, isChar, differs⟩ := clear count (Nat.lt_succ_self count)
    rw [← Nat.add_assoc, rewind, isChar, Option.bind_some, if_neg differs]
    exact ih fun index less => clear index (Nat.lt_succ_of_lt less)

theorem rewind_append (absent : newline ∉ tail) (stale : Bytes) :
    rewind (front ++ tail ++ stale) (front.length + tail.length) =
      rewind (front ++ tail ++ stale) front.length := by
  apply rewind_skip
  intro index less
  have inTail : (front ++ tail ++ stale)[front.length + index]? = some tail[index] := by
    rw [append_assoc, getElem?_append_right (Nat.le_add_right _ _),
      Nat.add_sub_cancel_left, getElem?_append_left less, getElem?_eq_getElem less]
  exact ⟨tail[index], inTail, fun isNewline => absent (isNewline ▸ getElem_mem less)⟩

theorem rewind_eq_none {text : Bytes} (absent : newline ∉ text) (stale : Bytes) :
    rewind (text ++ stale) text.length = none := by
  have skipped : rewind ([] ++ text ++ stale) (0 + text.length) = none := rewind_append absent stale
  rwa [nil_append, Nat.zero_add] at skipped

theorem rewind_eq_some (absent : newline ∉ tail) (stale : Bytes) :
    rewind (front ++ [newline] ++ tail ++ stale) (front ++ [newline] ++ tail).length =
      some (front ++ [newline]).length := by
  rw [length_append, rewind_append absent, length_append, length_singleton, rewind]
  simp

theorem parseBlock_line {done line rest : Bytes} (more : done.length < bytesRd)
    (whole : newline ∉ line) (found : done.length + line.length ≤ bytesRd)
    (fits : bytesRd < (done ++ line ++ newline :: rest).length) :
    parseBlock bytesRd (fuel + 1) done.length (done ++ line ++ newline :: rest) parsed =
      parseBlock bytesRd fuel (done ++ line ++ [0]).length (done ++ line ++ [0] ++ rest)
        (parsed ++ [line]) := by
  have count : bytesRd + 1 - done.length =
      (line ++ newline :: rest.take (bytesRd - (done.length + line.length))).length := by
    simp only [length_append, length_cons, length_take] at fits ⊢
    omega
  have window : ByteImage.load (done ++ line ++ newline :: rest) done.length
      (bytesRd + 1 - done.length) =
      some (line ++ newline :: rest.take (bytesRd - (done.length + line.length))) := by
    have parts : done ++ line ++ newline :: rest =
        done ++ (line ++ newline :: rest.take (bytesRd - (done.length + line.length))) ++
          rest.drop (bytesRd - (done.length + line.length)) := by
      simp
    rw [count, parts, load_append]
  have written : store (done ++ line ++ newline :: rest) (done.length + line.length) [0] =
      some (done ++ line ++ [0] ++ rest) := by
    rw [← length_append, append_cons (done ++ line)]
    exact store_append (done ++ line) rest rfl
  have text : slice (done ++ line ++ [0] ++ rest) done.length line.length = line := by
    rw [append_assoc, slice_append_middle]
  rw [parseBlock, if_pos more, window, Option.bind_eq_bind, Option.bind_some, if_pos (by simp),
    lineLength_append whole]
  dsimp only
  rw [written, Option.bind_some, text, length_append, length_append, length_singleton]

theorem parseBlock_ended {bytesRd fuel blkparsed : Nat} (buf : Bytes) (parsed : List Bytes)
    (ended : bytesRd ≤ blkparsed) :
    parseBlock bytesRd (fuel + 1) blkparsed buf parsed = some (buf, parsed) := by
  rw [parseBlock, if_neg (Nat.not_lt.mpr ended)]

theorem parseBlock_lines (done text stale : Bytes) (parsed : List Bytes)
    (isLength : bytesRd = done.length + text.length) (enough : text.length < fuel) :
    ∃ buf, buf.length = (done ++ text ++ newline :: stale).length ∧
      parseBlock bytesRd fuel done.length (done ++ text ++ newline :: stale) parsed =
        some (buf, parsed ++ lines newline text) := by
  induction fuel generalizing done text parsed with
  | zero => exact absurd enough (Nat.not_lt_zero _)
  | succ fuel ih =>
    by_cases ended : text = []
    · have isDone : bytesRd ≤ done.length := by
        rw [isLength, ended]
        exact Nat.le_refl _
      rw [parseBlock_ended _ _ isDone, ended]
      exact ⟨_, rfl, by simp [lines, cut]⟩
    · have notEmpty : 0 < text.length := length_pos_iff.mpr ended
      by_cases inside : newline ∈ text
      · obtain ⟨line, rest, rfl, whole⟩ := eq_append_cons_of_mem inside
        rw [length_append, length_cons] at isLength enough
        have parts : done ++ (line ++ newline :: rest) ++ newline :: stale =
            done ++ line ++ newline :: (rest ++ newline :: stale) := by
          simp
        have length : bytesRd = (done ++ line ++ [0]).length + rest.length := by
          simp only [length_append, length_singleton]
          omega
        obtain ⟨buf, sameLength, parsedRest⟩ := ih _ rest (parsed ++ [line]) length (by omega)
        refine ⟨buf, ?_, ?_⟩
        · rw [sameLength]
          simp
        · rw [parts, parseBlock_line (by omega) whole (by omega) (by simp; omega),
            ← append_assoc, parsedRest, lines_line whole, append_assoc]
          rfl
      · rw [parseBlock_line (by omega) inside (by omega) (by simp; omega)]
        cases fuel with
        | zero => omega
        | succ fuel =>
          rw [parseBlock_ended _ _ (by simp; omega), lines_single ended inside]
          exact ⟨_, by simp, rfl⟩

/-- What was read is passed on, up to a newline. -/
structure ReadForward (content : Bytes) (reader : LogReader) : Prop where
  position : reader.position = reader.totRd
  room : reader.buf.length = maxBuf + 1
  inside : reader.totRd ≤ content.length
  parsed : reader.parsed = lines newline (content.take reader.totRd)
  closed : reader.totRd < content.length → Closed newline (content.take reader.totRd)
  fine : reader.failed = false

def FindsNewline (content : Bytes) (reader : LogReader) (answer : Option Nat) : Prop :=
  ∀ limit, answer = some limit →
    let data := readSome content reader.position
      (if maxBuf < content.length then maxBuf else content.length) limit
    reader.totRd + data.length < content.length → newline ∈ data

theorem store_front {buf data : Bytes} (fits : data.length ≤ buf.length) :
    store buf 0 data = some (data ++ buf.drop data.length) := by
  have parts : [] ++ buf.take data.length ++ buf.drop data.length = buf := by
    simp
  have written : store ([] ++ buf.take data.length ++ buf.drop data.length) 0 data =
      some ([] ++ data ++ buf.drop data.length) :=
    store_append [] _ (by rw [length_take, Nat.min_eq_left fits])
  rwa [parts, nil_append] at written

theorem parseBlock_text (text : Bytes) {stale : Bytes} (parsed : List Bytes) (room : stale ≠ []) :
    ∃ buf, buf.length = (text ++ stale).length ∧
      (store (text ++ stale) text.length [newline] >>= fun buf =>
        parseBlock text.length (text.length + 1) 0 buf parsed) =
        some (buf, parsed ++ lines newline text) := by
  obtain ⟨old, rest, rfl⟩ := exists_cons_of_ne_nil room
  have written : store (text ++ old :: rest) text.length [newline] =
      some (text ++ newline :: rest) := by
    rw [append_cons, append_cons text newline]
    exact store_append text rest rfl
  obtain ⟨buf, sameLength, isDelivered⟩ :=
    parseBlock_lines [] text rest parsed (Nat.zero_add _).symm (Nat.lt_succ_self _)
  refine ⟨buf, ?_, ?_⟩
  · rw [sameLength]
    simp
  · rw [written]
    exact isDelivered

section Read

variable {content : Bytes} {position count limit : Nat}

theorem readSome_length_le : (readSome content position count limit).length ≤ count := by
  unfold readSome
  rw [length_take]
  omega

theorem readSome_length_pos (more : position < content.length) (asked : 0 < count) :
    0 < (readSome content position count limit).length := by
  unfold readSome
  rw [length_take, length_drop]
  omega

theorem take_append_of_readSome {text rest : Bytes}
    (read : readSome content position count limit = text ++ rest) :
    content.take (position + text.length) = content.take position ++ text := by
  rw [take_add]
  congr 1
  have isPrefix : text <+: content.drop position := by
    refine List.IsPrefix.trans ⟨rest, read.symm⟩ ?_
    exact take_prefix _ _
  exact (prefix_iff_eq_take.mp isPrefix).symm

end Read

section Turn

variable {content : Bytes} {reader : LogReader} {limit : Nat}

theorem ReadForward.turn_text (forward : ReadForward content reader) {text rest : Bytes}
    (read : readSome content reader.position
      (if maxBuf < content.length then maxBuf else content.length) limit = text ++ rest)
    (keeps : keptBytes content.length reader.totRd
      (text ++ rest ++ reader.buf.drop (text ++ rest).length) (text ++ rest).length =
      some text.length)
    (whole : ¬ reader.totRd + (text ++ rest).length < content.length → rest = [])
    (closed : reader.totRd + text.length < content.length →
      Closed newline (content.take reader.totRd ++ text))
    (cutBefore : Closed newline (content.take reader.totRd)) :
    ∃ next, forwardTurn content content.length reader (some limit) = some next ∧
      ReadForward content next ∧ next.totRd = reader.totRd + text.length := by
  have short : (text ++ rest).length ≤ maxBuf := by
    rw [← read]
    refine readSome_length_le.trans ?_
    split
    · exact Nat.le_refl _
    · omega
  have room : (text ++ rest).length < reader.buf.length := by
    rw [forward.room]
    omega
  have inside : reader.totRd + text.length ≤ content.length := by
    have ends : reader.position + (text ++ rest).length ≤ content.length := by
      have before := forward.inside
      rw [← read, readSome, length_take, length_drop, forward.position]
      omega
    rw [length_append, forward.position] at ends
    omega
  have position : (if reader.totRd + (text ++ rest).length < content.length then
      reader.totRd + text.length else reader.position + (text ++ rest).length) =
      reader.totRd + text.length := by
    split
    · rfl
    · rename_i ended
      rw [whole ended, append_nil, forward.position]
  have stale : rest ++ reader.buf.drop (text ++ rest).length ≠ [] := by
    intro empty
    have length := congrArg List.length empty
    simp only [length_append, length_drop, length_nil] at length room
    omega
  obtain ⟨buf, sameLength, delivered⟩ := parseBlock_text text reader.parsed stale
  rw [← append_assoc] at sameLength delivered
  have taken : content.take (reader.totRd + text.length) = content.take reader.totRd ++ text := by
    rw [← forward.position]
    exact take_append_of_readSome read
  refine ⟨⟨reader.totRd + text.length, reader.totRd + text.length, buf,
    reader.parsed ++ lines newline text, reader.failed⟩, ?_, ?_, rfl⟩
  · rw [forwardTurn, read, store_front (Nat.le_of_lt room)]
    simp only [Option.bind_eq_bind, Option.bind_some, keeps]
    rw [position, ← Option.bind_assoc]
    rw [Option.bind_eq_bind] at delivered
    rw [delivered]
    rfl
  · refine ⟨rfl, ?_, inside, ?_, ?_, forward.fine⟩
    · rw [sameLength, ← forward.room]
      simp only [length_append, length_drop] at room ⊢
      omega
    · rw [taken, lines_append cutBefore, forward.parsed]
    · intro less
      rw [taken]
      exact closed less

theorem ReadForward.turn (forward : ReadForward content reader)
    (more : reader.totRd < content.length) (finds : FindsNewline content reader (some limit)) :
    ∃ next, forwardTurn content content.length reader (some limit) = some next ∧
      ReadForward content next ∧ reader.totRd < next.totRd := by
  have cutBefore := forward.closed more
  have asked : 0 < if maxBuf < content.length then maxBuf else content.length := by
    split
    · decide
    · omega
  have notEmpty : 0 < (readSome content reader.position
      (if maxBuf < content.length then maxBuf else content.length) limit).length :=
    readSome_length_pos (forward.position ▸ more) asked
  have found := finds limit rfl
  dsimp only at found
  generalize read : readSome content reader.position
    (if maxBuf < content.length then maxBuf else content.length) limit = data at notEmpty found
  by_cases partly : reader.totRd + data.length < content.length
  · obtain ⟨front, tail, rfl, absent⟩ := exists_last_separator (found partly)
    rw [append_cons] at read partly
    obtain ⟨next, turned, forwardNext, isNext⟩ := forward.turn_text read
      (by rw [keptBytes, if_pos partly]; exact rewind_eq_some absent _)
      (fun ended => absurd partly ended)
      (fun _ => by rw [← append_assoc]; exact closed_append_separator _) cutBefore
    refine ⟨next, turned, forwardNext, ?_⟩
    rw [isNext, length_append, length_singleton]
    omega
  · rw [← append_nil data] at read
    obtain ⟨next, turned, forwardNext, isNext⟩ := forward.turn_text read
      (by rw [keptBytes, append_nil, if_neg partly]) (fun _ => rfl)
      (fun less => absurd less partly) cutBefore
    refine ⟨next, turned, forwardNext, ?_⟩
    omega

theorem ReadForward.turn_fails (forward : ReadForward content reader)
    (misses : ¬ FindsNewline content reader (some limit)) :
    forwardTurn content content.length reader (some limit) = none := by
  unfold FindsNewline at misses
  simp only [Option.some.injEq, forall_eq', not_forall] at misses
  obtain ⟨partly, absent⟩ := misses
  have short : (readSome content reader.position
      (if maxBuf < content.length then maxBuf else content.length) limit).length ≤
      reader.buf.length := by
    refine readSome_length_le.trans ?_
    rw [forward.room]
    split
    · omega
    · omega
  rw [forwardTurn, store_front short]
  simp only [Option.bind_eq_bind, Option.bind_some]
  rw [keptBytes, if_pos partly, rewind_eq_none absent]
  rfl

end Turn

theorem readForward_start (content : Bytes) (room : buf.length = maxBuf + 1) :
    ReadForward content (.start buf) := ⟨rfl, room, Nat.zero_le _, rfl, fun _ => closed_nil, rfl⟩

def CompleteReads (answers : Nat → Option Nat) : Prop :=
  ∀ count, ∃ limit, answers count = some limit ∧ maxBuf ≤ limit

theorem ReadForward.finds {content : Bytes} {reader : LogReader}
    (forward : ReadForward content reader)
    (short : ∀ piece ∈ pieces newline content, piece.length ≤ maxBuf) {limit : Nat}
    (complete : maxBuf ≤ limit) : FindsNewline content reader (some limit) := by
  intro other isOther
  cases isOther
  dsimp only
  intro partly
  by_contra absent
  rw [forward.position] at partly absent
  have isData : readSome content reader.totRd
      (if maxBuf < content.length then maxBuf else content.length) limit =
      (content.drop reader.totRd).take maxBuf := by
    have bounds := partly
    unfold readSome at bounds ⊢
    rw [length_take, length_drop] at bounds
    congr 1
    split at bounds
    · rename_i long
      rw [if_pos long]
      omega
    · omega
  rw [isData, length_take, length_drop] at partly
  rw [isData] at absent
  have behind : (content.drop reader.totRd).drop maxBuf ≠ [] := by
    rw [ne_eq, drop_drop, drop_eq_nil_iff]
    omega
  obtain ⟨next, rest, isBehind⟩ := exists_cons_of_ne_nil behind
  have parts : content.take reader.totRd ++ ((content.drop reader.totRd).take maxBuf ++ [next]) ++
      rest = content := by
    rw [append_assoc, append_assoc, singleton_append, ← isBehind,
      take_append_drop, take_append_drop]
  have whole : newline ∉ ((content.drop reader.totRd).take maxBuf ++ [next]).dropLast := by
    rw [dropLast_concat]
    exact absent
  obtain ⟨piece, member, long⟩ :=
    exists_piece_of_stretch (content.take reader.totRd) rest (by simp) whole
  rw [parts] at member
  have bounded := short piece member
  rw [length_append, length_take, length_drop, length_singleton] at long
  omega

theorem lparseFd_ends {content buf : Bytes} {answers : Nat → Option Nat}
    (room : buf.length = maxBuf + 1)
    (short : ∀ piece ∈ pieces newline content, piece.length ≤ maxBuf)
    (complete : CompleteReads answers) :
    ∃ final, LparseFd content content.length answers buf final ∧ ReadForward content final ∧
      content.length ≤ final.totRd := by
  have ends : ∃ final, LparseFd content content.length answers buf final ∧
      ReadForward content final := by
    apply Loop.endsIn_of_measure (ReadForward content) (fun reader => content.length - reader.totRd)
    · intro count reader _ forward goesOn
      obtain ⟨limit, isAnswer, isComplete⟩ := complete count
      obtain ⟨next, turned, forwardNext, further⟩ :=
        forward.turn goesOn.1 (forward.finds short isComplete)
      have more := goesOn.1
      rw [isAnswer]
      exact ⟨next, turned, forwardNext, by omega⟩
    · exact readForward_start content room
  obtain ⟨final, ended, forward⟩ := ends
  have stops := ended.choose_spec.2
  exact ⟨final, ended, forward, not_lt.mp fun less => stops ⟨less, forward.fine⟩⟩

theorem ReadForward.parsed_all {content : Bytes} {reader : LogReader}
    (forward : ReadForward content reader) (all : content.length ≤ reader.totRd) :
    reader.parsed = lines newline content := by
  rw [forward.parsed, take_of_length_le all]

/-- `lparse_fd` passes the lines of a file on, each once and in order. -/
theorem lparseFd_lines (content buf : Bytes) (answers : Nat → Option Nat)
    (room : buf.length = maxBuf + 1)
    (short : ∀ piece ∈ pieces newline content, piece.length ≤ maxBuf)
    (complete : CompleteReads answers) :
    ∃ final, LparseFd content content.length answers buf final ∧
      final.parsed = lines newline content ∧ final.ret = 0 := by
  obtain ⟨final, ended, forward, all⟩ := lparseFd_ends room short complete
  refine ⟨final, ended, forward.parsed_all all, ?_⟩
  rw [LogReader.ret, forward.fine]
  rfl

theorem lparseFd_lines_three :
    ∃ final, LparseFd [97, 10, 10, 98] 4 (fun _ => some maxBuf) (List.replicate (maxBuf + 1) 0)
      final ∧ final.parsed = [[97], [], [98]] ∧ final.ret = 0 :=
  lparseFd_lines [97, 10, 10, 98] (replicate (maxBuf + 1) 0) (fun _ => some maxBuf)
    length_replicate (by decide) fun _ => ⟨maxBuf, rfl, Nat.le_refl _⟩

end MonitorMerlin
