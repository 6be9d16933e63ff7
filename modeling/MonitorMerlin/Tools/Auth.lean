import Mathlib.Algebra.Group.Nat.Defs
import MonitorMerlin.Library.Fields
import MonitorMerlin.Tools.Lparse

/-! # Authorised objects -/

namespace MonitorMerlin

open ByteImage List

structure AuthTables (τ : Type) where
  hosts : List τ
  services : List (τ × τ)

section Tables

variable {τ : Type} [DecidableEq τ] (tables : AuthTables τ)

/-- `auth_host_ok`. -/
def authHostOk (host : τ) : Bool := decide (host ∈ tables.hosts)

theorem authHostOk_iff {host : τ} : authHostOk tables host = true ↔ host ∈ tables.hosts :=
  decide_eq_true_iff

/-- `auth_service_ok`. -/
def authServiceOk (host svc : τ) : Bool :=
  decide ((host, svc) ∈ tables.services) || authHostOk tables host

end Tables

structure Allocator where
  malloc : Nat → Bytes
  length_malloc : ∀ size, (malloc size).length = size

def Allocator.realloc (allocator : Allocator) (alloced : Bytes) (size : Nat) : Bytes :=
  alloced.take size ++ (allocator.malloc size).drop alloced.length

structure AuthBuffer where
  alloced : Bytes
  blocksize : Nat
  totRead : Nat

def AuthBuffer.take (allocator : Allocator) (buffer : AuthBuffer) (data : Bytes) :
    Option AuthBuffer := do
  let totRead := buffer.totRead + data.length
  let alloced ← store buffer.alloced buffer.totRead data
  let alloced ← store alloced totRead [0]
  if buffer.blocksize ≤ totRead + 1 then
    if buffer.blocksize * 2 < 2 ^ 31 then
      let blocksize := buffer.blocksize * 2
      some ⟨allocator.realloc alloced blocksize, blocksize, totRead⟩
    else none
  else some ⟨alloced, buffer.blocksize, totRead⟩

def readBlocks (allocator : Allocator) (buffer : AuthBuffer) (input : Bytes) : Option AuthBuffer :=
  let data := input.take (buffer.blocksize - buffer.totRead - 1)
  if data = [] then some buffer
  else (buffer.take allocator data).bind fun next =>
    readBlocks allocator next (input.drop data.length)
termination_by input.length
decreasing_by
  rename_i notEmpty
  have positive : 0 < data.length := length_pos_iff.mpr notEmpty
  have bound : data.length ≤ input.length := length_take_le' _ _
  rw [length_drop]
  exact Nat.sub_lt (by omega) positive

def semicolon : UInt8 := 59

def isDelim (byte : UInt8) : Bool := byte == newline || byte == semicolon

/-- `strpbrk` from a position on. -/
def strpbrk (buf : Bytes) (pos : Nat) : Option (Option Nat) :=
  (cstring (buf.drop pos)).map fun text => (text.findIdx? isDelim).map (pos + ·)

def readHosts : (turns : Nat) → (buf : Bytes) → (objectstr : Nat) → (hosts : List Bytes) →
    Option (Bytes × List Bytes × Option Nat)
  | 0, _, _, _ => none
  | turns + 1, buf, objectstr, hosts =>
    (strpbrk buf objectstr).bind fun
      | none => do
        let host ← cstring (buf.drop objectstr)
        some (buf, hosts ++ [host], none)
      | some hostend => do
        let delim ← buf[hostend]?
        let buf ← store buf hostend [0]
        let host ← cstring (buf.drop objectstr)
        if delim = newline then some (buf, hosts ++ [host], some (hostend + 1))
        else readHosts turns buf (hostend + 1) (hosts ++ [host])

def readServices : (turns : Nat) → (buf : Bytes) → (objectstr : Nat) →
    (services : List (Bytes × Bytes)) → Option (List (Bytes × Bytes) × Nat)
  | 0, _, _, _ => none
  | turns + 1, buf, objectstr, services =>
    (strpbrk buf objectstr).bind fun
      | none => some (services, 0)
      | some hostend => do
        let delim ← buf[hostend]?
        if delim = newline then some (services, 1)
        else
          let svcend ← strpbrk buf (hostend + 1)
          let buf ← store buf hostend [0]
          match svcend with
          | none =>
            let host ← cstring (buf.drop objectstr)
            let service ← cstring (buf.drop (hostend + 1))
            some (services ++ [(host, service)], 0)
          | some svcend =>
            let delim ← buf[svcend]?
            let buf ← store buf svcend [0]
            let host ← cstring (buf.drop objectstr)
            let service ← cstring (buf.drop (hostend + 1))
            if delim = newline then some (services ++ [(host, service)], 0)
            else readServices turns buf (svcend + 1) (services ++ [(host, service)])

/-- `auth_read_input`. -/
def authReadInput (allocator : Allocator) (blocksize : Nat) (input : Option Bytes) :
    Option (AuthTables Bytes × Nat) :=
  match input with
  | none => some (⟨[], []⟩, 0)
  | some input => do
    let buffer ← readBlocks allocator ⟨allocator.malloc blocksize, blocksize, 0⟩ input
    let alloced ← store buffer.alloced buffer.totRead [0]
    let (alloced, hosts, behind) ← readHosts alloced.length alloced 0 []
    match behind with
    | none => some (⟨hosts, []⟩, 1)
    | some objectstr => do
      let (services, ret) ← readServices alloced.length alloced objectstr []
      some (⟨hosts, services⟩, ret)

def linePieces (text : Bytes) : List Bytes := (text.takeWhile (· != newline)).splitOn semicolon

def otherLines (text : Bytes) : Bytes := (text.dropWhile (· != newline)).drop 1

def pairUp : List Bytes → List (Bytes × Bytes)
  | first :: second :: rest => (first, second) :: pairUp rest
  | _ => []

def AuthorisesExactly (allocator : Allocator) (blocksize : Nat) (text : Bytes) : Prop :=
  ∃ tables ret, authReadInput allocator blocksize (some text) = some (tables, ret) ∧
    (∀ host, authHostOk tables host = true ↔ host ∈ linePieces text) ∧
    ∀ host svc, (host, svc) ∈ tables.services ↔ (host, svc) ∈ pairUp (linePieces (otherLines text))

structure AuthBuffer.Holds (buffer : AuthBuffer) (text : Bytes) : Prop where
  size : buffer.alloced.length = buffer.blocksize
  totRead : buffer.totRead = text.length
  starts : text <+: buffer.alloced
  room : text.length + 1 < buffer.blocksize

variable {allocator : Allocator} {buffer : AuthBuffer} {text data alloced : Bytes}

theorem length_realloc {size : Nat} (grows : alloced.length ≤ size) :
    (allocator.realloc alloced size).length = size := by
  rw [Allocator.realloc, length_append, length_take, length_drop, allocator.length_malloc]
  omega

theorem prefix_patch {image : Bytes} (starts : text <+: image)
    (fits : text.length + data.length ≤ image.length) :
    text ++ data <+: patch image text.length data := by
  obtain ⟨rest, rfl⟩ := starts
  rw [patch, take_left]
  exact prefix_append _ _

theorem AuthBuffer.Holds.take (allocator : Allocator) (holds : buffer.Holds text)
    (fits : text.length + data.length < buffer.blocksize) :
    ∃ alloced, text ++ data <+: alloced ∧ alloced.length = buffer.blocksize ∧
      buffer.take allocator data = if buffer.blocksize ≤ text.length + data.length + 1 then
          if buffer.blocksize * 2 < 2 ^ 31 then
            some ⟨allocator.realloc alloced (buffer.blocksize * 2), buffer.blocksize * 2,
              text.length + data.length⟩
          else none
        else some ⟨alloced, buffer.blocksize, text.length + data.length⟩ := by
  have size := holds.size
  have starts := prefix_patch holds.starts (by omega : text.length + data.length ≤ _)
  have length : (patch buffer.alloced text.length data).length = buffer.blocksize := by
    rw [length_patch (by omega), size]
  have terminated : (text ++ data).length + [(0 : UInt8)].length ≤
      (patch buffer.alloced text.length data).length := by
    rw [length, length_append, length_singleton]
    omega
  refine ⟨_, (prefix_append _ [0]).trans (prefix_patch starts terminated), ?_, ?_⟩
  · rw [length_patch terminated, length]
  · rw [AuthBuffer.take, holds.totRead, store_eq (by omega), Option.bind_eq_bind,
      Option.bind_some, ← length_append, store_eq terminated]
    rfl

def Overflows (blocksize length : Nat) : Prop :=
  ∃ count, 2 ^ 30 ≤ blocksize * 2 ^ count ∧ blocksize * 2 ^ count ≤ length + 1

variable {blocksize length : Nat}

theorem overflows_double (small : blocksize < 2 ^ 30) :
    Overflows (blocksize * 2) length ↔ Overflows blocksize length := by
  constructor
  · rintro ⟨count, large, fills⟩
    rw [Nat.mul_assoc, ← Nat.pow_succ'] at large fills
    exact ⟨count + 1, large, fills⟩
  · rintro ⟨count, large, fills⟩
    cases count with
    | zero =>
      rw [Nat.pow_zero, Nat.mul_one] at large
      omega
    | succ count =>
      have same : blocksize * 2 ^ (count + 1) = blocksize * 2 * 2 ^ count := by
        rw [Nat.pow_succ', Nat.mul_assoc]
      exact ⟨count, same ▸ large, same ▸ fills⟩

theorem not_overflows (room : length + 1 < blocksize) : ¬ Overflows blocksize length := by
  rintro ⟨count, large, fills⟩
  have bound := Nat.le_mul_of_pos_right blocksize (Nat.two_pow_pos count)
  omega

theorem AuthBuffer.Holds.grow {blocksize size : Nat} (starts : text <+: alloced)
    (length : alloced.length = blocksize) (room : text.length < blocksize)
    (double : size = blocksize * 2) :
    AuthBuffer.Holds ⟨allocator.realloc alloced size, size, text.length⟩ text where
  size := length_realloc (by omega)
  totRead := rfl
  starts := by
    rw [Allocator.realloc, take_of_length_le (by omega)]
    exact starts.trans (prefix_append _ _)
  room := by
    dsimp only
    omega

theorem readBlocks_cases (allocator : Allocator) (input : Bytes) (holds : buffer.Holds text) :
    (Overflows buffer.blocksize (text.length + input.length) ∧
      readBlocks allocator buffer input = none) ∨
    (¬ Overflows buffer.blocksize (text.length + input.length) ∧
      ∃ final, readBlocks allocator buffer input = some final ∧ final.Holds (text ++ input)) := by
  induction turns : input.length using Nat.strong_induction_on generalizing buffer text input with
  | _ turns ih =>
    have room := holds.room
    rw [readBlocks, holds.totRead, ← turns]
    generalize isData : input.take (buffer.blocksize - text.length - 1) = data
    have isFront : data <+: input := isData ▸ take_prefix _ _
    have length := congrArg List.length isData
    obtain ⟨rest, rfl⟩ := isFront
    rw [length_take, length_append] at length
    by_cases empty : data = []
    · subst empty
      have noRest : rest = [] := by
        apply length_eq_zero_iff.mp
        rw [length_nil] at length
        omega
      rw [if_pos rfl, noRest, append_nil, append_nil]
      exact .inr ⟨not_overflows room, buffer, rfl, holds⟩
    · have positive := length_pos_iff.mpr empty
      have fits : text.length + data.length < buffer.blocksize := by omega
      obtain ⟨alloced, starts, size, taken⟩ := holds.take allocator fits
      rw [length_append] at turns
      rw [← length_append] at taken fits
      rw [if_neg empty, taken, drop_left, ← append_assoc, length_append,
        ← Nat.add_assoc, ← length_append]
      by_cases full : buffer.blocksize ≤ (text ++ data).length + 1
      · rw [if_pos full]
        by_cases small : buffer.blocksize * 2 < 2 ^ 31
        · rw [if_pos small, Option.bind_some, ← overflows_double (by omega)]
          exact ih rest.length (by omega) rest (AuthBuffer.Holds.grow starts size fits rfl) rfl
        · rw [if_neg small]
          refine .inl ⟨⟨0, ?_, ?_⟩, rfl⟩ <;> omega
      · have kept : AuthBuffer.Holds ⟨alloced, buffer.blocksize, (text ++ data).length⟩
            (text ++ data) :=
          ⟨size, rfl, starts, Nat.not_le.mp full⟩
        rw [if_neg full, Option.bind_some]
        exact ih rest.length (by omega) rest kept rfl

def Plain (text : Bytes) : Prop := ∀ byte ∈ text, isDelim byte = false

theorem exists_cut (text : Bytes) :
    Plain text ∨ ∃ piece delim more, text = piece ++ delim :: more ∧ Plain piece ∧
      (delim = newline ∨ delim = semicolon) := by
  induction text with
  | nil => exact .inl fun _ member => absurd member not_mem_nil
  | cons byte text ih =>
    cases isByte : isDelim byte with
    | true =>
      rw [isDelim, Bool.or_eq_true, beq_iff_eq, beq_iff_eq] at isByte
      exact .inr ⟨[], byte, text, rfl, fun _ member => absurd member not_mem_nil, isByte⟩
    | false =>
      rcases ih with plain | ⟨piece, delim, more, isText, plain, isDelim⟩
      · exact .inl (forall_mem_cons.mpr ⟨isByte, plain⟩)
      · refine .inr ⟨byte :: piece, delim, more, ?_, ?_, isDelim⟩
        · rw [isText, cons_append]
        · exact forall_mem_cons.mpr ⟨isByte, plain⟩

variable {front piece more rest : Bytes} {delim : UInt8}

theorem Plain.ne_newline (plain : Plain text) : ∀ byte ∈ text, (byte != newline) = true := by
  intro byte member
  have notDelim := plain byte member
  rw [isDelim, Bool.or_eq_false_iff] at notDelim
  rw [bne, notDelim.1]
  rfl

theorem Plain.noNewline (plain : Plain text) : newline ∉ text :=
  fun member => absurd (plain.ne_newline newline member) (by decide)

theorem Plain.splitOn (plain : Plain text) : text.splitOn semicolon = [text] := by
  have whole : ∀ field ∈ [text], semicolon ∉ field := by
    intro field isText member
    rw [mem_singleton.mp isText] at member
    exact absurd (plain semicolon member) (by decide)
  have split := splitOn_intercalate semicolon whole (cons_ne_nil _ _)
  rwa [intercalate_singleton] at split

theorem linePieces_plain (plain : Plain text) : linePieces text = [text] := by
  rw [linePieces, takeWhile_eq_self_iff.mpr plain.ne_newline, plain.splitOn]

theorem linePieces_newline (plain : Plain piece) :
    linePieces (piece ++ newline :: more) = [piece] := by
  rw [linePieces, takeWhile_append_of_pos plain.ne_newline, takeWhile_cons_of_neg (by decide),
    append_nil, plain.splitOn]

theorem linePieces_semicolon (plain : Plain piece) :
    linePieces (piece ++ semicolon :: more) = piece :: linePieces more := by
  rw [linePieces, takeWhile_append_of_pos plain.ne_newline,
    takeWhile_cons_of_pos (by decide), Fields.splitOn_append_cons, plain.splitOn]
  rfl

theorem otherLines_plain (plain : Plain text) : otherLines text = [] := by
  rw [otherLines, dropWhile_eq_nil_iff.mpr plain.ne_newline, drop_nil]

theorem otherLines_newline (plain : Plain piece) :
    otherLines (piece ++ newline :: more) = more := by
  rw [otherLines, dropWhile_append_of_pos plain.ne_newline]
  simp

theorem otherLines_semicolon (plain : Plain piece) :
    otherLines (piece ++ semicolon :: more) = otherLines more := by
  rw [otherLines, dropWhile_append_of_pos plain.ne_newline, dropWhile_cons_of_pos (by decide)]
  rfl

theorem strpbrk_plain (noNul : 0 ∉ text) (plain : Plain text) :
    strpbrk (front ++ (text ++ 0 :: rest)) front.length = some none := by
  rw [strpbrk, drop_left, cstring_append noNul, Option.map_some,
    findIdx?_eq_none_iff.mpr plain, Option.map_none]

theorem strpbrk_delim (noNul : 0 ∉ piece ++ delim :: more) (plain : Plain piece)
    (ends : delim = newline ∨ delim = semicolon) :
    strpbrk (front ++ (piece ++ delim :: (more ++ 0 :: rest))) front.length =
      some (some (front.length + piece.length)) := by
  have found : isDelim delim = true := by
    rcases ends with rfl | rfl <;> rfl
  rw [← cons_append, ← append_assoc piece, strpbrk, drop_left,
    cstring_append noNul, Option.map_some, findIdx?_append,
    findIdx?_eq_none_iff.mpr plain, findIdx?_cons, found]
  simp

theorem getElem?_delim (front piece : Bytes) (delim : UInt8) (tail : Bytes) :
    (front ++ (piece ++ delim :: tail))[front.length + piece.length]? = some delim := by
  rw [← length_append, ← append_assoc, getElem?_append_right (Nat.le_refl _),
    Nat.sub_self, getElem?_cons_zero]

theorem store_delim (front piece : Bytes) (delim : UInt8) (tail : Bytes) :
    store (front ++ (piece ++ delim :: tail)) (front.length + piece.length) [0] =
      some (front ++ (piece ++ 0 :: tail)) := by
  have stored : store (front ++ piece ++ [delim] ++ tail) (front ++ piece).length [0] =
      some (front ++ piece ++ [0] ++ tail) :=
    store_append _ _ rfl
  simpa using stored

theorem cstring_piece (noNul : 0 ∉ piece) (tail : Bytes) :
    cstring ((front ++ (piece ++ 0 :: tail)).drop front.length) = some piece := by
  rw [drop_left, cstring_append noNul]

theorem behind_piece (front piece : Bytes) (delim : UInt8) (tail : Bytes) :
    front ++ (piece ++ delim :: tail) = front ++ (piece ++ [delim]) ++ tail ∧
      front.length + piece.length + 1 = (front ++ (piece ++ [delim])).length := by
  simp [Nat.add_assoc]

theorem readHosts_eq (rest : Bytes) (turns : Nat) (front : Bytes) (hosts : List Bytes)
    (noNul : 0 ∉ text) (enough : text.length < turns) :
    ∃ before, readHosts turns (front ++ (text ++ 0 :: rest)) front.length hosts =
      some (before ++ (otherLines text ++ 0 :: rest), hosts ++ linePieces text,
        if newline ∈ text then some before.length else none) := by
  induction turns generalizing front text hosts with
  | zero => omega
  | succ turns ih =>
    rcases exists_cut text with plain | ⟨piece, delim, more, rfl, plain, ends⟩
    · refine ⟨front ++ text, ?_⟩
      simp only [readHosts, strpbrk_plain noNul plain, cstring_piece noNul,
        Option.bind_eq_bind, Option.bind_some, otherLines_plain plain, linePieces_plain plain,
        if_neg plain.noNewline, append_assoc, nil_append]
    · obtain ⟨sameBuf, sameEnd⟩ := behind_piece front piece 0 (more ++ 0 :: rest)
      have noNulPiece : 0 ∉ piece := fun member => noNul (mem_append_left _ member)
      simp only [append_assoc piece, cons_append, readHosts, strpbrk_delim noNul plain ends,
        getElem?_delim, store_delim, cstring_piece noNulPiece, Option.bind_eq_bind,
        Option.bind_some]
      rw [sameBuf, sameEnd]
      rcases ends with rfl | rfl
      · refine ⟨front ++ (piece ++ [0]), ?_⟩
        rw [if_pos rfl, otherLines_newline plain, linePieces_newline plain,
          if_pos (mem_append_right _ mem_cons_self)]
      · rw [length_append, length_cons] at enough
        obtain ⟨before, result⟩ := ih (front ++ (piece ++ [0])) (hosts ++ [piece])
          (fun member => noNul (mem_append_right _ (mem_cons_of_mem _ member))) (by omega)
        have sameLine : newline ∈ piece ++ semicolon :: more ↔ newline ∈ more := by
          rw [mem_append, mem_cons, or_iff_right plain.noNewline, or_iff_right (by decide)]
        refine ⟨before, ?_⟩
        rw [if_neg (by decide), result, otherLines_semicolon plain, linePieces_semicolon plain,
          append_assoc hosts, singleton_append]
        simp only [sameLine]

section Services

variable {host service : Bytes} {turns : Nat} {services : List (Bytes × Bytes)}

theorem readServices_last (noNul : 0 ∉ host ++ semicolon :: service) (plainHost : Plain host)
    (plain : Plain service) :
    readServices (turns + 1) (front ++ (host ++ semicolon :: (service ++ 0 :: rest)))
      front.length services = some (services ++ [(host, service)], 0) := by
  have noNulHost : 0 ∉ host := fun member => noNul (mem_append_left _ member)
  have noNulService : 0 ∉ service := fun member =>
    noNul (mem_append_right _ (mem_cons_of_mem _ member))
  have svcend : strpbrk (front ++ (host ++ semicolon :: (service ++ 0 :: rest)))
      (front.length + host.length + 1) = some none := by
    rw [(behind_piece front host semicolon (service ++ 0 :: rest)).1, (behind_piece _ _ _ []).2,
      strpbrk_plain noNulService plain]
  have isService : cstring ((front ++ (host ++ 0 :: (service ++ 0 :: rest))).drop
      (front.length + host.length + 1)) = some service := by
    rw [(behind_piece front host 0 (service ++ 0 :: rest)).1, (behind_piece _ _ _ []).2,
      cstring_piece noNulService]
  simp only [readServices, strpbrk_delim noNul plainHost (.inr rfl), getElem?_delim, store_delim,
    svcend, isService, cstring_piece noNulHost, Option.bind_eq_bind, Option.bind_some,
    if_neg (by decide : ¬ semicolon = newline)]

theorem readServices_delim (noNul : 0 ∉ host ++ semicolon :: (service ++ delim :: more))
    (plainHost : Plain host) (plain : Plain service) (ends : delim = newline ∨ delim = semicolon) :
    ∃ before, readServices (turns + 1)
        (front ++ (host ++ semicolon :: (service ++ delim :: (more ++ 0 :: rest))))
        front.length services =
      if delim = newline then some (services ++ [(host, service)], 0)
      else readServices turns (before ++ (more ++ 0 :: rest)) before.length
        (services ++ [(host, service)]) := by
  have noNulHost : 0 ∉ host := fun member => noNul (mem_append_left _ member)
  have noNulLater : 0 ∉ service ++ delim :: more := fun member =>
    noNul (mem_append_right _ (mem_cons_of_mem _ member))
  have noNulService : 0 ∉ service := fun member => noNulLater (mem_append_left _ member)
  have first := @strpbrk_delim front _ _ rest _ noNul plainHost (.inr rfl)
  rw [append_assoc, cons_append] at first
  generalize tailIs : more ++ 0 :: rest = tail at first ⊢
  generalize startIs : front.length + host.length + 1 = start
  have atStart (byte : UInt8) : start = (front ++ (host ++ [byte])).length :=
    startIs.symm.trans (behind_piece front host byte []).2
  have svcend : strpbrk (front ++ (host ++ semicolon :: (service ++ delim :: tail))) start =
      some (some (start + service.length)) := by
    rw [(behind_piece _ _ _ _).1, atStart semicolon, ← tailIs, strpbrk_delim noNulLater plain ends]
  have isDelim : (front ++ (host ++ 0 :: (service ++ delim :: tail)))[start + service.length]? =
      some delim := by
    rw [(behind_piece _ _ _ _).1, atStart 0, getElem?_delim]
  have stored : store (front ++ (host ++ 0 :: (service ++ delim :: tail)))
      (start + service.length) [0] = some (front ++ (host ++ 0 :: (service ++ 0 :: tail))) := by
    rw [(behind_piece front host 0 (service ++ delim :: tail)).1,
      (behind_piece front host 0 (service ++ 0 :: tail)).1, atStart 0, store_delim]
  have isService : cstring ((front ++ (host ++ 0 :: (service ++ 0 :: tail))).drop start) =
      some service := by
    rw [(behind_piece front _ _ _).1, atStart 0, cstring_piece noNulService]
  refine ⟨front ++ (host ++ [0]) ++ (service ++ [0]), ?_⟩
  rw [← (behind_piece _ service _ tail).1, ← (behind_piece _ service _ []).2, ← atStart 0,
    ← (behind_piece front _ _ _).1]
  simp only [readServices, first, getElem?_delim, store_delim, svcend, isDelim, stored, isService,
    cstring_piece noNulHost, Option.bind_eq_bind, Option.bind_some, startIs,
    if_neg (by decide : ¬ semicolon = newline)]

end Services

theorem readServices_eq (rest : Bytes) (turns : Nat) (front : Bytes)
    (services : List (Bytes × Bytes)) (noNul : 0 ∉ text) (enough : text.length < turns) :
    ∃ ret, readServices turns (front ++ (text ++ 0 :: rest)) front.length services =
      some (services ++ pairUp (linePieces text), ret) := by
  induction turns generalizing front text services with
  | zero => omega
  | succ turns ih =>
    rcases exists_cut text with plain | ⟨host, delim, more, rfl, plain, ends⟩
    · refine ⟨0, ?_⟩
      rw [readServices, strpbrk_plain noNul plain, linePieces_plain plain]
      simp [pairUp]
    · rw [append_assoc, cons_append]
      rcases ends with rfl | rfl
      · refine ⟨1, ?_⟩
        simp only [readServices, strpbrk_delim noNul plain (.inl rfl), getElem?_delim,
          Option.bind_eq_bind, Option.bind_some, linePieces_newline plain]
        simp [pairUp]
      · have noNulMore : 0 ∉ more := fun member =>
          noNul (mem_append_right _ (mem_cons_of_mem _ member))
        rw [linePieces_semicolon plain]
        rcases exists_cut more with plainMore | ⟨service, delim, tail, rfl, plainService, ends⟩
        · refine ⟨0, ?_⟩
          rw [readServices_last noNul plain plainMore, linePieces_plain plainMore]
          rfl
        · rw [append_assoc, cons_append]
          obtain ⟨before, turn⟩ := readServices_delim noNul plain plainService ends
          rw [turn]
          rcases ends with rfl | rfl
          · refine ⟨0, ?_⟩
            rw [if_pos rfl, linePieces_newline plainService]
            rfl
          · simp only [length_append, length_cons] at enough
            obtain ⟨ret, result⟩ := ih before (services ++ [(host, service)]) (fun member =>
              noNulMore (mem_append_right _ (mem_cons_of_mem _ member))) (by omega)
            refine ⟨ret, ?_⟩
            rw [if_neg (by decide), result, linePieces_semicolon plainService, pairUp,
              append_assoc, singleton_append]

theorem holds_malloc (large : 2 ≤ blocksize) :
    AuthBuffer.Holds ⟨allocator.malloc blocksize, blocksize, 0⟩ [] where
  size := allocator.length_malloc blocksize
  totRead := rfl
  starts := nil_prefix
  room := by
    rw [length_nil]
    exact large

theorem AuthBuffer.Holds.exists_terminated (holds : buffer.Holds text) :
    ∃ rest, store buffer.alloced buffer.totRead [0] = some (text ++ 0 :: rest) := by
  have room := holds.room
  have size := holds.size
  obtain ⟨behind, isBuffer⟩ := holds.starts
  rw [← isBuffer, length_append] at size
  cases behind with
  | nil =>
    rw [length_nil] at size
    omega
  | cons byte rest =>
    have stored := store_delim [] text byte rest
    rw [nil_append, nil_append, length_nil, Nat.zero_add] at stored
    exact ⟨rest, by rw [← isBuffer, holds.totRead, stored]⟩

theorem authReadInput_eq (noNul : 0 ∉ text) (large : 2 ≤ blocksize)
    (bounded : ¬ Overflows blocksize text.length) :
    ∃ ret, authReadInput allocator blocksize (some text) =
      some (⟨linePieces text, pairUp (linePieces (otherLines text))⟩, ret) := by
  have start : AuthBuffer.Holds ⟨allocator.malloc blocksize, blocksize, 0⟩ [] := holds_malloc large
  rcases readBlocks_cases allocator text start with ⟨overflows, _⟩ | ⟨_, final, isFinal, holds⟩
  · rw [length_nil, Nat.zero_add] at overflows
    exact absurd overflows bounded
  · obtain ⟨rest, terminated⟩ := holds.exists_terminated
    rw [nil_append] at terminated
    obtain ⟨before, hosts⟩ := readHosts_eq rest (text ++ 0 :: rest).length [] [] noNul
      (by rw [length_append, length_cons]; omega)
    rw [nil_append, nil_append, length_nil] at hosts
    rw [authReadInput]
    simp only [isFinal, terminated, hosts, Option.bind_eq_bind, Option.bind_some]
    by_cases more : newline ∈ text
    · have noNulMore : 0 ∉ otherLines text := fun member =>
        noNul ((dropWhile_suffix _).mem (mem_of_mem_drop member))
      obtain ⟨ret, services⟩ := readServices_eq rest
        (before ++ (otherLines text ++ 0 :: rest)).length before [] noNulMore
        (by simp only [length_append, length_cons]; omega)
      rw [if_pos more]
      simp only [services, Option.bind_some, nil_append]
      exact ⟨ret, rfl⟩
    · have noMore : otherLines text = [] := by
        rw [otherLines, dropWhile_eq_nil_iff.mpr, drop_nil]
        intro byte member
        exact bne_iff_ne.mpr fun same => more (same ▸ member)
      rw [if_neg more, noMore]
      exact ⟨1, rfl⟩

theorem authReadInput_eq_none (large : 2 ≤ blocksize)
    (overflows : Overflows blocksize text.length) :
    authReadInput allocator blocksize (some text) = none := by
  rcases readBlocks_cases allocator text (holds_malloc large) with ⟨_, failed⟩ | ⟨bounded, _⟩
  · rw [authReadInput, failed]
    rfl
  · rw [length_nil, Nat.zero_add] at bounded
    exact absurd overflows bounded

theorem overflows_iff {length : Nat} (short : length < 2 ^ 30) :
    Overflows blocksize length ↔ length + 1 = 2 ^ 30 ∧ ∃ count, blocksize * 2 ^ count = 2 ^ 30 := by
  constructor
  · rintro ⟨count, large, fills⟩
    exact ⟨by omega, count, by omega⟩
  · rintro ⟨whole, count, isSize⟩
    exact ⟨count, by omega, by omega⟩

theorem authorisesExactly_iff (allocator : Allocator) {blocksize : Nat} {text : Bytes}
    (noNul : 0 ∉ text) (short : text.length < 2 ^ 30) (large : 2 ≤ blocksize) :
    AuthorisesExactly allocator blocksize text ↔
      ¬ (text.length + 1 = 2 ^ 30 ∧ ∃ count, blocksize * 2 ^ count = 2 ^ 30) := by
  rw [← overflows_iff short]
  constructor
  · rintro ⟨tables, ret, result, _⟩ overflows
    rw [authReadInput_eq_none large overflows] at result
    cases result
  · intro bounded
    obtain ⟨ret, result⟩ := authReadInput_eq noNul large bounded
    exact ⟨_, ret, result, fun host => authHostOk_iff _, fun host svc => Iff.rfl⟩

def zeroedMemory : Allocator := ⟨fun size => List.replicate size 0, fun _ => length_replicate⟩

theorem authorisesExactly_small :
    AuthorisesExactly zeroedMemory 2 [97, 59, 98, 10, 99, 59, 100] ↔
      ¬ ([97, 59, 98, 10, 99, 59, 100].length + 1 = 2 ^ 30 ∧ ∃ count, 2 * 2 ^ count = 2 ^ 30) :=
  authorisesExactly_iff zeroedMemory (by decide) (by decide) (by decide)

theorem not_authorisesExactly_long :
    ¬ AuthorisesExactly zeroedMemory (2 ^ 20) (List.replicate (2 ^ 30 - 1) 97) := by
  rintro ⟨tables, ret, result, _⟩
  have overflows : Overflows (2 ^ 20) (replicate (2 ^ 30 - 1) (97 : UInt8)).length := by
    rw [length_replicate]
    exact ⟨10, by decide, by decide⟩
  rw [authReadInput_eq_none (by decide) overflows] at result
  cases result

end MonitorMerlin
