import MonitorMerlin.Library.Block
import MonitorMerlin.Library.Lines
import MonitorMerlin.Library.Loop

/-! # Reading a log -/

namespace MonitorMerlin

open ByteImage Lines

/-- `MAX_BUF`. -/
def maxBuf : Nat := 512 * 1024 - 1

def newline : UInt8 := 10

structure LogReader where
  totRd : Nat
  position : Nat
  buf : Bytes
  parsed : List Bytes
  failed : Bool
  deriving DecidableEq, Repr

namespace LogReader

def start (buf : Bytes) : LogReader := ⟨0, 0, buf, [], false⟩

def GoesOn (size : Nat) (reader : LogReader) : Prop := reader.totRd < size ∧ reader.failed = false

instance (size : Nat) : DecidablePred (GoesOn size) := fun _ => inferInstanceAs (Decidable (_ ∧ _))

def ret (reader : LogReader) : Int := if reader.failed then -1 else 0

end LogReader

def readSome (content : Bytes) (position count limit : Nat) : Bytes :=
  (content.drop position).take (min count (max 1 limit))

def lineLength (text : Bytes) : Nat := (text.takeWhile (· ≠ newline)).length

def rewind (buf : Bytes) : Nat → Option Nat
  | 0 => none
  | bytesRd + 1 =>
    buf[bytesRd]?.bind fun last =>
      if last = newline then some (bytesRd + 1) else rewind buf bytesRd

def parseBlock (bytesRd : Nat) :
    (fuel blkparsed : Nat) → Bytes → List Bytes → Option (Bytes × List Bytes)
  | 0, _, _, _ => none
  | fuel + 1, blkparsed, buf, parsed =>
    if blkparsed < bytesRd then do
      let window ← ByteImage.load buf blkparsed (bytesRd + 1 - blkparsed)
      if newline ∈ window then
        let len := lineLength window
        let ended ← store buf (blkparsed + len) [0]
        parseBlock bytesRd fuel (blkparsed + len + 1) ended (parsed ++ [slice ended blkparsed len])
      else
        none
    else
      some (buf, parsed)

def keptBytes (size totRd : Nat) (buf : Bytes) (bytesRd : Nat) : Option Nat :=
  if totRd + bytesRd < size then rewind buf bytesRd else some bytesRd

def forwardTurn (content : Bytes) (size : Nat) (reader : LogReader) :
    (answer : Option Nat) → Option LogReader
  | none => some { reader with failed := true }
  | some limit => do
      let data := readSome content reader.position (if maxBuf < size then maxBuf else size) limit
      let filled ← store reader.buf 0 data
      let bytesRd ← keptBytes size reader.totRd filled data.length
      let position :=
        if reader.totRd + data.length < size then reader.totRd + bytesRd
        else reader.position + data.length
      let buf ← store filled bytesRd [newline]
      let (buf, parsed) ← parseBlock bytesRd (bytesRd + 1) 0 buf reader.parsed
      return { reader with totRd := reader.totRd + bytesRd, position, buf, parsed }

def parseBack (first bytesRd : Nat) :
    (fuel blkparsed eol : Nat) → Bytes → List Bytes → Option (Bytes × List Bytes)
  | 0, _, _, _, _ => none
  | fuel + 1, blkparsed, eol, buf, parsed =>
    if blkparsed < bytesRd then do
      let window ← ByteImage.load buf first (bytesRd - blkparsed)
      let behind := lineLength window.reverse
      let cur := if newline ∈ window then first + (window.length - behind - 1) else first
      let line := if newline ∈ window then cur + 1 else cur
      let len := eol - line
      let ended ← store buf eol [0]
      parseBack first bytesRd fuel (blkparsed + len + 1) cur ended
        (parsed ++ [slice ended line len])
    else
      some (buf, parsed)

def firstLine (size totRd : Nat) (data : Bytes) : Nat :=
  if totRd + data.length < size then
    if newline ∈ data then lineLength data + 1 else 0
  else
    0

def toRead (size totRd : Nat) : Nat := if totRd + maxBuf < size then maxBuf else size - totRd

def backwardTurn (content : Bytes) (size : Nat) (reader : LogReader) :
    (answer : Option Nat) → Option LogReader
  | none => some { reader with failed := true }
  | some limit => do
      let seekTo := size - reader.totRd - toRead size reader.totRd
      let data := readSome content seekTo (toRead size reader.totRd) limit
      let filled ← store reader.buf 0 data
      let first := firstLine size reader.totRd data
      let bytesRd := data.length - first
      let last ← if data.length = 0 then none else filled[data.length - 1]?
      let toParse := if last = newline then bytesRd - 1 else bytesRd
      let (buf, parsed) ←
        parseBack first toParse (toParse + 1) 0 (first + toParse) filled reader.parsed
      return {
        reader with
        totRd := reader.totRd + bytesRd
        position := seekTo + data.length
        buf, parsed }

/-- `lparse_fd` ends. -/
def LparseFd (content : Bytes) (size : Nat) (answers : Nat → Option Nat) (buf : Bytes)
    (final : LogReader) : Prop :=
  Loop.EndsIn (LogReader.GoesOn size) (forwardTurn content size) answers (.start buf) final

/-- `lparse_rev_fd` ends. -/
def LparseRevFd (content : Bytes) (size : Nat) (answers : Nat → Option Nat) (buf : Bytes)
    (final : LogReader) : Prop :=
  Loop.EndsIn (LogReader.GoesOn size) (backwardTurn content size) answers (.start buf) final

end MonitorMerlin
