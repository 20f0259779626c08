import Minnow.ByteStream
import Minnow.Library.Fragments
import Minnow.Library.Slice

set_option autoImplicit false

/-! # The reassembler

`reassembler.rs`: fragments of a byte stream arrive in any order, overlapping and repeated;
the bytes that are contiguous with what has been assembled go to the output stream, the
others wait in `pending`, an ordered map from stream indices to bytes. The window of
acceptable indices ends where the output's capacity ends.

The two loops are recursions on a budget. `insertMissingGaps` gets one iteration for every
byte of the fragment, `flushContiguous` two for every pending fragment.
-/

namespace Minnow

inductive ReassemblerError where
  | indexOverflow
  | inconsistentEof (existing received : Nat)
  | segmentBeyondEof (eof segmentStart segmentEnd : Nat)
  | bufferedDataBeyondEof (eof bufferedEnd : Nat)
  deriving DecidableEq, Repr

/-- `BTreeMap<u64, Bytes>`. -/
abbrev Pending : Type := SortedMap Nat Bytes

structure Reassembler where
  output : ByteStream
  pending : Pending
  eofIndex : Option Nat

namespace Reassembler

open Fragments

/-! ## Assertions -/

/-- The loop of `debug_check_invariants` over the pending fragments. -/
def checkPending (firstUnassembled firstUnacceptable : Nat) (eofIndex : Option Nat) :
    Option Nat → List (Nat × Bytes) → Exec Unit
  | _, [] => .ok ()
  | previousEnd, (start, data) :: rest => do
      Exec.assert (data ≠ [])
      let fragmentEnd := saturatingAdd start data.length
      Exec.assert (firstUnassembled ≤ start)
      Exec.assert (fragmentEnd ≤ firstUnacceptable)
      Exec.assert (∀ previous ∈ previousEnd, previous ≤ start)
      Exec.assert (∀ eof ∈ eofIndex, fragmentEnd ≤ eof)
      checkPending firstUnassembled firstUnacceptable eofIndex (some fragmentEnd) rest

def bytesPending (pending : Pending) : Nat := totalLength pending

/-- The first index the receive window excludes. -/
def firstUnacceptable (r : Reassembler) : Nat :=
  saturatingAdd r.output.bytesPopped r.output.capacity

def debugCheckInvariants (r : Reassembler) : Exec Unit := do
  checkPending r.output.bytesPushed r.firstUnacceptable r.eofIndex none r.pending.entries
  Exec.assert (saturatingAdd r.output.bytesBuffered (bytesPending r.pending) ≤ r.output.capacity)
  Exec.assert (∀ eof ∈ r.eofIndex, r.output.bytesPushed ≤ eof)

def new (capacity : Nat) : Exec Reassembler := do
  let r : Reassembler :=
    { output := ByteStream.new capacity, pending := SortedMap.empty, eofIndex := none }
  r.debugCheckInvariants
  .ok r

/-! ## Storing a fragment in the gaps of the pending map -/

def insertGap (pending : Pending) (originalStart : Nat) (originalData : Bytes)
    (gapStart gapEnd : Nat) : Exec Pending :=
  if gapEnd ≤ gapStart then .ok pending
  else do
    let sliceStart ← Exec.expect (checkedSub gapStart originalStart)
    let sliceEnd ← Exec.expect (checkedSub gapEnd originalStart)
    let gap ← sliceRange originalData sliceStart sliceEnd
    -- `insert` returns the fragment it replaced
    Exec.assert (pending.get? gapStart = none)
    .ok (pending.insert gapStart gap)

/-- The cursor loop of `insert_missing_gaps`. -/
def fillGaps (start : Nat) (data : Bytes) (fragmentEnd : Nat) :
    Nat → Nat → Pending → Exec Pending
  | budget, cursor, pending =>
      if cursor < fragmentEnd then
        match budget with
        | 0 => .error .divergence
        | budget + 1 =>
            match pending.firstIn? cursor fragmentEnd with
            | some (nextStart, nextData) => do
                let nextEnd := saturatingAdd nextStart nextData.length
                let gapFilled :=
                  if cursor < nextStart then insertGap pending start data cursor nextStart
                  else .ok pending
                let pending ← gapFilled
                fillGaps start data fragmentEnd budget (min (max cursor nextEnd) fragmentEnd) pending
            | none => insertGap pending start data cursor fragmentEnd
      else .ok pending

/-- `insert_missing_gaps`, which changes nothing but the pending map. -/
def insertMissingGaps (pending : Pending) (start : Nat) (data : Bytes) : Exec Pending :=
  if data = [] then .ok pending
  else do
    let fragmentEnd ← Exec.expect (checkedAdd start data.length)
    let cursor :=
      match pending.lastUpTo? start with
      | some (previousStart, previousData) =>
          let previousEnd := saturatingAdd previousStart previousData.length
          if start < previousEnd then min previousEnd fragmentEnd else start
      | none => start
    fillGaps start data fragmentEnd data.length cursor pending

/-! ## Moving contiguous fragments to the output -/

def trimStalePrefix (pending : Pending) (start nextRequired : Nat) : Exec Pending := do
  let data ← Exec.expect (pending.get? start)
  let pending := pending.remove start
  let fragmentEnd := saturatingAdd start data.length
  if fragmentEnd ≤ nextRequired then .ok pending
  else do
    let suffixStart ← Exec.expect (checkedSub nextRequired start)
    let suffix ← sliceFrom data suffixStart
    .ok (pending.insert nextRequired suffix)

/-- The loop of `flush_contiguous`. -/
def flushLoop : Nat → ByteStream → Pending → Exec (ByteStream × Pending)
  | budget, output, pending =>
      let nextRequired := output.bytesPushed
      match pending.first? with
      | none => .ok (output, pending)
      | some (start, _) =>
          match budget with
          | 0 => .error .divergence
          | budget + 1 =>
              if start < nextRequired then do
                let pending ← trimStalePrefix pending start nextRequired
                flushLoop budget output pending
              else if start ≠ nextRequired then .ok (output, pending)
              else do
                let data ← Exec.expect (pending.get? start)
                let pending := pending.remove start
                let (output, accepted) := output.push data
                Exec.assert (accepted ≤ data.length)
                if accepted < data.length then do
                  let remainder ← sliceFrom data accepted
                  .ok (output, pending.insert (start + accepted) remainder)
                else flushLoop budget output pending

def flushContiguous (r : Reassembler) : Exec Reassembler := do
  let (output, pending) ← flushLoop (2 * r.pending.length) r.output r.pending
  .ok { r with output := output, pending := pending }

/-! ## The end of the stream -/

/-- The loop of `record_and_validate_eof` over the pending fragments. -/
def checkBufferedBeyond (receivedEof : Nat) : List (Nat × Bytes) → Except ReassemblerError Unit
  | [] => .ok ()
  | (start, data) :: rest =>
      match checkedAdd start data.length with
      | none => .error .indexOverflow
      | some fragmentEnd =>
          if receivedEof < fragmentEnd then
            .error (.bufferedDataBeyondEof receivedEof fragmentEnd)
          else checkBufferedBeyond receivedEof rest

/-- `record_and_validate_eof`; an error leaves the reassembler as it was. -/
def recordAndValidateEof (r : Reassembler) (receivedEof : Nat) (isLastSubstring : Bool) :
    Except ReassemblerError Reassembler :=
  if !isLastSubstring then .ok r
  else
    match r.eofIndex with
    | some existing =>
        if existing ≠ receivedEof then .error (.inconsistentEof existing receivedEof) else .ok r
    | none =>
        if receivedEof < r.output.bytesPushed then
          .error (.bufferedDataBeyondEof receivedEof r.output.bytesPushed)
        else
          match checkBufferedBeyond receivedEof r.pending.entries with
          | .error e => .error e
          | .ok () => .ok { r with eofIndex := some receivedEof }

def closeIfComplete (r : Reassembler) : Reassembler :=
  match r.eofIndex with
  | some eofIndex =>
      if r.output.bytesPushed = eofIndex then { r with output := r.output.close } else r
  | none => r

/-! ## Inserting a fragment -/

/-- The part of `try_insert` behind the validation: clip the fragment to the window, store
it and flush. -/
def insertClipped (r : Reassembler) (firstIndex : Nat) (data : Bytes) (originalEnd : Nat) :
    Exec Reassembler :=
  let clippedStart := max firstIndex r.output.bytesPushed
  let clippedEnd := min originalEnd r.firstUnacceptable
  if clippedStart < clippedEnd then do
    let clippedData ← sliceRange data (clippedStart - firstIndex) (clippedEnd - firstIndex)
    if clippedStart = r.output.bytesPushed then
      flushContiguous { r with output := (r.output.push clippedData).1 }
    else do
      let pending ← insertMissingGaps r.pending clippedStart clippedData
      flushContiguous { r with pending := pending }
  else .ok r

/-- `try_insert`: the new state and the result, for an error may have come after a write. -/
def tryInsert (r : Reassembler) (firstIndex : Nat) (data : Bytes) (isLastSubstring : Bool) :
    Exec (Reassembler × Except ReassemblerError Unit) :=
  match checkedAdd firstIndex data.length with
  | none => .ok (r, .error .indexOverflow)
  | some originalEnd =>
      match r.recordAndValidateEof originalEnd isLastSubstring with
      | .error e => .ok (r, .error e)
      | .ok r =>
          match r.eofIndex.filter (fun eof => decide (eof < originalEnd)) with
          | some eof => .ok (r, .error (.segmentBeyondEof eof firstIndex originalEnd))
          | none => do
              let r ← r.insertClipped firstIndex data originalEnd
              let r := r.closeIfComplete
              r.debugCheckInvariants
              .ok (r, .ok ())

end Reassembler

end Minnow
