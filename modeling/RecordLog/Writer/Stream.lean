import RecordLog.Volume.Descriptor

/-!
# Buffered streams

A stream holds bytes back before it writes them through its descriptor, up to a capacity. Bytes
that leave room in the buffer are put into it. Otherwise the buffer is written out first if the
bytes do not fit behind what it holds; then they go to the buffer if that is larger than they are,
and else are written at once. If the buffer cannot be written out, what has been written is taken
from it and the rest stays.

## Main definitions

* `RecordLog.Stream`, with `Stream.spill`, `Stream.append` and `Stream.release`.
-/

namespace RecordLog

/-- A descriptor with the bytes that are still to be written through it. -/
structure Stream where
  descriptor : Descriptor
  pending : Bytes
  deriving DecidableEq, Repr

namespace Stream

/-- The result of an operation of a stream, and the volume and the stream after it. -/
abbrev Result := Except SystemError Unit × Volume × Stream

/-- Writes bytes through the descriptor, past the buffer. -/
def writeThrough (v : Volume) (s : Stream) (data : Bytes) : Result :=
  let r := v.writeAll s.descriptor data
  (r.result, r.volume, { s with descriptor := r.descriptor })

/-- Writes out the buffer, which then holds what could not be written. -/
def spill (v : Volume) (s : Stream) : Result :=
  let r := v.writeAll s.descriptor s.pending
  (r.result, r.volume, ⟨r.descriptor, r.rest⟩)

/-- The volume after the stream is taken apart: what is in the buffer is written out if it can. -/
def release (v : Volume) (s : Stream) : Volume := (s.spill v).2.1

/-- Puts bytes into the buffer. -/
def hold (v : Volume) (s : Stream) (data : Bytes) : Result :=
  (.ok (), v, { s with pending := s.pending ++ data })

/-- Appends bytes to a stream with a buffer of the given capacity. -/
def append (capacity : Nat) (v : Volume) (s : Stream) (data : Bytes) : Result :=
  let spare := capacity - s.pending.length
  if data.length < spare then
    hold v s data
  else
    match if spare < data.length then spill v s else (.ok (), v, s) with
    | (.error e, v, s) => (.error e, v, s)
    | (.ok (), v, s) => if capacity ≤ data.length then writeThrough v s data else hold v s data

@[simp] theorem release_nil (v : Volume) (d : Descriptor) : release v ⟨d, []⟩ = v := rfl

end Stream

end RecordLog
