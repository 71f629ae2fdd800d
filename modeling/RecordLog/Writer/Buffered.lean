import RecordLog.Writer.Direct
import RecordLog.Writer.Stream

/-!
# Buffered writers

A buffered writer holds appended bytes back in a buffer. They reach the volume when the buffer is
full, at a flush or sync, and when the writer is closed or given up. Closing releases the
descriptor even if the last bytes cannot be written. Once closed a writer stays closed: closing it
again and appending nothing succeed, all else fails.

## Main definitions

* `RecordLog.BufferedWriter`, with `append`, `flush`, `sync`, `close` and `drop`.
* `RecordLog.BufferedWriter.pending`, the bytes appended that the volume does not have yet.
-/

namespace RecordLog

/-- A writer that holds bytes back, with the path that it was opened with. Without a stream it is
closed. It is told whether a sync is to include the properties of the file. -/
structure BufferedWriter where
  path : Bytes
  capacity : Nat
  stream : Option Stream
  syncMetadata : Bool
  deriving DecidableEq, Repr

namespace BufferedWriter

/-- The bytes appended that the volume does not have yet. -/
def pending (w : BufferedWriter) : Bytes :=
  match w.stream with
  | none => []
  | some s => s.pending

/-- What an operation of the stream comes to for the writer. -/
def ofStream (w : BufferedWriter) (r : Stream.Result) : Outcome BufferedWriter :=
  ⟨r.1.mapError (.refused w.path), r.2.1, { w with stream := some r.2.2 }⟩

/-- Appends bytes. Nothing is done for no bytes. -/
def append (v : Volume) (w : BufferedWriter) (data : Bytes) : Outcome BufferedWriter :=
  if data = [] then
    ⟨.ok (), v, w⟩
  else
    match w.stream with
    | none => ⟨.error (.closed w.path), v, w⟩
    | some s => w.ofStream (s.append w.capacity v data)

/-- Writes out the buffer. -/
def flush (v : Volume) (w : BufferedWriter) : Outcome BufferedWriter :=
  match w.stream with
  | none => ⟨.error (.closed w.path), v, w⟩
  | some s => w.ofStream (s.spill v)

/-- Writes out the buffer and asks that what was written be durable, together with the properties of
the file if so told. -/
def sync (v : Volume) (w : BufferedWriter) : Outcome BufferedWriter :=
  match w.flush v with
  | ⟨.error e, v, w⟩ => ⟨.error e, v, w⟩
  | ⟨.ok (), v, w⟩ =>
    match w.stream with
    | none => ⟨.error (.closed w.path), v, w⟩
    | some s =>
      let synced := if w.syncMetadata then v.syncAll s.descriptor else v.syncData s.descriptor
      ⟨synced.mapError (.unsynced w.path), v, w⟩

/-- Writes out the buffer and closes the writer, whether or not that succeeds. If it does not, the
stream tries once more while it is taken apart. -/
def close (v : Volume) (w : BufferedWriter) : Outcome BufferedWriter :=
  match w.stream with
  | none => ⟨.ok (), v, w⟩
  | some s =>
    match s.spill v with
    | (.ok (), v, _) => ⟨.ok (), v, { w with stream := none }⟩
    | (.error e, v, s) => ⟨.error (.refused w.path e), s.release v, { w with stream := none }⟩

/-- The volume after the writer is given up: it writes out the buffer if it can, and then takes the
stream apart. -/
def drop (v : Volume) (w : BufferedWriter) : Volume :=
  match w.stream with
  | none => v
  | some s =>
    match s.spill v with
    | (_, v, s) => s.release v

end BufferedWriter

end RecordLog
