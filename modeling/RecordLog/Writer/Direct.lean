import RecordLog.Volume.Descriptor

/-!
# Direct writers

A direct writer hands each append to the volume at once, so that a flush has nothing to do. Once
closed it stays closed: closing it again and appending nothing succeed, all else fails.

## Main definitions

* `RecordLog.Outcome`, the result of an operation of a writer and what it leaves behind.
* `RecordLog.DirectWriter`, with `append`, `flush`, `sync`, `close` and `drop`.
-/

namespace RecordLog

/-- What an operation of a writer comes to: its result, the volume and the writer after it. -/
structure Outcome (W : Type) where
  result : Except FileError Unit
  volume : Volume
  writer : W

/-- A writer that writes each append at once, with the path that it was opened with. Without a
descriptor it is closed. It is told whether a sync is to include the properties of the file. -/
structure DirectWriter where
  path : Bytes
  descriptor : Option Descriptor
  syncMetadata : Bool
  deriving DecidableEq, Repr

namespace DirectWriter

/-- Writes bytes behind those written before. Nothing is written for no bytes. If not all can be
written, the writer goes on behind those that could. -/
def append (v : Volume) (w : DirectWriter) (data : Bytes) : Outcome DirectWriter :=
  if data = [] then
    ⟨.ok (), v, w⟩
  else
    match w.descriptor with
    | none => ⟨.error (.closed w.path), v, w⟩
    | some d =>
      let r := v.writeAll d data
      ⟨r.result.mapError (.refused w.path), r.volume, { w with descriptor := some r.descriptor }⟩

/-- Succeeds unless the writer is closed. -/
def flush (v : Volume) (w : DirectWriter) : Outcome DirectWriter :=
  match w.descriptor with
  | none => ⟨.error (.closed w.path), v, w⟩
  | some _ => ⟨.ok (), v, w⟩

/-- Asks that what was written be durable, together with the properties of the file if so told. -/
def sync (v : Volume) (w : DirectWriter) : Outcome DirectWriter :=
  match w.descriptor with
  | none => ⟨.error (.closed w.path), v, w⟩
  | some d =>
    let synced := if w.syncMetadata then v.syncAll d else v.syncData d
    ⟨synced.mapError (.unsynced w.path), v, w⟩

/-- Closes the writer. -/
def close (v : Volume) (w : DirectWriter) : Outcome DirectWriter :=
  ⟨.ok (), v, { w with descriptor := none }⟩

/-- The volume after the writer is given up without being closed. -/
def drop (v : Volume) (_ : DirectWriter) : Volume := v

end DirectWriter

end RecordLog
