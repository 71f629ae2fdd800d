import RecordLog.Writer.Buffered

/-!
# Writers

A writer is a direct or a buffered one, and does what that one does.

## Main definitions

* `RecordLog.Writer`, with `append`, `flush`, `sync`, `close` and `drop`.
-/

namespace RecordLog

/-- A writer of either kind. -/
inductive Writer
  | direct (w : DirectWriter)
  | buffered (w : BufferedWriter)
  deriving DecidableEq, Repr

/-- The same outcome with the writer seen as another. -/
def Outcome.map {W W' : Type} (f : W → W') (o : Outcome W) : Outcome W' :=
  ⟨o.result, o.volume, f o.writer⟩

namespace Writer

/-- The path that a writer was opened with. -/
def path : Writer → Bytes
  | .direct w => w.path
  | .buffered w => w.path

/-- The bytes appended that the volume does not have yet. -/
def pending : Writer → Bytes
  | .direct _ => []
  | .buffered w => w.pending

/-- Appends bytes. -/
def append (v : Volume) (w : Writer) (data : Bytes) : Outcome Writer :=
  match w with
  | .direct w => (w.append v data).map .direct
  | .buffered w => (w.append v data).map .buffered

/-- Brings all appended bytes to the volume. -/
def flush (v : Volume) : Writer → Outcome Writer
  | .direct w => (w.flush v).map .direct
  | .buffered w => (w.flush v).map .buffered

/-- Brings all appended bytes to the volume and asks that they be durable there. -/
def sync (v : Volume) : Writer → Outcome Writer
  | .direct w => (w.sync v).map .direct
  | .buffered w => (w.sync v).map .buffered

/-- Closes a writer. -/
def close (v : Volume) : Writer → Outcome Writer
  | .direct w => (w.close v).map .direct
  | .buffered w => (w.close v).map .buffered

/-- The volume after a writer is given up. -/
def drop (v : Volume) : Writer → Volume
  | .direct w => w.drop v
  | .buffered w => w.drop v

end Writer

end RecordLog
