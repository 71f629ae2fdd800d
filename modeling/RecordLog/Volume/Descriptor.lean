import RecordLog.Volume.Directory

/-!
# Descriptors

A descriptor is open on an object of a volume, for reading or for writing, and writes at an offset
of its own, which starts at zero and moves behind what is written. Bytes between the end of a file
and an offset beyond it are zero once something is written there. A write takes no more bytes than
the file has room for, and to write them all is to write again until there are none left or the file
is full. Permission bits are asked when an object is opened and not afterwards, and not for a file
that is made by opening it.

## Main definitions

* `RecordLog.Descriptor`.
* `RecordLog.Volume.openToWrite` and `RecordLog.Volume.openToRead`.
* `RecordLog.Volume.write`, a single write, and `RecordLog.Volume.writeAll`.
* `RecordLog.Volume.syncData` and `RecordLog.Volume.syncAll`.
-/

namespace RecordLog

/-- What a descriptor is open on. -/
inductive Descriptor.Object
  | file (id : Nat)
  | directory
  | device (d : Volume.Device)
  deriving DecidableEq, Repr

/-- An open object, with the offset at which the next write begins. -/
structure Descriptor where
  object : Descriptor.Object
  writable : Bool
  offset : Nat := 0
  deriving DecidableEq, Repr

namespace Volume

/-! ### Opening -/

/-- Opens a path to write to it from the start. A file there loses what it holds; where there is no
entry, a file is made, for which a mode is asked. -/
def openToWrite (v : Volume) (p : Bytes) (asked : Mode) :
    Except SystemError (Volume × Descriptor) :=
  match v.locate .target p with
  | .error e => .error e
  | .ok (.directory _) => .error (.os Errno.isDirectory)
  | .ok (.name dir n slashed) =>
    if slashed then
      .error (.os Errno.isDirectory)
    else if maxName < n.length then
      .error (.os Errno.nameTooLong)
    else
      match v.entry? (dir ++ [n]) with
      | none =>
        if v.canAlter dir then
          .ok (v.addFile (dir ++ [n]) ⟨fileMode v.conditions.umask asked, []⟩,
            { object := .file v.files.length, writable := true })
        else
          .error (.os Errno.accessDenied)
      | some (.file id) =>
        match v.files[id]? with
        | some f =>
          if allows f.mode .write then
            .ok (v.setFile id (f.changed []), { object := .file id, writable := true })
          else
            .error (.os Errno.accessDenied)
        | none => .error (.os Errno.noEntry)
      | some (.device d) => .ok (v, { object := .device d, writable := true })
      | some (.directory _) => .error (.os Errno.isDirectory)
      | some (.symlink _) => .error (.os Errno.tooManyLinks)

/-- A descriptor for reading an object with given permission bits. -/
def reader (m : Mode) (o : Descriptor.Object) : Except SystemError Descriptor :=
  if allows m .read then .ok { object := o, writable := false }
  else .error (.os Errno.accessDenied)

/-- Opens a path to read from it. -/
def openToRead (v : Volume) (p : Bytes) : Except SystemError Descriptor :=
  match v.locate .object p with
  | .error e => .error e
  | .ok (.directory l) => reader (v.modeOfDirectory l) .directory
  | .ok (.name dir n _) =>
    if maxName < n.length then
      .error (.os Errno.nameTooLong)
    else
      match v.entry? (dir ++ [n]) with
      | none => .error (.os Errno.noEntry)
      | some (.file id) =>
        match v.files[id]? with
        | some f => reader f.mode (.file id)
        | none => .error (.os Errno.noEntry)
      | some (.device d) => .ok { object := .device d, writable := false }
      | some (.directory m) => reader m .directory
      | some (.symlink _) => .error (.os Errno.tooManyLinks)

/-! ### Writing -/

/-- The content of a file after bytes have been written at an offset. -/
def overwritten (content : Bytes) (offset : Nat) (data : Bytes) : Bytes :=
  content.take offset ++ List.replicate (offset - content.length) 0 ++ data ++
    content.drop (offset + data.length)

/-- How many of some bytes files have room for at an offset. -/
def Conditions.room (c : Conditions) (offset n : Nat) : Nat :=
  match c.sizeLimit with
  | none => n
  | some limit => min n (limit - offset)

/-- Writes bytes through a descriptor, as many of them as there is room for, and tells how many
these are. If there is no room at all, it fails. No bytes leave a file as it is. -/
def write (v : Volume) (d : Descriptor) (data : Bytes) :
    Except SystemError (Nat × Volume × Descriptor) :=
  if !d.writable then
    .error (.os Errno.badDescriptor)
  else
    match d.object with
    | .directory => .error (.os Errno.badDescriptor)
    | .device .full => .error (.os Errno.noSpace)
    | .device .null => .ok (data.length, v, d)
    | .file id =>
      match v.files[id]? with
      | none => .error (.os Errno.badDescriptor)
      | some f =>
        if data = [] then
          .ok (0, v, d)
        else
          let n := v.conditions.room d.offset data.length
          if n = 0 then
            .error (.os Errno.fileTooLarge)
          else
            .ok (n, v.setFile id (f.changed (overwritten f.content d.offset (data.take n))),
              { d with offset := d.offset + n })

/-- What writing bytes comes to: the result, the bytes that have not been written, and the volume
and the descriptor afterwards. -/
structure Written where
  result : Except SystemError Unit
  rest : Bytes
  volume : Volume
  descriptor : Descriptor

/-- Writes bytes through a descriptor by as many writes as it takes, but at most a given number. -/
def writeIn (v : Volume) (d : Descriptor) (data : Bytes) : Nat → Written
  | 0 => ⟨.ok (), data, v, d⟩
  | writes + 1 =>
    if data = [] then
      ⟨.ok (), [], v, d⟩
    else
      match v.write d data with
      | .error e => ⟨.error e, data, v, d⟩
      | .ok (n, v, d) => writeIn v d (data.drop n) writes

/-- Writes bytes through a descriptor until all are written or a write fails. Since each write takes
a byte, there are no more writes than bytes. -/
def writeAll (v : Volume) (d : Descriptor) (data : Bytes) : Written :=
  v.writeIn d data data.length

/-! ### Syncing -/

/-- Asks that what was written through a descriptor be durable, which devices cannot promise, and
which changes nothing that can be seen. -/
def sync (fails : Bool) (d : Descriptor) : Except SystemError Unit :=
  match d.object with
  | .device _ => .error (.os Errno.invalidArgument)
  | _ => if fails then .error (.os Errno.inputOutput) else .ok ()

/-- Asks that the bytes written through a descriptor be durable. -/
def syncData (v : Volume) (d : Descriptor) : Except SystemError Unit :=
  sync v.conditions.dataSyncFails d

/-- Asks that the bytes written through a descriptor be durable, and the properties of the object as
well. -/
def syncAll (v : Volume) (d : Descriptor) : Except SystemError Unit :=
  sync v.conditions.fullSyncFails d

theorem overwritten_length (content data : Bytes) :
    overwritten content content.length data = content ++ data := by
  simp [overwritten]

end Volume

end RecordLog
