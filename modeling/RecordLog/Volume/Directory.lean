import RecordLog.Volume.Walk

/-!
# Directories and removal

Making a directory adds one entry; the directory above has to exist and to allow the change. Making
a directory with all those on the way to it makes what is missing and is content with what is
there. Removal takes away the entry of a file, link or device, again if the directory above allows
it; what a removed file holds stays in the volume for the descriptors that are open on it.

## Main definitions

* `RecordLog.Volume.makeDirectory` and `RecordLog.Volume.makeDirectories`.
* `RecordLog.Volume.isDirectory`.
* `RecordLog.Volume.remove`.
-/

namespace RecordLog.Volume

/-- Makes a directory, for which a mode is asked. -/
def makeDirectory (v : Volume) (p : Bytes) (asked : Mode) : Except SystemError Volume :=
  match v.locate .entry p with
  | .error e => .error e
  | .ok (.directory _) => .error (.os Errno.entryExists)
  | .ok (.name dir n _) =>
    if maxName < n.length then
      .error (.os Errno.nameTooLong)
    else
      match v.entry? (dir ++ [n]) with
      | some _ => .error (.os Errno.entryExists)
      | none =>
        if v.canAlter dir then
          let mode := directoryMode v.conditions.umask asked (v.modeOfDirectory dir)
          .ok (v.addEntry (dir ++ [n]) (.directory mode))
        else
          .error (.os Errno.accessDenied)

/-- Whether a path leads to a directory. -/
def isDirectory (v : Volume) (p : Bytes) : Bool :=
  match v.locate .object p with
  | .ok (.directory _) => true
  | .ok (.name dir n _) =>
    match v.entry? (dir ++ [n]) with
    | some (.directory _) => true
    | _ => false
  | .error _ => false

/-- The mode asked for directories that are made on the way to others. -/
def defaultDirectoryMode : Mode := 0o777

/-- Makes a directory given by the paths to it and to the directories above it, the lowest first.
Those above are made only if they are found missing. The volume is that after what was made, also
if not everything could be. -/
def makeDirectoryChain (v : Volume) : List Bytes → Except SystemError Unit × Volume
  | [] => (.ok (), v)
  | p :: above =>
    match make v p with
    | .inl r => r
    | .inr _ =>
      match makeDirectoryChain v above with
      | (.error e, v) => (.error e, v)
      | (.ok (), v) =>
        match make v p with
        | .inl r => r
        | .inr e => (.error e, v)
where
  /-- Makes one directory, content with one that is there. On the right is the error if something
  on the way is missing. -/
  make (v : Volume) (p : Bytes) : (Except SystemError Unit × Volume) ⊕ SystemError :=
    match v.makeDirectory p defaultDirectoryMode with
    | .ok v => .inl (.ok (), v)
    | .error e =>
      if e.code = .notFound then .inr e
      else if v.isDirectory p then .inl (.ok (), v)
      else .inl (.error e, v)

/-- Makes a directory and the missing ones on the way to it. -/
def makeDirectories (v : Volume) (p : Bytes) : Except SystemError Unit × Volume :=
  v.makeDirectoryChain (Path.ancestors p)

/-- Removes the entry of a file, link or device. -/
def remove (v : Volume) (p : Bytes) : Except SystemError Volume :=
  match v.locate .entry p with
  | .error e => .error e
  | .ok (.directory _) => .error (.os Errno.isDirectory)
  | .ok (.name dir n slashed) =>
    if maxName < n.length then
      .error (.os Errno.nameTooLong)
    else
      match v.entry? (dir ++ [n]) with
      | none => .error (.os Errno.noEntry)
      | some e =>
        if slashed then
          .error (.os (if e.isDirectory then Errno.isDirectory else Errno.notDirectory))
        else if !v.canAlter dir then
          .error (.os Errno.accessDenied)
        else if e.isDirectory then
          .error (.os Errno.isDirectory)
        else
          .ok (v.removeEntry (dir ++ [n]))

end RecordLog.Volume
