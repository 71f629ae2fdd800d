import RecordLog.Volume.Descriptor

/-!
# Furnished volumes

A volume is furnished with directories, files and symbolic links before it is used. Each may have a
mode of its own, which for a link goes to what it leads to. All of it has to succeed.

## Main definitions

* `RecordLog.Volume.Fixture` and `RecordLog.Volume.FixtureError`.
* `RecordLog.Volume.changeMode` and `RecordLog.Volume.makeLink`.
* `RecordLog.Volume.furnish`.
-/

namespace RecordLog.Volume

/-! ### Modes and links -/

/-- The volume with another mode for what is at a location. -/
def changeModeAt (v : Volume) (l : Location) (m : Mode) : Except SystemError Volume :=
  match v.entry? l with
  | none => .error (.os Errno.noEntry)
  | some (.file id) =>
    match v.files[id]? with
    | some f => .ok (v.setFile id { f with mode := m &&& allBits })
    | none => .error (.os Errno.noEntry)
  | some (.directory _) =>
    .ok { v with
      entries := v.entries.map fun e => if e.1 = l then (l, .directory (m &&& allBits)) else e }
  | some (.device _) => .ok v
  | some (.symlink _) => .error (.os Errno.tooManyLinks)

/-- The volume with another mode for what a path leads to. -/
def changeMode (v : Volume) (p : Bytes) (m : Mode) : Except SystemError Volume :=
  match v.locate .object p with
  | .error e => .error e
  | .ok (.directory l) => v.changeModeAt l m
  | .ok (.name dir n _) =>
    if maxName < n.length then .error (.os Errno.nameTooLong) else v.changeModeAt (dir ++ [n]) m

/-- Makes a symbolic link with a given target. -/
def makeLink (v : Volume) (p target : Bytes) : Except SystemError Volume :=
  if 0 ∈ target then
    .error .nulInName
  else if target = [] then
    .error (.os Errno.noEntry)
  else if maxPath < target.length then
    .error (.os Errno.nameTooLong)
  else
    match v.locate .entry p with
    | .error e => .error e
    | .ok (.directory _) => .error (.os Errno.entryExists)
    | .ok (.name dir n slashed) =>
      if maxName < n.length then
        .error (.os Errno.nameTooLong)
      else
        match v.entry? (dir ++ [n]) with
        | some _ => .error (.os Errno.entryExists)
        | none =>
          if slashed then .error (.os Errno.noEntry)
          else if v.canAlter dir then .ok (v.addEntry (dir ++ [n]) (.symlink target))
          else .error (.os Errno.accessDenied)

/-! ### Fixtures -/

/-- What a fixture is. -/
inductive Fixture.Kind
  | directory
  | file (content : Bytes)
  | symlink (target : Bytes)
  deriving DecidableEq, Repr

/-- Something to be in a volume from the start, at a path and perhaps with a mode of its own. -/
structure Fixture where
  path : Bytes
  kind : Fixture.Kind
  mode : Option Mode
  deriving DecidableEq, Repr

/-- Why a volume cannot be furnished: what the system says of the fixture at a path. -/
structure FixtureError where
  path : Bytes
  cause : SystemError
  deriving DecidableEq, Repr

/-- What is said of a volume that cannot be furnished. -/
def FixtureError.message (e : FixtureError) : Text :=
  "setup ".toList ++ Utf8.decodeLossy e.path ++ ": ".toList ++ e.cause.description.toList

/-- The mode asked for files that no options ask a mode for. -/
def defaultFileMode : Mode := 0o666

/-- The volume with a file of given content at a path. -/
def makeFile (v : Volume) (p content : Bytes) : Except SystemError Volume :=
  match v.openToWrite p defaultFileMode with
  | .error e => .error e
  | .ok (v, d) =>
    let w := v.writeAll d content
    w.result.map fun () => w.volume

/-- The volume with what a fixture is at a path. -/
def make (v : Volume) (p : Bytes) : Fixture.Kind → Except SystemError Volume
  | .directory =>
    match v.makeDirectories p with
    | (.error e, _) => .error e
    | (.ok (), v) => .ok v
  | .file content => v.makeFile p content
  | .symlink target => v.makeLink p target

/-- The volume with a fixture. -/
def install (v : Volume) (f : Fixture) : Except SystemError Volume :=
  match v.make f.path f.kind, f.mode with
  | .ok v, some m => v.changeMode f.path m
  | r, _ => r

/-- The volume with fixtures, made in their order. -/
def furnish (v : Volume) : List Fixture → Except FixtureError Volume
  | [] => .ok v
  | f :: fs =>
    match v.install f with
    | .error e => .error ⟨f.path, e⟩
    | .ok v => furnish v fs

end RecordLog.Volume
