import RecordLog.System.Error
import RecordLog.Volume.Path
import RecordLog.Volume.Permission

/-!
# Volumes

A volume is a tree of directories, files, symbolic links and devices. An entry is found by its
location, the names on the way to it from the root. What a file holds is kept apart from its
entry, since a file that has been removed lives on for the descriptors that are open on it. What a
process can do on a volume is also up to conditions that nothing on the volume changes.

## Main definitions

* `RecordLog.Volume`, with `Volume.Entry`, `Volume.File` and `Volume.Device`.
* `RecordLog.Volume.Conditions`: what is masked, how large files get, and whether syncs work.
* `RecordLog.Volume.entry?`, `RecordLog.Volume.addEntry`, `RecordLog.Volume.removeEntry`.
* `RecordLog.Volume.canSearch`, `RecordLog.Volume.canList` and `RecordLog.Volume.canAlter`, what
  the permission bits of directories allow.
* `RecordLog.Volume.empty`, a volume with an empty working directory.
* `RecordLog.Volume.listing`, what can be found below the working directory.
-/

namespace RecordLog

namespace Volume

/-- Where an entry is: the names from the root to it, none for the root. -/
abbrev Location := List Name

/-- Devices that can be written to. -/
inductive Device
  /-- Takes all bytes and forgets them. -/
  | null
  /-- Has no room for any byte. -/
  | full
  deriving DecidableEq, Repr

/-- What can be at a location. A file is given by its position among the files of the volume. -/
inductive Entry
  | directory (mode : Mode)
  | file (id : Nat)
  | symlink (target : Bytes)
  | device (d : Device)
  deriving DecidableEq, Repr

/-- Whether an entry is a directory. -/
def Entry.isDirectory : Entry → Bool
  | .directory _ => true
  | _ => false

/-- What a file holds, with its permission bits. -/
structure File where
  mode : Mode
  content : Bytes
  deriving DecidableEq, Repr

/-- A file after a change to another content. -/
def File.changed (f : File) (content : Bytes) : File := ⟨modeAfterChange f.mode, content⟩

/-- What holds for a process and for the medium beneath a volume, whatever is done there. -/
structure Conditions where
  /-- The permission bits that are not given to what the process creates. -/
  umask : Mode := 0o022
  /-- How many bytes a file can hold, unless it can hold any number. -/
  sizeLimit : Option Nat := none
  /-- Whether it fails to make what files hold durable, -/
  dataSyncFails : Bool := false
  /-- and whether it fails to do so together with their properties. -/
  fullSyncFails : Bool := false
  deriving DecidableEq, Repr

end Volume

/-- A tree of entries, the files in the order in which they were made, the directory at which paths
start that are not absolute, and the conditions of it all. -/
structure Volume where
  entries : List (Volume.Location × Volume.Entry)
  files : List Volume.File
  workingDirectory : Volume.Location
  conditions : Volume.Conditions := {}
  deriving DecidableEq, Repr

namespace Volume

/-! ### Entries -/

/-- What is at a location. -/
def entry? (v : Volume) (l : Location) : Option Entry := v.entries.lookup l

/-- The volume with an entry at a location where there was none. -/
def addEntry (v : Volume) (l : Location) (e : Entry) : Volume :=
  { v with entries := v.entries ++ [(l, e)] }

/-- The volume without the entry at a location. -/
def removeEntry (v : Volume) (l : Location) : Volume :=
  { v with entries := v.entries.filter (·.1 ≠ l) }

/-- The volume with another file in place of one. -/
def setFile (v : Volume) (id : Nat) (f : File) : Volume :=
  { v with files := v.files.set id f }

/-- The volume with a new file that lies at a location. -/
def addFile (v : Volume) (l : Location) (f : File) : Volume :=
  { v.addEntry l (.file v.files.length) with files := v.files ++ [f] }

/-! ### Permission bits -/

/-- The permission bits at a location, if it is that of a directory. -/
def modeOfDirectory (v : Volume) (l : Location) : Mode :=
  match v.entry? l with
  | some (.directory m) => m
  | _ => 0

/-- Whether there is a directory at a location that allows to search it. -/
def canSearch (v : Volume) (l : Location) : Bool := allows (v.modeOfDirectory l) .search

/-- Whether there is a directory at a location that allows to read the names in it. -/
def canList (v : Volume) (l : Location) : Bool := allows (v.modeOfDirectory l) .read

/-- Whether there is a directory at a location in which entries can be made and removed. -/
def canAlter (v : Volume) (l : Location) : Bool :=
  allows (v.modeOfDirectory l) .write && v.canSearch l

/-! ### A new volume and what it shows -/

/-- The directories of a new volume besides the working directory, with the devices in one. -/
def systemEntries : List (Location × Entry) :=
  ([], .directory 0o755) ::
    (["dev", "etc", "home", "proc", "root", "sys", "tmp", "usr", "var"].map fun s =>
      ([Bytes.ofAscii s], .directory 0o755)) ++
    [([Bytes.ofAscii "dev", Bytes.ofAscii "null"], .device .null),
      ([Bytes.ofAscii "dev", Bytes.ofAscii "zero"], .device .null),
      ([Bytes.ofAscii "dev", Bytes.ofAscii "full"], .device .full)]

/-- A volume with an empty working directory. -/
def empty : Volume :=
  let work := [Bytes.ofAscii "tmp", Bytes.ofAscii "work"]
  { entries := systemEntries ++ [(work, .directory 0o755)], files := [], workingDirectory := work }

/-- What is shown of an entry below the working directory. -/
inductive Shown
  | directory (mode : Mode)
  | file (mode : Mode) (content : Bytes)
  | symlink
  deriving DecidableEq, Repr

/-- What is shown of an entry. The content of a file that cannot be read is shown as none. -/
def shown (v : Volume) : Entry → Option Shown
  | .directory m => some (.directory m)
  | .file id =>
    (v.files[id]?).map fun f => .file f.mode (if allows f.mode .read then f.content else [])
  | .symlink _ => some .symlink
  | .device _ => none

/-- Whether what lies at the end of a way down from a directory can be found by listing and
searching the directories on the way. -/
def isVisible (v : Volume) : Location → List Name → Bool
  | _, [] => true
  | dir, n :: rest => v.canList dir && v.canSearch dir && isVisible v (dir ++ [n]) rest

/-- What lies below the working directory and can be found from there, each with its names. -/
def listing (v : Volume) : List (List Name × Shown) :=
  v.entries.filterMap fun (l, e) =>
    let names := l.drop v.workingDirectory.length
    if v.workingDirectory.isPrefixOf l && names ≠ [] && v.isVisible v.workingDirectory names then
      (v.shown e).map fun s => (names, s)
    else
      none

end Volume

end RecordLog
