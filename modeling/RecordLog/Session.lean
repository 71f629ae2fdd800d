import RecordLog.Backing
import RecordLog.Environment.Scratch
import RecordLog.Status.Render

/-!
# Sessions

A session works on a volume through a backing. Its writers are known by handles. A handle that is
opened again gives up the writer it had, but only once the new one is there. At the end the writers
that are left are given up in the order of their handles. The path of the scratch directory is what
the settings say when it is first asked for, and is kept from then on, whatever they say later.

## Main definitions

* `RecordLog.Session`, with `Session.Step`, `Session.Answer` and `Session.step`.
* `RecordLog.Session.finish`, the volume at the end.
* `RecordLog.Session.buffered`, how much the writers hold back whose handles were opened for that.
-/

namespace RecordLog

/-- A writer under a handle. An inspected one was opened as a writer of a chosen kind. -/
structure Session.Held where
  writer : Writer
  inspected : Bool
  deriving DecidableEq, Repr

/-- Work of a process on a volume through a backing, with the options for writers of a chosen kind,
the settings for the scratch directory, its path if that has been asked for, and writers in the
order of their handles. -/
structure Session where
  volume : Volume
  backing : Backing
  options : Options
  settings : Scratch.Settings
  process : Nat := 1
  keptScratch : Option Bytes := none
  held : List (String × Session.Held) := []
  deriving DecidableEq, Repr

namespace Session

/-- The path of the scratch directory: the one that has been kept, or else what the settings say. -/
def scratch (s : Session) : Bytes := s.keptScratch.getD (s.settings.path s.process)

/-- The session with the path of the scratch directory kept. -/
def keepScratch (s : Session) : Session := { s with keptScratch := some s.scratch }

/-! ### Handles -/

/-- Puts a writer under a handle, in the place of one that is there. -/
def insert (h : String) (x : Held) : List (String × Held) → List (String × Held)
  | [] => [(h, x)]
  | (k, y) :: rest =>
    if h < k then (h, x) :: (k, y) :: rest
    else if h = k then (h, x) :: rest
    else (k, y) :: insert h x rest

/-- Takes the writer under a handle away. -/
def erase (h : String) (held : List (String × Held)) : List (String × Held) :=
  held.filter (·.1 ≠ h)

/-- The volume after the writer under a handle is given up, if there is one. -/
def giveUp (v : Volume) (h : String) (held : List (String × Held)) : Volume :=
  match held.lookup h with
  | none => v
  | some x => x.writer.drop v

/-! ### Steps -/

/-- Kinds of writers that can be chosen. -/
inductive Choice
  | direct
  | buffered
  deriving DecidableEq, Repr

/-- What can be done with a writer. -/
inductive Action
  | append (data : Bytes)
  | flush
  | sync
  | close
  deriving DecidableEq, Repr

/-- What can be done in a session. -/
inductive Step
  /-- Open a path with a writer of the backing. -/
  | openNew (h : String) (p : Bytes)
  /-- Open a path with a writer of a chosen kind, on a descriptor for reading if this is asked. -/
  | openChosen (h : String) (p : Bytes) (c : Choice) (readOnly : Bool)
  /-- Do something with a writer. -/
  | act (h : String) (a : Action)
  /-- Give a writer up. -/
  | drop (h : String)
  /-- Ask a writer for its path and how much it holds back. -/
  | inspect (h : String)
  /-- Make a directory. -/
  | createDirectory (p : Bytes)
  /-- Remove an entry. -/
  | remove (p : Bytes)
  /-- Change the settings for the scratch directory. -/
  | changeSettings (x : Scratch.Settings)
  /-- Ask for the scratch directory. -/
  | scratchDirectory
  /-- Ask for the scratch directory, which has to be there. -/
  | requireScratch
  deriving DecidableEq, Repr

/-- What a step answers. -/
inductive Answer
  | done
  | failed (e : FileError)
  | noHandle
  | inspected (p : Bytes) (buffered : Option Nat)
  | directory (p : Bytes)
  | stopped (message : String)
  deriving DecidableEq, Repr

/-- What an action on a writer comes to. -/
def Action.apply (v : Volume) (w : Writer) : Action → Outcome Writer
  | .append data => w.append v data
  | .flush => w.flush v
  | .sync => w.sync v
  | .close => w.close v

/-- Opens a path with a writer of a chosen kind. -/
def openAs (s : Session) (p : Bytes) (readOnly : Bool) : Choice →
    Except FileError (Volume × Writer)
  | .direct =>
    if readOnly then
      reader.map fun d => (s.volume, .direct ⟨p, some d, s.options.syncMetadata⟩)
    else
      Backing.openDirect s.volume s.options p
  | .buffered =>
    if readOnly then
      reader.map fun d => (s.volume, Backing.bufferedWriter s.options p d)
    else
      Backing.openBuffered s.volume s.options s.options p
where
  /-- A descriptor for reading. -/
  reader : Except FileError Descriptor := (s.volume.openToRead p).mapError (.refused p)

/-- Puts a new writer under a handle, and then gives up the one that was there. -/
def hold (s : Session) (h : String) (inspected : Bool) :
    Except FileError (Volume × Writer) → Answer × Session
  | .error e => (.failed e, s)
  | .ok (v, w) =>
    (.done, { s with volume := giveUp v h s.held, held := insert h ⟨w, inspected⟩ s.held })

/-- What is said when the scratch directory that has to be there cannot be made. -/
def stopMessage (e : FileError) : String :=
  "cannot create test directory: " ++ e.status.display

/-- What a step answers, and the session after it. -/
def step (s : Session) : Step → Answer × Session
  | .openNew h p => s.hold h false (s.backing.newWriter s.volume p)
  | .openChosen h p c readOnly => s.hold h true (s.openAs p readOnly c)
  | .act h a =>
    match s.held.lookup h with
    | none => (.noHandle, s)
    | some x =>
      let o := a.apply s.volume x.writer
      let s := { s with volume := o.volume, held := insert h { x with writer := o.writer } s.held }
      match o.result with
      | .ok () => (.done, s)
      | .error e => (.failed e, s)
  | .drop h =>
    match s.held.lookup h with
    | none => (.noHandle, s)
    | some x => (.done, { s with volume := x.writer.drop s.volume, held := erase h s.held })
  | .inspect h =>
    match s.held.lookup h with
    | none => (.noHandle, s)
    | some x =>
      match x.writer with
      | .direct w => (.inspected w.path none, s)
      | .buffered w => (.inspected w.path (some w.pending.length), s)
  | .createDirectory p =>
    match s.backing.createDirectory s.volume p with
    | .error e => (.failed e, s)
    | .ok v => (.done, { s with volume := v })
  | .remove p =>
    match s.volume.remove p with
    | .error e => (.failed (.refused p e), s)
    | .ok v => (.done, { s with volume := v })
  | .changeSettings x => (.done, { s with settings := x })
  | .scratchDirectory =>
    match s.backing.scratchDirectory s.volume s.scratch with
    | (.error e, v) => (.failed e, { s.keepScratch with volume := v })
    | (.ok (), v) => (.directory s.scratch, { s.keepScratch with volume := v })
  | .requireScratch =>
    match Backing.defaultBuffered.scratchDirectory s.volume s.scratch with
    | (.error e, v) => (.stopped (stopMessage e), { s.keepScratch with volume := v })
    | (.ok (), v) => (.directory s.scratch, { s.keepScratch with volume := v })

/-- What steps answer, each with the session after it. -/
def run (s : Session) : List Step → List (Answer × Session)
  | [] => []
  | a :: rest =>
    let (r, s) := s.step a
    (r, s) :: run s rest

/-- The session after steps. -/
def after (s : Session) (steps : List Step) : Session :=
  steps.foldl (fun s a => (s.step a).2) s

/-- The volume after all writers have been given up in the order of their handles. -/
def finish (s : Session) : Volume := s.held.foldl (fun v x => x.2.writer.drop v) s.volume

/-- How many bytes each buffered writer holds back that was opened as one. -/
def buffered (s : Session) : List (String × Nat) :=
  s.held.filterMap fun (h, x) =>
    match x.inspected, x.writer with
    | true, .buffered w => some (h, w.pending.length)
    | _, _ => none

end Session

end RecordLog
