import RecordLog.Status.Basic
import RecordLog.System.Errno
import RecordLog.System.ErrorKind
import RecordLog.Text.Utf8

/-!
# Failures on files

What goes wrong with a file or directory is reported as a status that names the path asked for.
Where an entry exists, is missing or may not be used, the code says so and the message is the path
alone; otherwise the code is `ioError` and the path is followed by a description. The forms of
these messages tell a failed operation, a failed sync and the use of a closed writer apart.

## Main definitions

* `RecordLog.SystemError`, an error by its number, by its kind, or by its kind and a message.
* `RecordLog.FileError` and `RecordLog.FileError.status`.
-/

namespace RecordLog

/-- An error that the system reports: by its number, or by its kind with or without a message. -/
inductive SystemError
  | os (errno : Int)
  | described (k : ErrorKind) (message : String)
  | plain (k : ErrorKind)
  deriving DecidableEq, Repr

namespace SystemError

/-- What is said about an error. -/
def description : SystemError → String
  | .os n => s!"{Errno.description n} (os error {n})"
  | .described _ message => message
  | .plain k => k.description

/-- The code of a status that reports an error. -/
def code : SystemError → Code
  | .os n => Errno.code n
  | .described k _ => k.code
  | .plain k => k.code

/-- The error of a path name that holds a zero byte. -/
def nulInName : SystemError :=
  .described .invalidInput "file name contained an unexpected NUL byte"

end SystemError

/-- A failure on a file or directory, with the path asked for. -/
inductive FileError
  /-- The system refuses to open, create or write. -/
  | refused (path : Bytes) (e : SystemError)
  /-- The system fails to make the contents durable. -/
  | unsynced (path : Bytes) (e : SystemError)
  /-- The writer has been closed. -/
  | closed (path : Bytes)
  /-- No directories are made here. -/
  | fixedLayout (path : Bytes)
  deriving DecidableEq, Repr

namespace FileError

/-- A path as it is written in messages. -/
def rendered (path : Bytes) : Bytes := Utf8.encode (Utf8.decodeLossy path)

/-- The status that reports a failure. -/
def status : FileError → Status
  | .refused path e =>
    match e.code with
    | .ioError => .new .ioError (rendered path) (Utf8.encode e.description.toList)
    | c => .new c (rendered path) []
  | .unsynced path e =>
    .new .ioError (rendered path) (Utf8.encode ("sync: ".toList ++ e.description.toList))
  | .closed path => .new .ioError (rendered path) (Bytes.ofAscii "file is closed")
  | .fixedLayout path => .new .notSupported (rendered path) (Bytes.ofAscii "read-only layout")

end FileError

end RecordLog
