import RecordLog.Status.Code

/-!
# Error numbers

The operating system numbers its errors. A number from 0 to 133 has a description, though 41 and
58 are not in use and are described as any other number is, by the number itself.

## Main definitions

* `RecordLog.Errno.description`, what is said about an error number.
* `RecordLog.Errno.code`, the code of a status that reports it.
-/

namespace RecordLog.Errno

/-! ### Numbers that a volume reports -/

/-- There is no entry of that name. -/
def noEntry : Int := 2

/-- The medium does not do what is asked of it. -/
def inputOutput : Int := 5

/-- The descriptor does not allow what is asked of it. -/
def badDescriptor : Int := 9

/-- The permission bits do not allow it. -/
def accessDenied : Int := 13

/-- There is an entry of that name. -/
def entryExists : Int := 17

/-- A name that is followed by others is not that of a directory. -/
def notDirectory : Int := 20

/-- A directory stands where a file is wanted. -/
def isDirectory : Int := 21

/-- The object has no such operation. -/
def invalidArgument : Int := 22

/-- A file cannot hold more bytes. -/
def fileTooLarge : Int := 27

/-- There is no room for the bytes written. -/
def noSpace : Int := 28

/-- A name or a path is too long. -/
def nameTooLong : Int := 36

/-- Too many symbolic links were followed. -/
def tooManyLinks : Int := 40

/-! ### Descriptions -/

/-- The descriptions of the numbers from 0 on. -/
def descriptions : List String :=
  ["Success", "Operation not permitted", "No such file or directory", "No such process",
    "Interrupted system call", "Input/output error", "No such device or address",
    "Argument list too long", "Exec format error", "Bad file descriptor", "No child processes",
    "Resource temporarily unavailable", "Cannot allocate memory", "Permission denied",
    "Bad address", "Block device required", "Device or resource busy", "File exists",
    "Invalid cross-device link", "No such device", "Not a directory", "Is a directory",
    "Invalid argument", "Too many open files in system", "Too many open files",
    "Inappropriate ioctl for device", "Text file busy", "File too large",
    "No space left on device", "Illegal seek", "Read-only file system", "Too many links",
    "Broken pipe", "Numerical argument out of domain", "Numerical result out of range",
    "Resource deadlock avoided", "File name too long", "No locks available",
    "Function not implemented", "Directory not empty", "Too many levels of symbolic links",
    "Unknown error 41", "No message of desired type", "Identifier removed",
    "Channel number out of range", "Level 2 not synchronized", "Level 3 halted", "Level 3 reset",
    "Link number out of range", "Protocol driver not attached", "No CSI structure available",
    "Level 2 halted", "Invalid exchange", "Invalid request descriptor", "Exchange full",
    "No anode", "Invalid request code", "Invalid slot", "Unknown error 58",
    "Bad font file format", "Device not a stream", "No data available", "Timer expired",
    "Out of streams resources", "Machine is not on the network", "Package not installed",
    "Object is remote", "Link has been severed", "Advertise error", "Srmount error",
    "Communication error on send", "Protocol error", "Multihop attempted", "RFS specific error",
    "Bad message", "Value too large for defined data type", "Name not unique on network",
    "File descriptor in bad state", "Remote address changed",
    "Can not access a needed shared library", "Accessing a corrupted shared library",
    ".lib section in a.out corrupted", "Attempting to link in too many shared libraries",
    "Cannot exec a shared library directly", "Invalid or incomplete multibyte or wide character",
    "Interrupted system call should be restarted", "Streams pipe error", "Too many users",
    "Socket operation on non-socket", "Destination address required", "Message too long",
    "Protocol wrong type for socket", "Protocol not available", "Protocol not supported",
    "Socket type not supported", "Operation not supported", "Protocol family not supported",
    "Address family not supported by protocol", "Address already in use",
    "Cannot assign requested address", "Network is down", "Network is unreachable",
    "Network dropped connection on reset", "Software caused connection abort",
    "Connection reset by peer", "No buffer space available",
    "Transport endpoint is already connected", "Transport endpoint is not connected",
    "Cannot send after transport endpoint shutdown", "Too many references: cannot splice",
    "Connection timed out", "Connection refused", "Host is down", "No route to host",
    "Operation already in progress", "Operation now in progress", "Stale file handle",
    "Structure needs cleaning", "Not a XENIX named type file", "No XENIX semaphores available",
    "Is a named type file", "Remote I/O error", "Disk quota exceeded", "No medium found",
    "Wrong medium type", "Operation canceled", "Required key not available", "Key has expired",
    "Key has been revoked", "Key was rejected by service", "Owner died", "State not recoverable",
    "Operation not possible due to RF-kill", "Memory page has hardware error"]

/-- What is said about an error number. -/
def description (n : Int) : String :=
  match if n < 0 then none else descriptions[n.toNat]? with
  | some s => s
  | none => s!"Unknown error {n}"

/-- The code of a status that reports an error number. -/
def code (n : Int) : Code :=
  if n = 17 then .alreadyExists
  else if n = 2 then .notFound
  else if n = 1 ∨ n = 13 then .accessDenied
  else .ioError

end RecordLog.Errno
