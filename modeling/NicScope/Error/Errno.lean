/-
Error numbers of the operating system. A number prints as its name with a short
description, or, where it comes with a failed file operation, as a sentence of
the system and the number itself. The table holds every number that the system
gives a name; 41 and 58 have none, and a number without a name is unknown.
-/

import NicScope.Text.Numeral

namespace NicScope

open Numeral

/-- What is written for an error number. -/
structure ErrnoEntry where
  number : Nat
  name : String
  description : String
  sentence : String

/-- An error number of the operating system. -/
structure Errno where
  number : Nat
  deriving DecidableEq, Repr

namespace Errno

/-- An entry whose description is also the sentence of the system. -/
def alike (number : Nat) (name text : String) : ErrnoEntry :=
  ⟨number, name, text, text⟩

def table : List ErrnoEntry :=
  [alike 1 "EPERM" "Operation not permitted",
    alike 2 "ENOENT" "No such file or directory",
    alike 3 "ESRCH" "No such process",
    alike 4 "EINTR" "Interrupted system call",
    ⟨5, "EIO", "I/O error", "Input/output error"⟩,
    alike 6 "ENXIO" "No such device or address",
    alike 7 "E2BIG" "Argument list too long",
    alike 8 "ENOEXEC" "Exec format error",
    ⟨9, "EBADF", "Bad file number", "Bad file descriptor"⟩,
    alike 10 "ECHILD" "No child processes",
    ⟨11, "EAGAIN", "Try again", "Resource temporarily unavailable"⟩,
    ⟨12, "ENOMEM", "Out of memory", "Cannot allocate memory"⟩,
    alike 13 "EACCES" "Permission denied",
    alike 14 "EFAULT" "Bad address",
    alike 15 "ENOTBLK" "Block device required",
    alike 16 "EBUSY" "Device or resource busy",
    alike 17 "EEXIST" "File exists",
    ⟨18, "EXDEV", "Cross-device link", "Invalid cross-device link"⟩,
    alike 19 "ENODEV" "No such device",
    alike 20 "ENOTDIR" "Not a directory",
    alike 21 "EISDIR" "Is a directory",
    alike 22 "EINVAL" "Invalid argument",
    ⟨23, "ENFILE", "File table overflow", "Too many open files in system"⟩,
    alike 24 "EMFILE" "Too many open files",
    ⟨25, "ENOTTY", "Not a typewriter", "Inappropriate ioctl for device"⟩,
    alike 26 "ETXTBSY" "Text file busy",
    alike 27 "EFBIG" "File too large",
    alike 28 "ENOSPC" "No space left on device",
    alike 29 "ESPIPE" "Illegal seek",
    alike 30 "EROFS" "Read-only file system",
    alike 31 "EMLINK" "Too many links",
    alike 32 "EPIPE" "Broken pipe",
    ⟨33, "EDOM", "Math argument out of domain of func", "Numerical argument out of domain"⟩,
    ⟨34, "ERANGE", "Math result not representable", "Numerical result out of range"⟩,
    ⟨35, "EDEADLK", "Resource deadlock would occur", "Resource deadlock avoided"⟩,
    alike 36 "ENAMETOOLONG" "File name too long",
    ⟨37, "ENOLCK", "No record locks available", "No locks available"⟩,
    alike 38 "ENOSYS" "Function not implemented",
    alike 39 "ENOTEMPTY" "Directory not empty",
    ⟨40, "ELOOP", "Too many symbolic links encountered", "Too many levels of symbolic links"⟩,
    alike 42 "ENOMSG" "No message of desired type",
    alike 43 "EIDRM" "Identifier removed",
    alike 44 "ECHRNG" "Channel number out of range",
    alike 45 "EL2NSYNC" "Level 2 not synchronized",
    alike 46 "EL3HLT" "Level 3 halted",
    alike 47 "EL3RST" "Level 3 reset",
    alike 48 "ELNRNG" "Link number out of range",
    alike 49 "EUNATCH" "Protocol driver not attached",
    alike 50 "ENOCSI" "No CSI structure available",
    alike 51 "EL2HLT" "Level 2 halted",
    alike 52 "EBADE" "Invalid exchange",
    alike 53 "EBADR" "Invalid request descriptor",
    alike 54 "EXFULL" "Exchange full",
    alike 55 "ENOANO" "No anode",
    alike 56 "EBADRQC" "Invalid request code",
    alike 57 "EBADSLT" "Invalid slot",
    alike 59 "EBFONT" "Bad font file format",
    alike 60 "ENOSTR" "Device not a stream",
    alike 61 "ENODATA" "No data available",
    alike 62 "ETIME" "Timer expired",
    alike 63 "ENOSR" "Out of streams resources",
    alike 64 "ENONET" "Machine is not on the network",
    alike 65 "ENOPKG" "Package not installed",
    alike 66 "EREMOTE" "Object is remote",
    alike 67 "ENOLINK" "Link has been severed",
    alike 68 "EADV" "Advertise error",
    alike 69 "ESRMNT" "Srmount error",
    alike 70 "ECOMM" "Communication error on send",
    alike 71 "EPROTO" "Protocol error",
    alike 72 "EMULTIHOP" "Multihop attempted",
    alike 73 "EDOTDOT" "RFS specific error",
    ⟨74, "EBADMSG", "Not a data message", "Bad message"⟩,
    alike 75 "EOVERFLOW" "Value too large for defined data type",
    alike 76 "ENOTUNIQ" "Name not unique on network",
    alike 77 "EBADFD" "File descriptor in bad state",
    alike 78 "EREMCHG" "Remote address changed",
    alike 79 "ELIBACC" "Can not access a needed shared library",
    alike 80 "ELIBBAD" "Accessing a corrupted shared library",
    alike 81 "ELIBSCN" ".lib section in a.out corrupted",
    alike 82 "ELIBMAX" "Attempting to link in too many shared libraries",
    alike 83 "ELIBEXEC" "Cannot exec a shared library directly",
    ⟨84, "EILSEQ", "Illegal byte sequence", "Invalid or incomplete multibyte or wide character"⟩,
    alike 85 "ERESTART" "Interrupted system call should be restarted",
    alike 86 "ESTRPIPE" "Streams pipe error",
    alike 87 "EUSERS" "Too many users",
    alike 88 "ENOTSOCK" "Socket operation on non-socket",
    alike 89 "EDESTADDRREQ" "Destination address required",
    alike 90 "EMSGSIZE" "Message too long",
    alike 91 "EPROTOTYPE" "Protocol wrong type for socket",
    alike 92 "ENOPROTOOPT" "Protocol not available",
    alike 93 "EPROTONOSUPPORT" "Protocol not supported",
    alike 94 "ESOCKTNOSUPPORT" "Socket type not supported",
    ⟨95, "EOPNOTSUPP", "Operation not supported on transport endpoint", "Operation not supported"⟩,
    alike 96 "EPFNOSUPPORT" "Protocol family not supported",
    alike 97 "EAFNOSUPPORT" "Address family not supported by protocol",
    alike 98 "EADDRINUSE" "Address already in use",
    alike 99 "EADDRNOTAVAIL" "Cannot assign requested address",
    alike 100 "ENETDOWN" "Network is down",
    alike 101 "ENETUNREACH" "Network is unreachable",
    ⟨102, "ENETRESET", "Network dropped connection because of reset",
      "Network dropped connection on reset"⟩,
    alike 103 "ECONNABORTED" "Software caused connection abort",
    alike 104 "ECONNRESET" "Connection reset by peer",
    alike 105 "ENOBUFS" "No buffer space available",
    alike 106 "EISCONN" "Transport endpoint is already connected",
    alike 107 "ENOTCONN" "Transport endpoint is not connected",
    alike 108 "ESHUTDOWN" "Cannot send after transport endpoint shutdown",
    alike 109 "ETOOMANYREFS" "Too many references: cannot splice",
    alike 110 "ETIMEDOUT" "Connection timed out",
    alike 111 "ECONNREFUSED" "Connection refused",
    alike 112 "EHOSTDOWN" "Host is down",
    alike 113 "EHOSTUNREACH" "No route to host",
    alike 114 "EALREADY" "Operation already in progress",
    alike 115 "EINPROGRESS" "Operation now in progress",
    alike 116 "ESTALE" "Stale file handle",
    alike 117 "EUCLEAN" "Structure needs cleaning",
    alike 118 "ENOTNAM" "Not a XENIX named type file",
    alike 119 "ENAVAIL" "No XENIX semaphores available",
    alike 120 "EISNAM" "Is a named type file",
    alike 121 "EREMOTEIO" "Remote I/O error",
    ⟨122, "EDQUOT", "Quota exceeded", "Disk quota exceeded"⟩,
    alike 123 "ENOMEDIUM" "No medium found",
    alike 124 "EMEDIUMTYPE" "Wrong medium type",
    alike 125 "ECANCELED" "Operation canceled",
    alike 126 "ENOKEY" "Required key not available",
    alike 127 "EKEYEXPIRED" "Key has expired",
    alike 128 "EKEYREVOKED" "Key has been revoked",
    alike 129 "EKEYREJECTED" "Key was rejected by service",
    alike 130 "EOWNERDEAD" "Owner died",
    alike 131 "ENOTRECOVERABLE" "State not recoverable",
    alike 132 "ERFKILL" "Operation not possible due to RF-kill",
    alike 133 "EHWPOISON" "Memory page has hardware error"]

def lookup (errno : Errno) : Option ErrnoEntry :=
  table.find? fun entry => entry.number == errno.number

/-- The error with this number; a number without an entry stands for no error. -/
def ofNumber (number : Nat) : Errno :=
  if (lookup ⟨number⟩).isSome then ⟨number⟩ else ⟨0⟩

/-- The name and the description. -/
def message (errno : Errno) : String :=
  match errno.lookup with
  | some entry => entry.name ++ ": " ++ entry.description
  | none => "UnknownErrno: Unknown errno"

/-- The sentence of the system, with the number. -/
def sentence (errno : Errno) : String :=
  let text := match errno.lookup with
    | some entry => entry.sentence
    | none =>
      if errno.number = 0 then "Success" else "Unknown error " ++ decimal errno.number
  text ++ " (os error " ++ decimal errno.number ++ ")"

def noEntry : Errno := ⟨2⟩
def inputOutput : Errno := ⟨5⟩
def tryAgain : Errno := ⟨11⟩
def busy : Errno := ⟨16⟩
def alreadyExists : Errno := ⟨17⟩
def notDirectory : Errno := ⟨20⟩
def isDirectory : Errno := ⟨21⟩
def invalid : Errno := ⟨22⟩
def noSpace : Errno := ⟨28⟩
def nameTooLong : Errno := ⟨36⟩
def notEmpty : Errno := ⟨39⟩
def tooManyLinks : Errno := ⟨40⟩
def unsupported : Errno := ⟨95⟩

end Errno

end NicScope
