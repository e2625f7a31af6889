import LoxLex.Text.DebugNotation

set_option relaxedAutoImplicit false
set_option autoImplicit false

/-!
# Errors of input and output

What can go wrong when a file is read or a stream is used: a kind of failure, alone or with a
message of its own, or a failure that the operating system reports by number.

## Main definitions

* `LoxLex.IoErrorKind` — the kinds of failure.
* `LoxLex.IoError` — the failures.
* `LoxLex.IoError.message`, `LoxLex.IoError.debugText` — their texts.
-/

namespace LoxLex

/-- A kind of failure of input or output. -/
inductive IoErrorKind where
  | notFound
  | permissionDenied
  | connectionRefused
  | connectionReset
  | hostUnreachable
  | networkUnreachable
  | connectionAborted
  | notConnected
  | addrInUse
  | addrNotAvailable
  | networkDown
  | brokenPipe
  | alreadyExists
  | wouldBlock
  | notADirectory
  | isADirectory
  | directoryNotEmpty
  | readOnlyFilesystem
  | filesystemLoop
  | staleNetworkFileHandle
  | invalidInput
  | invalidData
  | timedOut
  | writeZero
  | storageFull
  | notSeekable
  | quotaExceeded
  | fileTooLarge
  | resourceBusy
  | executableFileBusy
  | deadlock
  | crossesDevices
  | tooManyLinks
  | invalidFilename
  | argumentListTooLong
  | interrupted
  | unsupported
  | unexpectedEof
  | outOfMemory
  | inProgress
  | other
  | uncategorized
deriving DecidableEq, Repr

namespace IoErrorKind

/-- Every kind of failure once. -/
def all : List IoErrorKind :=
  [ notFound, permissionDenied, connectionRefused, connectionReset, hostUnreachable,
    networkUnreachable, connectionAborted, notConnected, addrInUse, addrNotAvailable,
    networkDown, brokenPipe, alreadyExists, wouldBlock, notADirectory, isADirectory,
    directoryNotEmpty, readOnlyFilesystem, filesystemLoop, staleNetworkFileHandle, invalidInput,
    invalidData, timedOut, writeZero, storageFull, notSeekable, quotaExceeded, fileTooLarge,
    resourceBusy, executableFileBusy, deadlock, crossesDevices, tooManyLinks, invalidFilename,
    argumentListTooLong, interrupted, unsupported, unexpectedEof, outOfMemory, inProgress, other,
    uncategorized ]

/-- What a failure of this kind is called when it has no message of its own. -/
def description : IoErrorKind → String
  | notFound => "entity not found"
  | permissionDenied => "permission denied"
  | connectionRefused => "connection refused"
  | connectionReset => "connection reset"
  | hostUnreachable => "host unreachable"
  | networkUnreachable => "network unreachable"
  | connectionAborted => "connection aborted"
  | notConnected => "not connected"
  | addrInUse => "address in use"
  | addrNotAvailable => "address not available"
  | networkDown => "network down"
  | brokenPipe => "broken pipe"
  | alreadyExists => "entity already exists"
  | wouldBlock => "operation would block"
  | notADirectory => "not a directory"
  | isADirectory => "is a directory"
  | directoryNotEmpty => "directory not empty"
  | readOnlyFilesystem => "read-only filesystem or storage medium"
  | filesystemLoop => "filesystem loop or indirection limit (e.g. symlink loop)"
  | staleNetworkFileHandle => "stale network file handle"
  | invalidInput => "invalid input parameter"
  | invalidData => "invalid data"
  | timedOut => "timed out"
  | writeZero => "write zero"
  | storageFull => "no storage space"
  | notSeekable => "seek on unseekable file"
  | quotaExceeded => "quota exceeded"
  | fileTooLarge => "file too large"
  | resourceBusy => "resource busy"
  | executableFileBusy => "executable file busy"
  | deadlock => "deadlock"
  | crossesDevices => "cross-device link or rename"
  | tooManyLinks => "too many links"
  | invalidFilename => "invalid filename"
  | argumentListTooLong => "argument list too long"
  | interrupted => "operation interrupted"
  | unsupported => "unsupported"
  | unexpectedEof => "unexpected end of file"
  | outOfMemory => "out of memory"
  | inProgress => "in progress"
  | other => "other error"
  | uncategorized => "uncategorized error"

/-- The debug text of a kind. -/
def debugText : IoErrorKind → String
  | notFound => "NotFound"
  | permissionDenied => "PermissionDenied"
  | connectionRefused => "ConnectionRefused"
  | connectionReset => "ConnectionReset"
  | hostUnreachable => "HostUnreachable"
  | networkUnreachable => "NetworkUnreachable"
  | connectionAborted => "ConnectionAborted"
  | notConnected => "NotConnected"
  | addrInUse => "AddrInUse"
  | addrNotAvailable => "AddrNotAvailable"
  | networkDown => "NetworkDown"
  | brokenPipe => "BrokenPipe"
  | alreadyExists => "AlreadyExists"
  | wouldBlock => "WouldBlock"
  | notADirectory => "NotADirectory"
  | isADirectory => "IsADirectory"
  | directoryNotEmpty => "DirectoryNotEmpty"
  | readOnlyFilesystem => "ReadOnlyFilesystem"
  | filesystemLoop => "FilesystemLoop"
  | staleNetworkFileHandle => "StaleNetworkFileHandle"
  | invalidInput => "InvalidInput"
  | invalidData => "InvalidData"
  | timedOut => "TimedOut"
  | writeZero => "WriteZero"
  | storageFull => "StorageFull"
  | notSeekable => "NotSeekable"
  | quotaExceeded => "QuotaExceeded"
  | fileTooLarge => "FileTooLarge"
  | resourceBusy => "ResourceBusy"
  | executableFileBusy => "ExecutableFileBusy"
  | deadlock => "Deadlock"
  | crossesDevices => "CrossesDevices"
  | tooManyLinks => "TooManyLinks"
  | invalidFilename => "InvalidFilename"
  | argumentListTooLong => "ArgumentListTooLong"
  | interrupted => "Interrupted"
  | unsupported => "Unsupported"
  | unexpectedEof => "UnexpectedEof"
  | outOfMemory => "OutOfMemory"
  | inProgress => "InProgress"
  | other => "Other"
  | uncategorized => "Uncategorized"

/-- The kind with a given debug text, if there is one. -/
def ofDebugText? (text : String) : Option IoErrorKind := all.find? (fun k => k.debugText == text)

end IoErrorKind

/-- A failure of input or output. -/
inductive IoError where
  /-- A kind of failure and nothing more. -/
  | plain (kind : IoErrorKind)
  /-- A failure with a message given by whoever raised it. -/
  | custom (kind : IoErrorKind) (message : String)
  /-- A failure with a fixed message. -/
  | fixed (kind : IoErrorKind) (message : String)
  /-- A failure that the operating system reports by a number. -/
  | system (code : Nat) (kind : IoErrorKind) (message : String)
deriving DecidableEq

namespace IoError

/-- There is nothing at the path. -/
def noSuchFile : IoError := .system 2 .notFound "No such file or directory"

/-- The path goes through something that is no directory. -/
def notADirectory : IoError := .system 20 .notADirectory "Not a directory"

/-- The path leads to a directory where a file is needed. -/
def isADirectory : IoError := .system 21 .isADirectory "Is a directory"

/-- The device of the stream is full. -/
def noSpaceLeft : IoError := .system 28 .storageFull "No space left on device"

/-- The bytes are not the encoding of a text. -/
def invalidEncoding : IoError := .fixed .invalidData "stream did not contain valid UTF-8"

/-- What a failure is reported as. -/
def message : IoError → String
  | plain kind => kind.description
  | custom _ message => message
  | fixed _ message => message
  | system code _ message => message ++ " (os error " ++ toString code ++ ")"

instance : ToString IoError := ⟨message⟩

/-- The debug text of a failure. -/
def debugText : IoError → String
  | plain kind => DebugNotation.wrap "Kind" kind.debugText
  | custom kind message =>
    DebugNotation.record "Custom"
      [("kind", kind.debugText), ("error", DebugNotation.quoted message)]
  | fixed kind message =>
    DebugNotation.record "Error"
      [("kind", kind.debugText), ("message", DebugNotation.quoted message)]
  | system code kind message =>
    DebugNotation.record "Os"
      [("code", toString code), ("kind", kind.debugText),
       ("message", DebugNotation.quoted message)]

end IoError

end LoxLex
