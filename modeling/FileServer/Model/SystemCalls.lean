import FileServer.Lib.Script
import FileServer.Model.Handlers
import FileServer.Model.Helper

/-!
# System calls of the helper

What the functions of the helper ask of the system, and the small functions of
`utils/utils.c` and `common/utility.c` that they share: the locks on files, the change of the
root directory and of the effective user, and the return to the privileges of root. Every call
may be answered by a failure.
-/
namespace FileServer

open FileServer.Lib

/-- Text of `strerror(errno)` after a call that has failed. -/
abbrev Failure := List UInt8

/-- A file descriptor. -/
abbrev Descriptor := UInt32

/-- The file types that the helper tells apart. -/
inductive FileType
  /-- `S_ISREG`. -/
  | regular
  /-- `S_ISDIR`. -/
  | directory
  /-- `S_ISLNK`. -/
  | link
  /-- Any other type. -/
  | other
deriving DecidableEq

/-- The fields of `struct stat` that the helper uses. -/
structure FileStat where
  /-- Type of the file. -/
  type : FileType
  /-- Permission bits. -/
  mode : UInt32
  /-- `st_size`. -/
  size : Nat
deriving DecidableEq

/-- The fields of `struct passwd` that the helper uses. -/
structure Account where
  /-- Name of the user. -/
  name : List UInt8
  /-- Number of the user. -/
  uid : UInt32
  /-- Number of the group of the user. -/
  gid : UInt32
  /-- Home directory. -/
  dir : List UInt8
  /-- The home directory is a string. -/
  clean : NulFree dir
deriving DecidableEq

/-- The access mode of `open`. -/
inductive AccessMode
  /-- `O_RDONLY`. -/
  | readOnly
  /-- `O_WRONLY`. -/
  | writeOnly
  /-- `O_RDWR`. -/
  | readWrite
deriving DecidableEq

/-- The flags of `open`. -/
structure OpenFlags where
  /-- Access mode. -/
  access : AccessMode
  /-- `O_CREAT`. -/
  creat : Bool := false
  /-- `O_TRUNC`. -/
  trunc : Bool := false
  /-- `O_DIRECTORY`. -/
  directory : Bool := false
  /-- `O_NOFOLLOW`. -/
  nofollow : Bool := false
deriving DecidableEq

/-- `LockType`. -/
inductive LockType
  /-- `LOCK_SHARED`. -/
  | shared
  /-- `LOCK_EXCLUSIVE`. -/
  | exclusive
deriving DecidableEq

/-- The end of a process forked to run another program, for `CreateSystemUser`. -/
inductive ChildResult
  /-- `fork` has failed. -/
  | notForked
  /-- The program has not ended with success. -/
  | failed
  /-- The program has ended with success. -/
  | succeeded
deriving DecidableEq

/-- What `read` calls bring one after the other. -/
abbrev Blocks (limit : Nat) := List { bytes : List UInt8 // 0 < bytes.length ∧ bytes.length ≤ limit }

/-- What the helper asks of the system. -/
inductive HelperOp
  /-- `getpwnam`. -/
  | getpwnam (name : List UInt8)
  /-- The program `adduser` run for a user with the home directory. -/
  | adduser (homeDir username : List UInt8)
  /-- The program `deluser` run with `--remove-home`. -/
  | deluser (username : List UInt8)
  /-- `getuid`. -/
  | getuid
  /-- `initgroups`. -/
  | initgroups (username : List UInt8) (gid : UInt32)
  /-- `setegid`. -/
  | setegid (gid : UInt32)
  /-- `seteuid`. -/
  | seteuid (uid : UInt32)
  /-- `chroot`. -/
  | chroot (path : List UInt8)
  /-- `chdir`. -/
  | chdir (path : List UInt8)
  /-- `getcwd` into an array of `ABS_PATH` bytes. -/
  | getcwd
  /-- `mkdir`. -/
  | mkdir (path : List UInt8) (mode : UInt32)
  /-- `rmdir`. -/
  | rmdir (path : List UInt8)
  /-- `unlink`. -/
  | unlink (path : List UInt8)
  /-- `rename`. -/
  | rename (old new : List UInt8)
  /-- `chmod`. -/
  | chmod (path : List UInt8) (mode : UInt32)
  /-- `chown`. -/
  | chown (path : List UInt8) (uid gid : UInt32)
  /-- `stat`. -/
  | stat (path : List UInt8)
  /-- `opendir`, and the names that `readdir` returns until the end. -/
  | opendir (path : List UInt8)
  /-- `closedir`. -/
  | closedir
  /-- `open`. -/
  | openFile (path : List UInt8) (flags : OpenFlags) (mode : UInt32)
  /-- `openat`. -/
  | openat (directory : Descriptor) (path : List UInt8) (flags : OpenFlags) (mode : UInt32)
  /-- `close`. -/
  | close (fd : Descriptor)
  /-- `fcntl` with `F_SETLKW` for the whole file. -/
  | setLock (fd : Descriptor) (type : LockType)
  /-- `fcntl` with `F_SETLK` and `F_UNLCK` for the whole file. -/
  | clearLock (fd : Descriptor)
  /-- `fstat`. -/
  | fstat (fd : Descriptor)
  /-- `fchown`. -/
  | fchown (fd : Descriptor) (uid gid : UInt32)
  /-- `lseek` with `SEEK_SET`. -/
  | seekSet (fd : Descriptor) (offset : Int32)
  /-- `lseek` to the end with `SEEK_END`. -/
  | seekEnd (fd : Descriptor)
  /-- `read` of a file. -/
  | read (fd : Descriptor) (limit : Nat)
  /-- The `read` calls on a file up to the first that brings nothing. -/
  | readAgain (fd : Descriptor) (limit : Nat)
  /-- `write` to a file. -/
  | write (fd : Descriptor) (bytes : List UInt8)
  /-- `writeAll` to a file. -/
  | writeAll (fd : Descriptor) (bytes : List UInt8)
  /-- `writeAll` of the response to the server. -/
  | writeResponse (res : HelperResponse)
  /-- `writeAll` of other bytes to the server. -/
  | writeServer (bytes : List UInt8)
  /-- The `read` calls on the connection to the server up to the first that brings nothing. -/
  | readServer (limit : Nat)
deriving DecidableEq

namespace HelperOp

/-- How each call is answered. -/
abbrev Answer : HelperOp → Type
  | getpwnam _ => Option Account
  | adduser .. => ChildResult
  | deluser _ => Unit
  | getuid => UInt32
  | initgroups .. | setegid _ | seteuid _ => Bool
  | chroot _ => Bool
  | chdir _ => Except Failure Unit
  | getcwd => Option { path : List UInt8 // NulFree path ∧ path.length < absPath }
  | mkdir .. | rmdir _ | unlink _ | rename .. | chmod .. | chown .. => Except Failure Unit
  | stat _ => Except Failure FileStat
  | opendir _ => Except Failure (List { name : List UInt8 // NulFree name ∧ name ≠ [] })
  | closedir => Unit
  | openFile .. | openat .. => Except Failure Descriptor
  | close _ => Unit
  | setLock .. => Except Failure Unit
  | clearLock _ => Unit
  | fstat _ => Except Failure FileStat
  | fchown .. => Bool
  | seekSet .. | seekEnd _ => Except Failure Unit
  | read _ limit => Except Failure { bytes : List UInt8 // bytes.length ≤ limit }
  | readAgain _ limit => Blocks limit
  | write _ bytes => Except Failure { count : Nat // count ≤ bytes.length }
  | writeAll .. | writeResponse _ | writeServer _ => Bool
  | readServer limit => Blocks limit

end HelperOp

/-- A program of the helper that makes these calls. -/
abbrev HelperScript (α : Type) := Script HelperOp HelperOp.Answer α

/-- One call. -/
abbrev system (op : HelperOp) : HelperScript op.Answer := Script.perform op

/-- A call made by the helper, with its answer. -/
abbrev HelperEvent := Σ op : HelperOp, op.Answer

/-- The answer to a read at the end of a file. -/
def noBytes (limit : Nat) : { bytes : List UInt8 // bytes.length ≤ limit } :=
  ⟨[], Nat.zero_le limit⟩

/-- The answer to a write of every byte. -/
def allBytes (bytes : List UInt8) : { count : Nat // count ≤ bytes.length } :=
  ⟨bytes.length, Nat.le_refl bytes.length⟩

/-- The answer of `getcwd` in the root directory. -/
def rootPath : { path : List UInt8 // NulFree path ∧ path.length < absPath } :=
  ⟨str "/", by decide⟩

/-- `lock_file`; when it returns -1, with the failure of the call that has failed. -/
def lockFile (path : List UInt8) (type : LockType) :
    HelperScript (Except Failure Descriptor) := do
  let flags : OpenFlags :=
    ⟨if type = .exclusive then .readWrite else .readOnly, false, false, false, false⟩
  match ← system (.openFile path flags 0) with
  | .error failure => return .error failure
  | .ok fd =>
    match ← system (.setLock fd type) with
    | .error failure =>
      system (.close fd)
      return .error failure
    | .ok _ => return .ok fd

/-- `unlock_file`. -/
def unlockFile (fd : Descriptor) : HelperScript Unit := do
  system (.clearLock fd)
  system (.close fd)

/-- `acquireUserCreationLock`. -/
def acquireUserCreationLock (lockFilePath : List UInt8) :
    HelperScript (Except Failure Descriptor) :=
  lockFile lockFilePath .exclusive

/-- `releaseUserCreationLock`. -/
def releaseUserCreationLock (fd : Descriptor) : HelperScript Unit := unlockFile fd

/-- `dropPrivilegesTemp`; whether it returns 0. -/
def dropPrivilegesTemp (session : ClientSession) : HelperScript Bool := do
  let uid ← system .getuid
  if uid ≠ 0 then return false
  else if ← system (.initgroups session.usernameText session.gid) then
    if ← system (.setegid session.gid) then system (.seteuid session.uid)
    else return false
  else return false

/-- `regainRoot`; whether it returns 0. -/
def regainRoot : HelperScript Bool := do
  if ← system (.seteuid 0) then system (.setegid 0) else return false

/-- `chroot` and `chdir`, then `dropPrivilegesTemp`; whether it returns 0. -/
def sandboxUser (session : ClientSession) (root directory : List UInt8) : HelperScript Bool := do
  if ← system (.chroot root) then
    match ← system (.chdir directory) with
    | .error _ => return false
    | .ok _ => dropPrivilegesTemp session
  else return false

/-- `sandboxUserToHisHome`; whether it returns 0. -/
def sandboxUserToHisHome (session : ClientSession) : HelperScript Bool :=
  sandboxUser session session.homeText session.workdirText

/-- `sandboxUserToRoot`; whether it returns 0. -/
def sandboxUserToRoot (session : ClientSession) (rootDir : List UInt8) : HelperScript Bool :=
  sandboxUser session rootDir
    (formatted 2056 (str "/" ++ session.usernameText ++ session.workdirText))

end FileServer
