import FileServer.Model.FileSystem

/-!
# The calls of the helper under permissions

The file system of the host together with the owners and the permission bits of its entries. A call
is refused if the identity of the process does not allow it, and otherwise does what the tree allows.
Either nothing else refuses a call, so that the outcome of a command is fixed by the state before it, or
the rest of the system may refuse any call for reasons of its own.
-/
namespace FileServer

open FileServer.Lib

/-- What a directory records of an entry besides its content. -/
structure Attributes where
  /-- Owner. -/
  owner : UInt32
  /-- Group. -/
  group : UInt32
  /-- Permission bits, with the bits `S_ISUID`, `S_ISGID` and `S_ISVTX`. -/
  mode : UInt32
deriving DecidableEq

/-- The identity under which a process makes its calls. -/
structure Credentials where
  /-- Effective user. -/
  uid : UInt32
  /-- Effective group. -/
  gid : UInt32
  /-- Supplementary groups. -/
  groups : List UInt32
deriving DecidableEq

/-- What a process may want of an entry. -/
inductive Access
  /-- To read it, or to list a directory. -/
  | read
  /-- To write it, or to change the entries of a directory. -/
  | write
  /-- To look up an entry of a directory. -/
  | search
deriving DecidableEq

/-- The bit for it among the bits for others. -/
def Access.bit : Access → UInt32
  | read => 4
  | write => 2
  | search => 1

namespace Credentials

/-- The identity of the helper. -/
def root : Credentials := ⟨0, 0, []⟩

/-- The process belongs to a group. -/
def inGroup (user : Credentials) (group : UInt32) : Bool :=
  group = user.gid || group ∈ user.groups

/-- The process may access an entry: the bits for the owner, the group or others decide, and root
may do everything. -/
def may (user : Credentials) (entry : Attributes) (access : Access) : Bool :=
  user.uid = 0 ||
    if user.uid = entry.owner then entry.mode &&& access.bit <<< 6 ≠ 0
    else if user.inGroup entry.group then entry.mode &&& access.bit <<< 3 ≠ 0
    else entry.mode &&& access.bit ≠ 0

/-- The permission bits that `chmod` leaves: a process outside the group cannot set `S_ISGID`. -/
def chmodMode (user : Credentials) (entry : Attributes) (mode : UInt32) : UInt32 :=
  if user.uid = 0 || user.inGroup entry.group then mode &&& 0o7777 else mode &&& 0o5777

/-- The permission bits of a file that is emptied: a process other than root takes `S_ISUID` away, and
`S_ISGID` where the group may execute the file or the process is outside of it. -/
def emptiedMode (user : Credentials) (entry : Attributes) : UInt32 :=
  if user.uid = 0 then entry.mode
  else if entry.mode &&& 0o010 = 0 && user.inGroup entry.group then entry.mode &&& ~~~0o4000
  else entry.mode &&& ~~~0o6000

end Credentials

/-- What the tree does not know of the file system and of the process. -/
structure Permissions where
  /-- The attributes of the entries, by their places. -/
  attributes : Location → Attributes
  /-- The identity of the process. -/
  user : Credentials
  /-- `umask` of the process. -/
  umask : UInt32
  /-- The supplementary groups of each user. -/
  groupsOf : List UInt8 → List UInt32

/-- A process of the helper on such a file system. -/
abbrev Machine := Host Permissions

/-- What is stored on the disk. -/
structure Disk where
  /-- The entries. -/
  node : Location → Option Node
  /-- Their attributes. -/
  attributes : Location → Attributes

/-- A text of `strerror` for a call that the permissions refuse. -/
def denied : Failure := str "Permission denied"

/-- The lowest number that no file has, counted from some descriptor on. -/
def lowestUnused (files : List (Descriptor × OpenFile)) : Nat → Descriptor → Descriptor
  | 0, fd => fd
  | fuel + 1, fd => if (files.lookup fd).isSome then lowestUnused files fuel (fd + 1) else fd

namespace Machine

/-- What is stored on the disk. -/
def disk (machine : Machine) : Disk := ⟨machine.tree.node, machine.world.attributes⟩

/-- A new process of the helper. -/
def fresh (machine : Machine) : Machine :=
  { Host.fresh machine with world := { machine.world with user := .root } }

/-- The number of the next descriptor. -/
def unused (machine : Machine) : Descriptor :=
  lowestUnused machine.files machine.files.length 0

/-- The process may access what lies at a place. -/
def may (machine : Machine) (place : Location) (access : Access) : Bool :=
  machine.world.user.may (machine.world.attributes place) access

/-- There is a directory at the place in which the process may look up entries. -/
def searches (machine : Machine) (place : Location) : Bool :=
  machine.tree.isDirectory place && machine.may place .search

/-- The process may look up every component of a path. -/
def reaches (machine : Machine) (view : View) (path : List UInt8) : Bool :=
  (view.lookup machine.searches path).isSome

/-- The process may add an entry at a place. -/
def mayAdd (machine : Machine) (place : Location) : Bool := machine.may place.dropLast .write

/-- The process may remove the entry at a place. In a directory with `S_ISVTX` it must own the entry
or the directory. -/
def mayRemove (machine : Machine) (place : Location) : Bool :=
  machine.mayAdd place &&
    ((machine.world.attributes place.dropLast).mode &&& 0o1000 = 0 || machine.world.user.uid = 0 ||
      machine.world.user.uid = (machine.world.attributes place).owner ||
      machine.world.user.uid = (machine.world.attributes place.dropLast).owner)

/-- The process may change the attributes of what lies at a place. -/
def owns (machine : Machine) (place : Location) : Bool :=
  machine.world.user.uid = 0 || machine.world.user.uid = (machine.world.attributes place).owner

/-- The process may open what lies at a place, or create a file there. -/
def mayOpen (machine : Machine) (place : Location) (flags : OpenFlags) : Bool :=
  if machine.tree.node place = none then !flags.creat || machine.mayAdd place
  else (flags.access = .writeOnly || machine.may place .read) &&
    ((flags.access = .readOnly && !flags.trunc) || machine.may place .write)

/-- The process may rename. A directory that comes to another directory must be writable. -/
def mayRename (machine : Machine) (source target : Location) : Bool :=
  machine.mayRemove source &&
    (if machine.tree.node target = none then machine.mayAdd target else machine.mayRemove target) &&
    (!machine.tree.isDirectory source || source.dropLast = target.dropLast ||
      machine.may source .write)

/-- A call is allowed. -/
def permit {α : Type} (allowed : Bool) (answer : α) : Except Failure α :=
  if allowed then .ok answer else .error denied

/-- The answer of the permissions to a call that opens a file. -/
def grantOpen (machine : Machine) (view : View) (path : List UInt8) (flags : OpenFlags) :
    Except Failure Descriptor :=
  permit (machine.reaches view path && machine.mayOpen (view.resolve path) flags) machine.unused

/-- The answer of the permissions to a call. -/
def grant (machine : Machine) : (op : HelperOp) → op.Answer
  | .getpwnam _ => none
  | .adduser .. => .failed
  | .deluser _ | .closedir | .close _ | .clearLock _ => ()
  | .getuid => 0
  | .initgroups .. => machine.world.user.uid = 0
  | .setegid gid => machine.world.user.uid = 0 || gid = 0
  | .seteuid uid => machine.world.user.uid = 0 || uid = 0
  | .chroot path => machine.world.user.uid = 0 && machine.reaches machine.view path
  | .chdir path => permit (machine.reaches machine.view path &&
      machine.may (machine.view.resolve path) .search) ()
  | .getcwd => some rootPath
  | .mkdir path _ => permit (machine.reaches machine.view path &&
      machine.mayAdd (machine.view.resolve path)) ()
  | .rmdir path | .unlink path => permit (machine.reaches machine.view path &&
      machine.mayRemove (machine.view.resolve path)) ()
  | .rename old new => permit (machine.reaches machine.view old && machine.reaches machine.view new &&
      machine.mayRename (machine.view.resolve old) (machine.view.resolve new)) ()
  | .chmod path _ => permit (machine.reaches machine.view path &&
      machine.owns (machine.view.resolve path)) ()
  | .chown path .. => permit (machine.reaches machine.view path && machine.world.user.uid = 0) ()
  | .stat path => permit (machine.reaches machine.view path)
      ⟨.regular, (machine.world.attributes (machine.view.resolve path)).mode, 0⟩
  | .opendir path => permit (machine.reaches machine.view path &&
      machine.may (machine.view.resolve path) .read) []
  | .openFile path flags _ => machine.grantOpen machine.view path flags
  | .openat directory path flags _ =>
    match machine.file directory with
    | some file => machine.grantOpen ⟨machine.view.root, file.place⟩ path flags
    | none => .error denied
  | .setLock .. | .seekSet .. | .seekEnd _ => .ok ()
  | .fstat fd => .ok ⟨.regular, ((machine.file fd).elim 0
      fun file => (machine.world.attributes file.place).mode), 0⟩
  | .fchown .. => machine.world.user.uid = 0
  | .read _ limit => .ok (noBytes limit)
  | .write _ bytes => .ok (allBytes bytes)
  | .writeAll .. | .writeResponse _ | .writeServer _ => true
  | .readAgain .. | .readServer _ => []

/-- The attributes of a new entry: a directory with `S_ISGID` gives its group to it. -/
def newAttributes (machine : Machine) (place : Location) (mode : UInt32) : Attributes where
  owner := machine.world.user.uid
  group := if (machine.world.attributes place.dropLast).mode &&& 0o2000 = 0
    then machine.world.user.gid else (machine.world.attributes place.dropLast).group
  mode := mode &&& ~~~(machine.world.umask &&& 0o777)

/-- The mode of a new file: in a directory that gives its group to it, a process outside of that group
cannot set `S_ISGID` on a file that the group may execute. -/
def fileMode (machine : Machine) (place : Location) (mode : UInt32) : UInt32 :=
  let parent := machine.world.attributes place.dropLast
  if mode &&& 0o2010 = 0o2010 ∧ parent.mode &&& 0o2000 ≠ 0 ∧ machine.world.user.uid ≠ 0 ∧
      machine.world.user.inGroup parent.group = false then mode &&& 0o5777 else mode &&& 0o7777

/-- The attributes with others at a place. -/
def describe (machine : Machine) (place : Location) (entry : Attributes) : Permissions :=
  { machine.world with attributes := Function.update machine.world.attributes place entry }

/-- The attributes after a call that has opened a file. -/
def opened (machine : Machine) (view : View) (path : List UInt8) (flags : OpenFlags)
    (mode : UInt32) : Permissions :=
  let place := view.resolve path
  let entry := machine.world.attributes place
  if machine.tree.node place = none then
    machine.describe place (machine.newAttributes place (machine.fileMode place mode))
  else if flags.trunc then
    machine.describe place { entry with mode := machine.world.user.emptiedMode entry }
  else machine.world

/-- The attributes after an entry has got another place, for a directory with those of all that lies
below it. -/
def moved (machine : Machine) (source target : Location) : Permissions :=
  { machine.world with attributes := fun place =>
      if machine.tree.isDirectory source = true ∧ target <+: place ∨ place = target then
        machine.world.attributes (source ++ place.drop target.length)
      else machine.world.attributes place }

/-- What the answer to a call makes of attributes and identity. -/
def remember (machine : Machine) : (op : HelperOp) → op.Answer → Permissions
  | .initgroups username gid, true => { machine.world with
      user := { machine.world.user with groups := gid :: machine.world.groupsOf username } }
  | .setegid gid, true => { machine.world with user := { machine.world.user with gid } }
  | .seteuid uid, true => { machine.world with user := { machine.world.user with uid } }
  | .mkdir path mode, .ok _ =>
    let place := machine.view.resolve path
    let entry := machine.newAttributes place (mode &&& 0o1777)
    machine.describe place { entry with
      mode := entry.mode ||| (machine.world.attributes place.dropLast).mode &&& 0o2000 }
  | .openFile path flags mode, .ok _ => machine.opened machine.view path flags mode
  | .openat directory path flags mode, .ok _ =>
    match machine.file directory with
    | some file => machine.opened ⟨machine.view.root, file.place⟩ path flags mode
    | none => machine.world
  | .chmod path mode, .ok _ =>
    let place := machine.view.resolve path
    let entry := machine.world.attributes place
    machine.describe place { entry with mode := machine.world.user.chmodMode entry mode }
  | .chown path owner group, .ok _ =>
    let place := machine.view.resolve path
    machine.describe place { machine.world.attributes place with owner, group }
  | .fchown fd owner group, true =>
    match machine.file fd with
    | some file =>
      machine.describe file.place { machine.world.attributes file.place with owner, group }
    | none => machine.world
  | .rename old new, .ok _ =>
    machine.moved (machine.view.resolve old) (machine.view.resolve new)
  | _, _ => machine.world

/-- The surroundings of a script of the helper. -/
def calls (machine : Machine) (op : HelperOp) : op.Answer × Machine :=
  let (answer, after) := machine.settle 0 op (machine.grant op)
  (answer, { after with world := machine.remember op answer })

/-- Only what both grant is granted. -/
def bothGrant {α : Type} : Except Failure α → Except Failure α → Except Failure α
  | .error failure, _ => .error failure
  | .ok _, allowed => allowed

/-- The answer to a call for which the permissions have one and the rest of the system has another. -/
def agreed : (op : HelperOp) → op.Answer → op.Answer → op.Answer
  | .initgroups .., granted, allowed => granted && allowed
  | .setegid _, granted, allowed => granted && allowed
  | .seteuid _, granted, allowed => granted && allowed
  | .chroot _, granted, allowed => granted && allowed
  | .fchown .., granted, allowed => granted && allowed
  | .chdir _, granted, allowed => bothGrant granted allowed
  | .mkdir .., granted, allowed => bothGrant granted allowed
  | .rmdir _, granted, allowed => bothGrant granted allowed
  | .unlink _, granted, allowed => bothGrant granted allowed
  | .rename .., granted, allowed => bothGrant granted allowed
  | .chmod .., granted, allowed => bothGrant granted allowed
  | .chown .., granted, allowed => bothGrant granted allowed
  | .stat _, granted, allowed => bothGrant granted allowed
  | .fstat _, granted, allowed => bothGrant granted allowed
  | .opendir _, granted, allowed => bothGrant granted allowed
  | .openFile .., granted, allowed => bothGrant granted allowed
  | .openat .., granted, allowed => bothGrant granted allowed
  -- the permissions do not decide about the others
  | _, granted, _ => granted

/-- The surroundings of a script of the helper in a system that may refuse any call. -/
def callsUnder {ω : Type} (kernel : HostSystem ω) :
    Machine × ω → (op : HelperOp) → op.Answer × Machine × ω
  | (machine, world), op =>
    let (granted, later) := kernel.answer world op
    let (answer, after) := machine.settle (kernel.written world) op
      (agreed op granted (machine.grant op))
    (answer, { after with world := machine.remember op answer }, later)

section

variable (machine : Machine) {directory : Descriptor} {file : OpenFile}
  (here : machine.file directory = some file) (path : List UInt8)

include here

/-- The permissions of a path below an open directory are those of the path from there. -/
theorem grant_openat (flags : OpenFlags) (mode : UInt32) :
    machine.grant (.openat directory path flags mode) =
      machine.grantOpen ⟨machine.view.root, file.place⟩ path flags := by
  unfold grant
  dsimp only
  rw [here]

/-- The attributes of a new entry below an open directory are those of the entry from there. -/
theorem remember_openat (flags : OpenFlags) (mode : UInt32) (fd : Descriptor) :
    machine.remember (.openat directory path flags mode) (.ok fd) =
      machine.opened ⟨machine.view.root, file.place⟩ path flags mode := by
  unfold remember
  dsimp only
  rw [here]

end

end Machine

end FileServer
