import FileServer.Lib.FileTree
import FileServer.Model.SystemCalls

/-!
# The calls of the helper on a file system

The helper alone with a tree of files. For every call the system first gives an answer of its own:
it may refuse any call, for reasons outside the tree, and it fixes what the tree does not know, such
as the numbers of descriptors, or how much a `read` brings and a `write` takes. A call that the
system grants then does to the tree what it should, or is refused by the tree.
-/
namespace FileServer

open FileServer.Lib

/-- A file that a process has opened. -/
structure OpenFile where
  /-- Where it lies. -/
  place : Location
  /-- The position in it. -/
  position : Nat

/-- A process of the helper and the files around it. -/
structure Host (ω : Type) where
  /-- The files. -/
  tree : FileTree
  /-- The root and the current directory of the process. -/
  view : View
  /-- The files open, by their descriptors. -/
  files : List (Descriptor × OpenFile)
  /-- The current directory in which the process was started. -/
  start : Location
  /-- The rest of the system. -/
  world : ω

/-- The answers of the system, and how many bytes a `writeAll` has written that fails. -/
structure HostSystem (ω : Type) where
  /-- The answer to a call. -/
  answer : ω → (op : HelperOp) → op.Answer × ω
  /-- The bytes that are written all the same. -/
  written : ω → Nat

/-- A text of `strerror` for a call that the tree refuses. -/
def refusal : Failure := str "No such file or directory"

/-- The blocks that `read` calls bring: as long as the system grants, while there is something
left. -/
def portions {limit : Nat} : Blocks limit → List UInt8 → Blocks limit
  | [], _ => []
  | _ :: _, [] => []
  | granted :: later, byte :: rest =>
    ⟨(byte :: rest).take granted.val.length, by
      have filled := granted.property.1
      have bound := granted.property.2
      simp only [List.length_take, List.length_cons]
      omega⟩ :: portions later ((byte :: rest).drop granted.val.length)

/-- What `stat` reports of a node, with the permissions that the system gives. -/
def statOf (node : Node) (granted : FileStat) : FileStat :=
  match node with
  | .directory => { granted with type := .directory }
  | .regular content => ⟨.regular, granted.mode, content.length⟩

/-- The parts of `open` that matter to the tree. -/
def OpenFlags.mode (flags : OpenFlags) : FileTree.OpenMode :=
  ⟨flags.access ≠ .readOnly, flags.creat, flags.trunc, flags.directory⟩

namespace Host

variable {ω : Type}

/-- A new process of the helper. -/
def fresh (host : Host ω) : Host ω := { host with view := ⟨[], host.start⟩, files := [] }

/-- The file behind a descriptor. -/
def file (host : Host ω) (fd : Descriptor) : Option OpenFile := host.files.lookup fd

/-- The content of the file behind a descriptor. -/
def contentOf (host : Host ω) (fd : Descriptor) : Option (OpenFile × List UInt8) :=
  (host.file fd).bind fun file => (host.tree.content file.place).map fun content => (file, content)

/-- The host with another position in an open file. -/
def seek (host : Host ω) (fd : Descriptor) (position : Nat) : Host ω :=
  { host with files := host.files.map fun entry =>
      if entry.1 = fd then (fd, { entry.2 with position }) else entry }

/-- A call that the system may refuse, and then the tree. -/
def attempt {α β : Type} (host : Host ω) (granted : Except Failure α)
    (result : α → Option (β × Host ω)) : Except Failure β × Host ω :=
  match granted with
  | .error failure => (.error failure, host)
  | .ok value =>
    match result value with
    | none => (.error refusal, host)
    | some (answer, after) => (.ok answer, after)

/-- The same for a call that changes the tree. -/
def change (host : Host ω) (granted : Except Failure Unit) (tree : Option FileTree) :
    Except Failure Unit × Host ω :=
  host.attempt granted fun _ => tree.map fun tree => ((), { host with tree })

/-- The same for a call that needs a file or a directory at the end of a path. -/
def check (host : Host ω) (granted : Except Failure Unit) (path : List UInt8) :
    Except Failure Unit × Host ω :=
  host.attempt granted fun _ =>
    ((host.tree.find host.view path).bind host.tree.node).map fun _ => ((), host)

/-- `open`, for a process whose relative paths start at some directory. A descriptor that is in use is
as good as a refusal. -/
def openFrom (host : Host ω) (view : View) (path : List UInt8) (flags : OpenFlags)
    (granted : Except Failure Descriptor) : Except Failure Descriptor × Host ω :=
  host.attempt granted fun fd =>
    if (host.file fd).isSome then none
    else (host.tree.openFile view path flags.mode).map fun (place, tree) =>
      (fd, { host with tree, files := (fd, ⟨place, 0⟩) :: host.files })

/-- `read` calls up to the first that brings nothing. -/
def readAgain {limit : Nat} (host : Host ω) (fd : Descriptor) (granted : Blocks limit) :
    Blocks limit × Host ω :=
  match host.contentOf fd with
  | none => ([], host)
  | some (file, content) =>
    let blocks := portions granted (content.drop file.position)
    (blocks, host.seek fd (file.position + (blocks.map (·.val.length)).sum))

/-- `write` of the bytes that are taken. -/
def store (host : Host ω) (fd : Descriptor) (bytes : List UInt8) : Option (Host ω) :=
  (host.file fd).bind fun file =>
    (host.tree.write file.place file.position bytes).map fun tree =>
      { host with tree }.seek fd (file.position + bytes.length)

/-- What becomes of a call that the system has answered. -/
def settle (host : Host ω) (written : Nat) : (op : HelperOp) → op.Answer → op.Answer × Host ω
  | .chroot path, granted =>
    match host.tree.findDirectory host.view path with
    | some place => (granted, if granted then { host with view := ⟨place, host.view.cwd⟩ } else host)
    | none => (false, host)
  | .chdir path, granted => host.attempt granted fun _ =>
      (host.tree.findDirectory host.view path).map fun place =>
        ((), { host with view := ⟨host.view.root, place⟩ })
  | .getcwd, granted =>
    let path := Location.render (host.view.cwd.drop host.view.root.length)
    if known : NulFree path ∧ path.length < absPath then
      (granted.bind fun _ => if host.view.root <+: host.view.cwd then some ⟨path, known⟩ else none,
        host)
    else (none, host)
  | .mkdir path _, granted => host.change granted (host.tree.makeDirectory host.view path)
  | .rmdir path, granted => host.change granted (host.tree.removeDirectory host.view path)
  | .unlink path, granted => host.change granted (host.tree.unlink host.view path)
  | .rename old new, granted => host.change granted (host.tree.rename host.view old new)
  | .chmod path _, granted => host.check granted path
  | .chown path _ _, granted => host.check granted path
  | .stat path, granted => host.attempt granted fun st =>
      ((host.tree.find host.view path).bind host.tree.node).map fun node => (statOf node st, host)
  | .opendir path, granted => host.attempt granted fun _ =>
      (host.tree.findDirectory host.view path).map fun place =>
        ((host.tree.names place).filterMap fun name =>
          if sound : NulFree name ∧ name ≠ [] then some ⟨name, sound⟩ else none, host)
  | .openFile path flags _, granted => host.openFrom host.view path flags granted
  | .openat directory path flags _, granted =>
    match host.file directory with
    | some file => host.openFrom ⟨host.view.root, file.place⟩ path flags granted
    | none => host.attempt granted fun _ => none
  | .close fd, _ => ((), { host with files := host.files.filter (·.1 ≠ fd) })
  | .fstat fd, granted => host.attempt granted fun st =>
      ((host.file fd).bind fun file => host.tree.node file.place).map fun node =>
        (statOf node st, host)
  | .seekSet fd offset, granted => host.attempt granted fun _ =>
      if offset.toInt < 0 then none
      else (host.file fd).map fun _ => ((), host.seek fd offset.toInt.toNat)
  | .seekEnd fd, granted => host.attempt granted fun _ =>
      (host.contentOf fd).map fun (_, content) => ((), host.seek fd content.length)
  | .read fd limit, granted => host.attempt granted fun _ =>
      (host.contentOf fd).map fun (file, content) =>
        let bytes := (content.drop file.position).take limit
        (⟨bytes, List.length_take_le _ _⟩, host.seek fd (file.position + bytes.length))
  | .readAgain fd _, granted => host.readAgain fd granted
  | .write fd bytes, granted => host.attempt granted fun count =>
      (host.store fd (bytes.take count.val)).map fun after => (count, after)
  | .writeAll fd bytes, granted =>
    match host.store fd (if granted then bytes else bytes.take written) with
    | some after => (granted, after)
    | none => (false, host)
  | _, granted => (granted, host)

section

variable (host : Host ω) (written : Nat)

/-- The root is changed to a directory if that is granted. -/
theorem settle_chroot {path : List UInt8} {place : Location}
    (found : host.tree.findDirectory host.view path = some place) (granted : Bool) :
    host.settle written (.chroot path) granted =
      (granted, if granted then { host with view := ⟨place, host.view.cwd⟩ } else host) := by
  unfold settle
  dsimp only
  rw [found]

/-- The root is changed to nothing but a directory. -/
theorem settle_chroot_none {path : List UInt8}
    (missing : host.tree.findDirectory host.view path = none) (granted : Bool) :
    host.settle written (.chroot path) granted = (false, host) := by
  unfold settle
  dsimp only
  rw [missing]

/-- A path below an open directory leads on from there. -/
theorem settle_openat {directory : Descriptor} {file : OpenFile}
    (here : host.file directory = some file) (path : List UInt8) (flags : OpenFlags) (mode : UInt32)
    (granted : Except Failure Descriptor) :
    host.settle written (.openat directory path flags mode) granted =
      host.openFrom ⟨host.view.root, file.place⟩ path flags granted := by
  unfold settle
  dsimp only
  rw [here]

/-- A path below anything else leads nowhere. -/
theorem settle_openat_none {directory : Descriptor} (missing : host.file directory = none)
    (path : List UInt8) (flags : OpenFlags) (mode : UInt32) (granted : Except Failure Descriptor) :
    host.settle written (.openat directory path flags mode) granted =
      host.attempt granted fun _ => none := by
  unfold settle
  dsimp only
  rw [missing]

end

/-- The surroundings of a script of the helper. -/
def calls (system : HostSystem ω) (host : Host ω) (op : HelperOp) : op.Answer × Host ω :=
  let (granted, world) := system.answer host.world op
  { host with world }.settle (system.written host.world) op granted

end Host

/-- A system that grants every call, numbers the descriptors and knows every user under one
number. -/
def obliging : HostSystem UInt32 where
  answer world op :=
    (match op with
    | .getpwnam name =>
      if clean : NulFree name then some ⟨name, 1001, 1001, name, clean⟩ else none
    | .adduser .. => .succeeded
    | .deluser _ | .closedir | .close _ | .clearLock _ => ()
    | .getuid => 0
    | .initgroups .. | .setegid _ | .seteuid _ | .chroot _ | .fchown .. => true
    | .getcwd => some rootPath
    | .chdir _ | .mkdir .. | .rmdir _ | .unlink _ | .rename .. | .chmod .. | .chown .. => .ok ()
    | .setLock .. | .seekSet .. | .seekEnd _ => .ok ()
    | .stat _ | .fstat _ => .ok ⟨.regular, 0o755, 0⟩
    | .opendir _ => .ok []
    | .openFile .. | .openat .. => .ok world
    | .read _ limit => .ok (noBytes limit)
    | .write _ bytes => .ok (allBytes bytes)
    | .writeAll .. | .writeResponse _ | .writeServer _ => true
    | .readAgain .. | .readServer _ => [], world + 1)
  written _ := 0

end FileServer
