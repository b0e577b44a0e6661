import FileServer.Model.Permissions
import FileServer.Verif.OpenFiles

/-!
# Calls under permissions

What the calls of the commands on files do on a file system with owners and permission bits: the
sandbox takes the identity of the user if its directories exist, a lock is taken exactly of a regular
file that the user may read and write, and the way back to root always succeeds.
-/
namespace FileServer

open FileServer.Lib

namespace Machine

/-- A path leads to a place, and the process may look it up. -/
def Finds (machine : Machine) (path : List UInt8) (place : Location) : Prop :=
  machine.reaches machine.view path = true ∧ machine.tree.find machine.view path = some place

/-- The same without the last condition is what the path resolves to. -/
theorem Finds.resolve {machine : Machine} {path : List UInt8} {place : Location}
    (finds : machine.Finds path place) : machine.view.resolve path = place :=
  FileTree.resolve_of_find finds.2

/-- A path leads to one place at most. -/
theorem Finds.unique {machine : Machine} {path : List UInt8} {place other : Location}
    (finds : machine.Finds path place) (again : machine.Finds path other) : other = place :=
  again.resolve.symm.trans finds.resolve

/-- The regular files that the process may read and write. -/
def Lockable (machine : Machine) (path : List UInt8) (place : Location)
    (content : List UInt8) : Prop :=
  machine.Finds path place ∧ machine.tree.node place = some (.regular content) ∧
    machine.may place .read = true ∧ machine.may place .write = true

/-- The process in the sandbox of a session. -/
def within (machine : Machine) (session : ClientSession) (view : View) : Machine :=
  { machine with
    view
    world := { machine.world with
      user := ⟨session.uid, session.gid,
        session.gid :: machine.world.groupsOf session.usernameText⟩ } }

section

variable {machine : Machine}

/-- Root looks up everything. -/
theorem searches_root (top : machine.world.user.uid = 0) :
    machine.searches = machine.tree.isDirectory := by
  funext place
  unfold searches may Credentials.may
  rw [decide_eq_true top, Bool.true_or, Bool.and_true]

/-- Root reaches what there is. -/
theorem reaches_root (top : machine.world.user.uid = 0) {view : View} {path : List UInt8}
    {place : Location} (found : machine.tree.findDirectory view path = some place) :
    machine.reaches view path = true := by
  unfold reaches
  rw [searches_root top]
  rw [FileTree.findDirectory_eq] at found
  exact Option.isSome_of_eq_some (Option.filter_eq_some_iff.mp found).1

/-- A call is answered as the tree settles what the permissions grant. -/
theorem calls_of_settle {op : HelperOp} {granted answer : op.Answer} {after : Machine}
    (grants : machine.grant op = granted) (settled : machine.settle 0 op granted = (answer, after)) :
    machine.calls op = (answer, { after with world := machine.remember op answer }) := by
  unfold calls
  rw [grants, settled]

/-- Root changes the root directory to every directory. -/
theorem calls_chroot (top : machine.world.user.uid = 0) (path : List UInt8) :
    (machine.tree.findDirectory machine.view path = none ∧
        machine.calls (.chroot path) = (false, machine)) ∨
      ∃ place, machine.tree.findDirectory machine.view path = some place ∧
        machine.calls (.chroot path) =
          (true, { machine with view := ⟨place, machine.view.cwd⟩ }) := by
  cases found : machine.tree.findDirectory machine.view path with
  | none => exact Or.inl ⟨rfl, calls_of_settle rfl (machine.settle_chroot_none 0 found _)⟩
  | some place =>
    have granted : machine.grant (.chroot path) = true := by
      show (decide (machine.world.user.uid = 0) && machine.reaches machine.view path) = true
      rw [decide_eq_true top, reaches_root top found]
      rfl
    exact Or.inr ⟨place, rfl, calls_of_settle granted (machine.settle_chroot 0 found true)⟩

/-- Root changes to every directory. -/
theorem calls_chdir (top : machine.world.user.uid = 0) (path : List UInt8) :
    (machine.tree.findDirectory machine.view path = none ∧
        ∃ failure, machine.calls (.chdir path) = (.error failure, machine)) ∨
      ∃ place, machine.tree.findDirectory machine.view path = some place ∧
        machine.calls (.chdir path) =
          (.ok (), { machine with view := ⟨machine.view.root, place⟩ }) := by
  have settles : ∀ granted, machine.settle 0 (.chdir path) granted =
      machine.attempt granted fun _ =>
        (machine.tree.findDirectory machine.view path).map fun place =>
          ((), { machine with view := ⟨machine.view.root, place⟩ }) := fun _ => rfl
  cases found : machine.tree.findDirectory machine.view path with
  | none =>
    rw [found] at settles
    refine Or.inl ⟨rfl, ?_⟩
    cases granted : machine.grant (.chdir path) with
    | error failure => exact ⟨failure, calls_of_settle granted (settles _)⟩
    | ok _ => exact ⟨refusal, calls_of_settle granted (settles _)⟩
  | some place =>
    rw [found] at settles
    have granted : machine.grant (.chdir path) = .ok () := by
      show permit (machine.reaches machine.view path && machine.may _ .search) () = .ok ()
      unfold may Credentials.may
      rw [decide_eq_true top, reaches_root top found]
      rfl
    exact Or.inr ⟨place, rfl, calls_of_settle granted (settles _)⟩

/-- Root takes any groups. -/
theorem calls_initgroups (machine : Machine) (top : machine.world.user.uid = 0)
    (username : List UInt8) (gid : UInt32) :
    machine.calls (.initgroups username gid) = (true, { machine with world := { machine.world with
      user := { machine.world.user with
        groups := gid :: machine.world.groupsOf username } } }) := by
  have granted : machine.grant (.initgroups username gid) = true := decide_eq_true top
  exact calls_of_settle granted rfl

/-- Root takes any group. -/
theorem calls_setegid (machine : Machine) (top : machine.world.user.uid = 0) (gid : UInt32) :
    machine.calls (.setegid gid) = (true, { machine with world := { machine.world with
      user := { machine.world.user with gid } } }) := by
  have granted : machine.grant (.setegid gid) = true := by
    show (decide (machine.world.user.uid = 0) || _) = true
    rw [decide_eq_true top, Bool.true_or]
  exact calls_of_settle granted rfl

/-- Root becomes any user. -/
theorem calls_seteuid (machine : Machine) (top : machine.world.user.uid = 0) (uid : UInt32) :
    machine.calls (.seteuid uid) = (true, { machine with world := { machine.world with
      user := { machine.world.user with uid } } }) := by
  have granted : machine.grant (.seteuid uid) = true := by
    show (decide (machine.world.user.uid = 0) || _) = true
    rw [decide_eq_true top, Bool.true_or]
  exact calls_of_settle granted rfl

end

/-- The sandbox of a session is entered if its directories exist; only the process changes. -/
theorem ends_sandbox {machine : Machine} (top : machine.world.user.uid = 0)
    (session : ClientSession) :
    (sandboxUserToHisHome session).Ends calls machine fun events inside after =>
      (∀ event ∈ events, Silent event.1) ∧ after.fresh = machine.fresh ∧
        match inside with
        | true => ∃ view, machine.Enters session.homeText session.workdirText view ∧
            after = machine.within session view
        | false => ∀ view, ¬ machine.Enters session.homeText session.workdirText view := by
  refine ((silent_sandboxUser session session.homeText session.workdirText).every.ends _ _).conj ?_
  obtain ⟨none, failed⟩ | ⟨root, first, rooted⟩ := calls_chroot top session.homeText
  · refine Script.Ends.call failed (Script.ends_pure.mpr ⟨rfl, ?_⟩)
    intro view enters
    exact absurd (none.symm.trans enters.1) nofun
  · refine Script.Ends.call rooted ?_
    let middle : Machine := { machine with view := ⟨root, machine.view.cwd⟩ }
    have top' : middle.world.user.uid = 0 := top
    obtain ⟨none, failure, failed⟩ | ⟨place, found, moved⟩ := calls_chdir top' session.workdirText
    · refine Script.Ends.call failed (Script.ends_pure.mpr ⟨rfl, ?_⟩)
      intro view enters
      have same : view.root = root := Option.some.inj (enters.1.symm.trans first)
      have below := enters.2
      rw [same] at below
      exact absurd (none.symm.trans below) nofun
    · refine Script.Ends.call moved ?_
      let inside : Machine := { machine with view := ⟨root, place⟩ }
      let groups : List UInt32 := session.gid :: machine.world.groupsOf session.usernameText
      let second : Machine := { inside with world := { inside.world with
        user := { inside.world.user with groups } } }
      let third : Machine := { second with world := { second.world with
        user := { second.world.user with gid := session.gid } } }
      have grouped : inside.calls (.initgroups session.usernameText session.gid) = (true, second) :=
        inside.calls_initgroups top session.usernameText session.gid
      have joined : second.calls (.setegid session.gid) = (true, third) :=
        second.calls_setegid top session.gid
      have taken : third.calls (.seteuid session.uid) = (true, machine.within session ⟨root, place⟩) :=
        third.calls_seteuid top session.uid
      refine Script.Ends.call (show inside.calls .getuid = (0, inside) from rfl) ?_
      refine Script.Ends.call grouped (Script.Ends.call joined ?_)
      show Script.Ends calls third _ (system (.seteuid session.uid))
      unfold Script.Ends
      rw [Script.runOn_perform, taken]
      exact ⟨rfl, ⟨root, place⟩, ⟨first, found⟩, rfl⟩

section

variable (machine : Machine)

/-- A process without open files begins with descriptor 0. -/
theorem unused_none (idle : machine.files = []) :
    machine.unused = 0 ∧ machine.file machine.unused = none := by
  unfold unused Host.file
  rw [idle]
  exact ⟨rfl, rfl⟩

/-- A process with one open file goes on with descriptor 1 or 0. -/
theorem unused_one {fd : Descriptor} {file : OpenFile} (one : machine.files = [(fd, file)])
    (low : fd = 0 ∨ fd = 1) :
    (fd = 0 → machine.unused = 1) ∧ machine.file machine.unused = none := by
  unfold unused Host.file
  rw [one]
  rcases low with rfl | rfl
  · exact ⟨fun _ => rfl, rfl⟩
  · exact ⟨nofun, rfl⟩

/-- A regular file is opened for reading and writing exactly if the process may do both. -/
theorem mayOpen_readWrite {place : Location} {content : List UInt8} {trunc : Bool}
    (file : machine.tree.node place = some (.regular content)) :
    machine.mayOpen place ⟨.readWrite, false, trunc, false, false⟩ =
      (machine.may place .read && machine.may place .write) := by
  unfold mayOpen
  rw [if_neg (by simp [file])]
  rfl

/-- A file is opened if that is allowed and the tree can do it. -/
theorem openFrom_grantOpen (view : View) (path : List UInt8) (flags : OpenFlags)
    (free : machine.file machine.unused = none) :
    (∃ place tree, machine.reaches view path = true ∧ machine.mayOpen place flags = true ∧
        machine.tree.openFile view path flags.mode = some (place, tree) ∧
        machine.openFrom view path flags (machine.grantOpen view path flags) =
          (.ok machine.unused,
            { machine with tree, files := (machine.unused, ⟨place, 0⟩) :: machine.files })) ∨
      (∀ place tree, machine.tree.openFile view path flags.mode = some (place, tree) →
          machine.reaches view path = true → machine.mayOpen place flags = false) ∧
        ∃ failure, machine.openFrom view path flags (machine.grantOpen view path flags) =
          (.error failure, machine) := by
  have named : ∀ {place tree}, machine.tree.openFile view path flags.mode = some (place, tree) →
      view.resolve path = place := fun opened =>
    FileTree.resolve_of_find (FileTree.openFile_target opened)
  unfold grantOpen permit Host.openFrom Host.attempt
  by_cases allowed : (machine.reaches view path && machine.mayOpen (view.resolve path) flags) = true
  · rw [if_pos allowed]
    rw [Bool.and_eq_true] at allowed
    simp only [free, Option.isSome_none, Bool.false_eq_true, if_false]
    cases opened : machine.tree.openFile view path flags.mode with
    | none => exact Or.inr ⟨fun _ _ => nofun, refusal, rfl⟩
    | some found =>
      rw [named opened] at allowed
      exact Or.inl ⟨found.1, found.2, allowed.1, allowed.2, rfl, rfl⟩
  · rw [if_neg allowed]
    refine Or.inr ⟨fun place tree opened reaches => ?_, denied, rfl⟩
    rw [named opened, reaches, Bool.true_and] at allowed
    exact Bool.not_eq_true _ ▸ allowed

/-- An exclusive lock is taken of the files that the process may read and write. -/
theorem ends_lockExclusive (path : List UInt8) (free : machine.file machine.unused = none) :
    (lockFile path .exclusive).Ends calls machine fun _ result after =>
      (∃ files, after = { machine with files }) ∧
        match result with
        | .ok _ => ∃ place content, machine.Lockable path place content
        | .error _ => ∀ place content, ¬ machine.Lockable path place content := by
  let flags : OpenFlags := ⟨.readWrite, false, false, false, false⟩
  have granted : machine.grant (.openFile path flags 0) =
      machine.grantOpen machine.view path flags := rfl
  obtain ⟨place, tree, reaches, allowed, opened, settled⟩ | ⟨refused, failure, settled⟩ :=
    machine.openFrom_grantOpen machine.view path flags free
  · obtain ⟨target, ⟨content, file⟩, rfl⟩ := FileTree.openFile_readWrite.mp opened
    rw [mayOpen_readWrite machine file, Bool.and_eq_true] at allowed
    have known : machine.opened machine.view path flags 0 = machine.world := by
      unfold Machine.opened
      rw [FileTree.resolve_of_find target]
      exact (if_neg (by simp [file])).trans (if_neg Bool.false_ne_true)
    refine Script.Ends.call (calls_of_settle granted settled) ?_
    refine Script.Ends.call (show calls _ (.setLock _ .exclusive) = (.ok (), _) from rfl)
      (Script.ends_pure.mpr ⟨⟨_, congrArg (fun world => ({ machine with
        world, files := (machine.unused, ⟨place, 0⟩) :: machine.files } : Machine)) known⟩, ?_⟩)
    exact ⟨place, content, ⟨reaches, target⟩, file, allowed⟩
  · refine Script.Ends.call (calls_of_settle granted settled)
      (Script.ends_pure.mpr ⟨⟨machine.files, rfl⟩, fun place content lockable => ?_⟩)
    obtain ⟨finds, file, reads, writes⟩ := lockable
    have closed := refused place machine.tree
      (FileTree.openFile_readWrite.mpr ⟨finds.2, ⟨content, file⟩, rfl⟩) finds.1
    rw [mayOpen_readWrite machine file, reads, writes] at closed
    cases closed

/-- Every process of the helper regains the privileges of root. -/
theorem ends_regainRoot :
    regainRoot.Ends calls machine fun _ regained after =>
      regained = true ∧ after.fresh = machine.fresh := by
  let first : Machine := { machine with
    world := { machine.world with user := { machine.world.user with uid := 0 } } }
  have effective : machine.calls (.seteuid 0) = (true, first) := by
    have granted : machine.grant (.seteuid 0) = true := by
      show (decide (machine.world.user.uid = 0) || decide ((0 : UInt32) = 0)) = true
      rw [decide_eq_true rfl, Bool.or_true]
    exact calls_of_settle granted rfl
  refine Script.Ends.call effective ?_
  show Script.Ends calls first _ (system (.setegid 0))
  have granted : first.grant (.setegid 0) = true := rfl
  unfold Script.Ends
  rw [Script.runOn_perform, calls_of_settle granted rfl]
  exact ⟨rfl, rfl⟩

/-- Most commands end with one response. -/
theorem ends_regainAndRespond (res : HelperResponse) :
    (regainAndRespond res).Ends calls machine fun events _ after =>
      after.fresh = machine.fresh ∧ AccountEnvironment.response events = some res := by
  apply Script.Ends.bind
  have silent : regainRoot.Only Silent := only_regainRoot rfl rfl
  refine ((ends_regainRoot machine).conj (silent.every.ends _ _)).weaken
    fun before regained middle ends => ?_
  obtain ⟨⟨rfl, kept⟩, quiet⟩ := ends
  refine Script.Ends.call (show calls _ (.writeResponse res) = (true, _) from rfl)
    (Script.ends_pure.mpr ⟨kept, ?_⟩)
  rw [response_behind quiet]
  rfl

end

end Machine

namespace Machine

variable (machine : Machine)

/-- A change is made if it is allowed and the tree can make it. -/
theorem change_cases (allowed : Bool) (tree : Option FileTree) :
    (∃ after, allowed = true ∧ tree = some after ∧
        machine.change (permit allowed ()) tree = (.ok (), { machine with tree := after })) ∨
      ¬ (allowed = true ∧ tree.isSome = true) ∧
        ∃ failure, machine.change (permit allowed ()) tree = (.error failure, machine) := by
  cases allowed with
  | false => exact Or.inr ⟨nofun, denied, rfl⟩
  | true =>
    cases tree with
    | none => exact Or.inr ⟨nofun, refusal, rfl⟩
    | some after => exact Or.inl ⟨after, rfl, rfl, rfl⟩

/-- A directory is made where the process may add an entry and there is none. -/
theorem calls_mkdir (path : List UInt8) (mode : UInt32) :
    (∃ place world, machine.Finds path place ∧ machine.tree.node place = none ∧
        machine.mayAdd place = true ∧
        machine.calls (.mkdir path mode) =
          (.ok (), { machine with tree := machine.tree.insert place .directory, world }) ∧
        world = machine.describe place { machine.newAttributes place (mode &&& 0o1777) with
          mode := (machine.newAttributes place (mode &&& 0o1777)).mode |||
            (machine.world.attributes place.dropLast).mode &&& 0o2000 }) ∨
      (∀ place, machine.Finds path place → machine.tree.node place = none →
          machine.mayAdd place = false) ∧
        ∃ failure, machine.calls (.mkdir path mode) = (.error failure, machine) := by
  obtain ⟨after, allowed, made, settled⟩ | ⟨refused, failure, settled⟩ :=
    machine.change_cases (machine.reaches machine.view path &&
      machine.mayAdd (machine.view.resolve path)) (machine.tree.makeDirectory machine.view path)
  · obtain ⟨place, found, free, rfl⟩ := FileTree.makeDirectory_eq_some.mp made
    rw [Bool.and_eq_true, FileTree.resolve_of_find found] at allowed
    have called := calls_of_settle (show machine.grant (.mkdir path mode) = _ from rfl) settled
    refine Or.inl ⟨place, _, ⟨allowed.1, found⟩, free, allowed.2, called, ?_⟩
    show machine.describe (machine.view.resolve path) _ = _
    rw [FileTree.resolve_of_find found]
  · refine Or.inr ⟨fun place finds free => ?_, failure, calls_of_settle rfl settled⟩
    rw [← Bool.not_eq_true]
    intro adds
    refine refused ⟨?_, ?_⟩
    · rw [Bool.and_eq_true, finds.resolve]
      exact ⟨finds.1, adds⟩
    · rw [FileTree.makeDirectory_eq_some.mpr ⟨place, finds.2, free, rfl⟩]
      rfl

/-- The process after a change of permissions. -/
def chmodded (place : Location) (mode : UInt32) : Machine :=
  let entry := machine.world.attributes place
  { machine with
    world := machine.describe place { entry with mode := machine.world.user.chmodMode entry mode } }

/-- The attributes of the entry that is changed. -/
theorem chmodded_self (place : Location) (mode : UInt32) :
    (machine.chmodded place mode).world.attributes place =
      { machine.world.attributes place with
        mode := machine.world.user.chmodMode (machine.world.attributes place) mode } :=
  Function.update_self _ _ _

/-- The attributes of the others. -/
theorem chmodded_of_ne {place other : Location} (apart : other ≠ place) (mode : UInt32) :
    (machine.chmodded place mode).world.attributes other = machine.world.attributes other :=
  Function.update_of_ne apart _ _

/-- The permissions of an entry are changed by its owner. -/
theorem calls_chmod {path : List UInt8} {place : Location} (finds : machine.Finds path place)
    (here : machine.tree.node place ≠ none) (mode : UInt32) :
    (machine.owns place = true ∧
        machine.calls (.chmod path mode) = (.ok (), machine.chmodded place mode)) ∨
      machine.owns place = false ∧
        ∃ failure, machine.calls (.chmod path mode) = (.error failure, machine) := by
  obtain ⟨node, lies⟩ := Option.ne_none_iff_exists'.mp here
  have granted : machine.grant (.chmod path mode) = permit (machine.owns place) () := by
    show permit (machine.reaches machine.view path && machine.owns (machine.view.resolve path)) () = _
    rw [finds.resolve, finds.1, Bool.true_and]
  have settles : ∀ granted, machine.settle 0 (.chmod path mode) granted =
      machine.attempt granted fun _ => some ((), machine) := by
    intro granted
    show machine.attempt granted (fun _ =>
      ((machine.tree.find machine.view path).bind machine.tree.node).map fun _ => ((), machine)) = _
    rw [finds.2, Option.bind_some, lies, Option.map_some]
  cases owned : machine.owns place with
  | true =>
    rw [owned] at granted
    refine Or.inl ⟨rfl, (calls_of_settle granted (settles _)).trans ?_⟩
    show (_, machine.chmodded (machine.view.resolve path) mode) = _
    rw [finds.resolve]
  | false =>
    rw [owned] at granted
    exact Or.inr ⟨rfl, denied, calls_of_settle granted (settles _)⟩

/-- What a path leads to is reported with its type. -/
theorem calls_stat (path : List UInt8) :
    (∃ place node st, machine.Finds path place ∧ machine.tree.node place = some node ∧
        machine.calls (.stat path) = (.ok st, machine) ∧
        (st.type = .directory ↔ node = .directory)) ∨
      (∀ place, machine.Finds path place → machine.tree.node place = none) ∧
        ∃ failure, machine.calls (.stat path) = (.error failure, machine) := by
  have settles : ∀ granted, machine.settle 0 (.stat path) granted =
      machine.attempt granted fun st =>
        ((machine.tree.find machine.view path).bind machine.tree.node).map
          fun node => (statOf node st, machine) := fun _ => rfl
  let st : FileStat :=
    ⟨.regular, (machine.world.attributes (machine.view.resolve path)).mode, 0⟩
  have granted : machine.grant (.stat path) = permit (machine.reaches machine.view path) st := rfl
  cases reaches : machine.reaches machine.view path with
  | false =>
    rw [reaches] at granted
    refine Or.inr ⟨fun place finds => ?_, denied, calls_of_settle granted (settles _)⟩
    cases reaches.symm.trans finds.1
  | true =>
    rw [reaches] at granted
    cases found : (machine.tree.find machine.view path).bind machine.tree.node with
    | none =>
      rw [found] at settles
      refine Or.inr ⟨fun place finds => ?_, refusal, calls_of_settle granted (settles _)⟩
      rw [finds.2, Option.bind_some] at found
      exact found
    | some node =>
      rw [found] at settles
      obtain ⟨place, leads, lies⟩ := Option.bind_eq_some_iff.mp found
      refine Or.inl ⟨place, node, statOf node st, ⟨reaches, leads⟩, lies,
        calls_of_settle granted (settles _), ?_⟩
      cases node with
      | directory => exact iff_of_true rfl rfl
      | regular content => exact iff_of_false nofun nofun

/-- A file is removed if the process may remove it. -/
theorem calls_unlink {path : List UInt8} {place : Location} {content : List UInt8}
    (finds : machine.Finds path place) (file : machine.tree.node place = some (.regular content))
    (removes : machine.mayRemove place = true) :
    machine.calls (.unlink path) =
      (.ok (), { machine with tree := machine.tree.erase place }) := by
  have granted : machine.grant (.unlink path) = permit true () := by
    show permit (machine.reaches machine.view path &&
      machine.mayRemove (machine.view.resolve path)) () = _
    rw [finds.resolve, finds.1, removes, Bool.true_and]
  have settled : machine.settle 0 (.unlink path) (permit true ()) =
      (.ok (), { machine with tree := machine.tree.erase place }) := by
    show machine.change (permit true ()) (machine.tree.unlink machine.view path) = _
    rw [FileTree.unlink_eq_some.mpr ⟨place, content, finds.2, file, rfl⟩]
    rfl
  exact calls_of_settle granted settled

/-- A directory without entries is removed if the process may remove it. -/
theorem calls_rmdir {path : List UInt8} {place : Location} (finds : machine.Finds path place)
    (directory : machine.tree.node place = some .directory)
    (named : FileTree.namesEntry path = true) (bare : machine.tree.isBare place = true)
    (removes : machine.mayRemove place = true) :
    machine.calls (.rmdir path) =
      (.ok (), { machine with tree := machine.tree.erase place }) := by
  have granted : machine.grant (.rmdir path) = permit true () := by
    show permit (machine.reaches machine.view path &&
      machine.mayRemove (machine.view.resolve path)) () = _
    rw [finds.resolve, finds.1, removes, Bool.true_and]
  have found : machine.tree.findDirectory machine.view path = some place :=
    Option.filter_eq_some_iff.mpr ⟨finds.2, decide_eq_true directory⟩
  have settled : machine.settle 0 (.rmdir path) (permit true ()) =
      (.ok (), { machine with tree := machine.tree.erase place }) := by
    show machine.change (permit true ()) (machine.tree.removeDirectory machine.view path) = _
    rw [FileTree.removeDirectory_eq_some.mpr ⟨place, found, named, bare, rfl⟩]
    rfl
  exact calls_of_settle granted settled

/-- A file that comes to another place takes its attributes there. -/
theorem moved_regular {source target : Location} {content : List UInt8}
    (file : machine.tree.node source = some (.regular content)) :
    (machine.moved source target).attributes =
      Function.update machine.world.attributes target (machine.world.attributes source) := by
  have plain : machine.tree.isDirectory source ≠ true := fun directory =>
    nomatch (of_decide_eq_true directory).symm.trans file
  funext place
  show (if _ then _ else _) = _
  by_cases here : place = target
  · subst here
    rw [if_pos (Or.inr rfl), Function.update_self, List.drop_length, List.append_nil]
  · rw [if_neg (fun either => either.elim (fun both => plain both.1) here),
      Function.update_of_ne here]

/-- The process may rename one path to another, and the tree can do it. -/
def Renames (old new : List UInt8) : Prop :=
  (machine.reaches machine.view old && machine.reaches machine.view new &&
    machine.mayRename (machine.view.resolve old) (machine.view.resolve new)) = true ∧
      (machine.tree.rename machine.view old new).isSome = true

/-- A rename happens if it may and can. -/
theorem calls_rename (old new : List UInt8) :
    (∃ after, machine.Renames old new ∧ machine.tree.rename machine.view old new = some after ∧
        machine.calls (.rename old new) = (.ok (), { machine with
          tree := after
          world := machine.moved (machine.view.resolve old) (machine.view.resolve new) })) ∨
      ¬ machine.Renames old new ∧
        ∃ failure, machine.calls (.rename old new) = (.error failure, machine) := by
  obtain ⟨after, allowed, made, settled⟩ | ⟨refused, failure, settled⟩ :=
    machine.change_cases (machine.reaches machine.view old && machine.reaches machine.view new &&
      machine.mayRename (machine.view.resolve old) (machine.view.resolve new))
      (machine.tree.rename machine.view old new)
  · have called := calls_of_settle (show machine.grant (.rename old new) = _ from rfl) settled
    exact Or.inl ⟨after, ⟨allowed, by rw [made]; rfl⟩, made, called⟩
  · exact Or.inr ⟨refused, failure, calls_of_settle rfl settled⟩

end Machine

/-- The call does not change what is on the disk. -/
def HelperOp.keepsDisk : HelperOp → Bool
  | .chroot _ | .chdir _ => true
  | .chmod .. | .chown .. | .fchown .. | .openat .. => false
  | op => op.reads

/-- A call that keeps the disk leaves the entries. -/
theorem Host.tree_of_keepsDisk {ω : Type} (kernel : HostSystem ω) (host : Host ω) {op : HelperOp}
    (keeps : op.keepsDisk = true) : (Host.calls kernel host op).2.tree = host.tree := by
  have kind : op.reads = true ∨ (∃ path, op = .chroot path) ∨ ∃ path, op = .chdir path := by
    cases op <;> first | exact Or.inl keeps | exact absurd keeps Bool.false_ne_true | simp
  rcases kind with reads | ⟨path, rfl⟩ | ⟨path, rfl⟩
  · obtain ⟨files, world, same⟩ := Host.calls_reads kernel host op reads
    rw [same]
  · obtain ⟨world, called, -⟩ | ⟨place, world, -, called⟩ := Host.calls_chroot kernel host path <;>
      rw [called]
  · obtain ⟨failure, world, called, -⟩ | ⟨place, world, -, called⟩ :=
      Host.calls_chdir kernel host path <;> rw [called]

namespace Machine

/-- The system that answers as the permissions of a process do. -/
def permitting (machine : Machine) : HostSystem Permissions := ⟨fun world op => (machine.grant op, world),
  fun _ => 0⟩

/-- Under permissions a call does to the tree what it does for a system that answers so. -/
theorem calls_eq (machine : Machine) (op : HelperOp) : machine.calls op =
    ((Host.calls machine.permitting machine op).1, { (Host.calls machine.permitting machine op).2 with
      world := machine.remember op (Host.calls machine.permitting machine op).1 }) := rfl

/-- A call that keeps the disk leaves the attributes, whatever the system answers. -/
theorem attributes_of_keepsDisk (machine : Machine) (kernel : HostSystem Permissions) {op : HelperOp}
    (keeps : op.keepsDisk = true) : (machine.remember op
      (Host.calls kernel machine op).1).attributes = machine.world.attributes := by
  cases op with
  | openFile path flags mode =>
    obtain ⟨plain, whole⟩ : flags.mode.creat = false ∧ flags.trunc = false := by
      have both : (!flags.creat && !flags.trunc) = true := keeps
      rw [Bool.and_eq_true, Bool.not_eq_true', Bool.not_eq_true'] at both
      exact both
    obtain ⟨failure, world, refused⟩ | ⟨fd, place, tree, world, opens, -, found⟩ :=
      Host.calls_openFile kernel machine path flags mode
    · rw [refused]
      rfl
    · rw [opens]
      show (machine.opened machine.view path flags mode).attributes = _
      unfold opened
      rw [FileTree.resolve_of_find (FileTree.openFile_target found),
        if_neg (FileTree.openFile_finds plain found).1, whole]
      rfl
  | initgroups | setegid | seteuid =>
    generalize (Host.calls kernel machine _).1 = answer
    cases answer <;> rfl
  | _ =>
    first
    | exact absurd keeps Bool.false_ne_true
    | rfl

end Machine

namespace Machine

/-- The response of a command and what the next process finds meet the condition. -/
def Answers (machine : Machine) (post : Option HelperResponse → Machine → Prop)
    (script : HelperScript HelperOutcome) : Prop :=
  script.Ends calls machine fun events _ after =>
    post (AccountEnvironment.response events) after.fresh

variable {machine : Machine} {post : Option HelperResponse → Machine → Prop}

/-- What a script answers after a silent part. -/
theorem Answers.after {α : Type} {first : HelperScript α} {rest : α → HelperScript HelperOutcome}
    (silent : first.Only Silent)
    (ends : first.Ends calls machine fun _ value middle => middle.Answers post (rest value)) :
    machine.Answers post (first >>= rest) := by
  apply Script.Ends.bind
  refine (ends.conj (silent.every.ends _ _)).weaken fun before value middle both => ?_
  refine both.1.weaken fun later outcome after holds => ?_
  rw [response_behind both.2]
  exact holds

/-- What a script answers after a silent call. -/
theorem Answers.call {op : HelperOp} {rest : op.Answer → HelperScript HelperOutcome}
    {answer : op.Answer} {after : Machine} (silent : Silent op)
    (called : machine.calls op = (answer, after)) (ends : after.Answers post (rest answer)) :
    machine.Answers post (system op >>= rest) := by
  refine .after ((Script.only_perform op).mpr silent) ?_
  unfold Script.Ends
  rw [Script.runOn_perform, called]
  exact ends

/-- What the last part of most commands answers. -/
theorem answers_regainAndRespond {res : HelperResponse} (holds : post (some res) machine.fresh) :
    machine.Answers post (regainAndRespond res) := by
  refine (ends_regainAndRespond machine res).weaken fun events _ after ends => ?_
  rw [ends.1, ends.2]
  exact holds

/-- What a command answers: without its sandbox it refuses. -/
theorem answers_inSandbox {session : ClientSession} {res : HelperResponse} {refusal : List UInt8}
    {rest : HelperScript HelperOutcome} (top : machine.world.user.uid = 0)
    (refused : (∀ view, ¬ machine.Enters session.homeText session.workdirText view) →
      post (some (res.say refusal)) machine.fresh)
    (entered : ∀ view, machine.Enters session.homeText session.workdirText view →
      (machine.within session view).Answers post rest) :
    machine.Answers post (inSandbox (sandboxUserToHisHome session) res refusal rest) := by
  refine .after (silent_sandboxUser session session.homeText session.workdirText) ?_
  refine (ends_sandbox top session).weaken fun events inside after ends => ?_
  obtain ⟨-, kept, ends⟩ := ends
  cases inside with
  | true =>
    obtain ⟨view, enters, rfl⟩ := ends
    exact entered view enters
  | false =>
    refine Script.Ends.call (show calls _ (.writeResponse _) = (true, _) from rfl)
      (Script.ends_pure.mpr ?_)
    have holds := refused ends
    rw [← kept] at holds
    exact holds

/-- What a command answers after it has given up a lock. -/
theorem answers_unlock {fd : Descriptor} {rest : Unit → HelperScript HelperOutcome}
    (ends : ∀ files, Answers { machine with files } post (rest ())) :
    machine.Answers post (unlockFile fd >>= rest) := by
  refine .after (silent_unlockFile fd) ?_
  refine Script.Ends.call (show calls _ (.clearLock fd) = ((), machine) from rfl) ?_
  show Script.Ends calls machine _ (system (.close fd))
  unfold Script.Ends
  rw [Script.runOn_perform]
  exact ends _

end Machine

/-- The home of a user with her file, under the usual permissions. -/
def aliceMachine : Machine where
  tree := aliceNotes.tree
  view := ⟨[], []⟩
  files := []
  start := []
  world :=
    { attributes := fun place => match place.length with
        | 0 | 1 => ⟨0, 0, 0o755⟩
        | 2 => ⟨1000, 1000, 0o755⟩
        | _ => ⟨1000, 1000, 0o644⟩
      user := .root
      umask := 0o022
      groupsOf := fun _ => [] }

end FileServer
