import FileServer.Verif.CleanExits
import FileServer.Verif.Permissions

/-!
# What a creation leaves on the disk

`HandlerHelperCreateFile` on a file system with permissions, in a system that may refuse any call for
reasons of its own. The file is opened with `O_TRUNC` and without `O_EXCL`, then opened again to be
locked, and the mask of the process takes its bits out of the mode that was asked for; so a success may
stand for a file that was there before, and a failure may leave a file behind.
-/
namespace FileServer

open FileServer.Lib

/-- A mask within some of the bits leaves a value as it was in all of them exactly if it has none of
them. -/
theorem masked_iff {value mask taken kept : UInt32} (covers : kept &&& taken = taken) :
    (value &&& kept &&& ~~~(mask &&& taken)) &&& kept = value &&& kept ↔
      value &&& mask &&& taken = 0 := by
  simp only [← UInt32.toBitVec_inj, UInt32.toBitVec_and, UInt32.toBitVec_not,
    UInt32.toBitVec_zero] at covers ⊢
  simp only [BitVec.eq_of_getLsbD_eq_iff, BitVec.getLsbD_and, BitVec.getLsbD_not,
    BitVec.getLsbD_zero] at covers ⊢
  refine forall_congr' fun bit => imp_congr_right fun short => ?_
  have cover := covers bit short
  revert cover
  rw [decide_eq_true short]
  cases value.toBitVec.getLsbD bit <;> cases mask.toBitVec.getLsbD bit <;>
    cases taken.toBitVec.getLsbD bit <;> cases kept.toBitVec.getLsbD bit <;> decide

/-- The same where a part of the bits comes from another value. -/
theorem masked_or_iff {value mask other taken kept given rest : UInt32}
    (covers : kept &&& taken = taken) (apart : kept &&& rest = 0) (part : rest &&& given = given) :
    ((value &&& kept &&& ~~~(mask &&& taken)) ||| other &&& given) &&& (kept ||| rest) =
        value &&& (kept ||| rest) ↔
      value &&& mask &&& taken = 0 ∧ value &&& rest = other &&& given := by
  simp only [← UInt32.toBitVec_inj, UInt32.toBitVec_and, UInt32.toBitVec_not, UInt32.toBitVec_or,
    UInt32.toBitVec_zero] at covers apart part ⊢
  simp only [BitVec.eq_of_getLsbD_eq_iff, BitVec.getLsbD_and, BitVec.getLsbD_not, BitVec.getLsbD_or,
    BitVec.getLsbD_zero] at covers apart part ⊢
  simp only [← forall_and]
  refine forall_congr' fun bit => imp_congr_right fun short => ?_
  have cover := covers bit short
  have apart := apart bit short
  have part := part bit short
  revert cover apart part
  rw [decide_eq_true short]
  generalize value.toBitVec.getLsbD bit = a
  generalize mask.toBitVec.getLsbD bit = b
  generalize other.toBitVec.getLsbD bit = c
  generalize taken.toBitVec.getLsbD bit = d
  generalize kept.toBitVec.getLsbD bit = e
  generalize given.toBitVec.getLsbD bit = f
  generalize rest.toBitVec.getLsbD bit = g
  revert a b c d e f g
  decide

/-- An entry has been made: there was none before, and now there is an empty one of the owner with
the permission bits. -/
structure Created (before after : Disk) (place : Location) (owner privileges : UInt32)
    (makeDir : Bool) : Prop where
  /-- There was none. -/
  absent : before.node place = none
  /-- There is an empty one. -/
  made : after.node = Function.update before.node place
    (some (if makeDir then .directory else .regular []))
  /-- Its owner. -/
  owned : (after.attributes place).owner = owner
  /-- Its permission bits, with `S_ISUID`, `S_ISGID` and `S_ISVTX`. -/
  bits : (after.attributes place).mode &&& 0o7777 = privileges &&& 0o7777

/-- A creation makes the entry if it answers with zero, and otherwise leaves the disk. -/
def CreatesExactly (machine : Machine) (session : ClientSession) (filename : List UInt8)
    (privileges : UInt32) (makeDir : Bool) (answer : Option HelperResponse) (after : Disk) : Prop :=
  ∀ response, answer = some response →
    (response.status = 0 → ∃ view, machine.Enters session.homeText session.workdirText view ∧
      Created machine.disk after (view.resolve filename) session.uid privileges makeDir) ∧
    (response.status ≠ 0 → after = machine.disk)

/-- The call has made an entry, or opened one with `O_CREAT`. -/
def HelperEvent.Makes : HelperEvent → Prop
  | ⟨.mkdir .., answer⟩ => answer = .ok ()
  | ⟨.openat _ _ flags _, answer⟩ => flags.creat = true ∧ ∃ fd, answer = .ok fd
  | _ => False

/-- Some call has. -/
def Made (events : List HelperEvent) : Prop := ∃ event ∈ events, HelperEvent.Makes event

/-- Some file could not be opened or locked. -/
def Unlocked (events : List HelperEvent) : Prop := ∃ event ∈ events, HelperEvent.Refuses event

namespace Machine

/-- What a creation needs to be exact, for the calls that it has made. -/
structure CreatesCleanly (machine : Machine) (filename : List UInt8) (privileges : UInt32)
    (makeDir : Bool) (events : List HelperEvent) : Prop where
  /-- The mask takes nothing from the mode of a directory that is made, and the directory around it
  gives it the `S_ISGID` asked for; `S_ISUID` is not asked for. -/
  directory : makeDir = true → Made events → ∀ place, machine.Finds filename place →
    privileges &&& machine.world.umask &&& 0o777 = 0 ∧
      privileges &&& 0o6000 = (machine.world.attributes place.dropLast).mode &&& 0o2000
  /-- A file that is opened and was there is empty, loses no bit of its mode, and cannot be locked. -/
  existing : makeDir = false → Made events → ∀ place content, machine.Finds filename place →
    machine.tree.node place = some (.regular content) → content = [] ∧ Unlocked events ∧
      machine.world.user.emptiedMode (machine.world.attributes place) =
        (machine.world.attributes place).mode
  /-- A new file can be locked, the mask takes nothing from its mode, and its group may be set with
  it. -/
  absent : makeDir = false → Made events → ∀ place, machine.Finds filename place →
    machine.tree.node place = none → ¬ Unlocked events ∧
      privileges &&& machine.world.umask &&& 0o777 = 0 ∧
      machine.fileMode place privileges = privileges &&& 0o7777

section

variable (machine : Machine)

/-- The current directory is opened, or nothing happens. -/
theorem calls_openDot (free : machine.file machine.unused = none) :
    machine.calls (.openFile (str ".") ⟨.readOnly, false, false, true, false⟩ 0) =
        (.ok machine.unused, { machine with
          files := (machine.unused, ⟨machine.view.cwd, 0⟩) :: machine.files }) ∨
      ∃ failure, machine.calls (.openFile (str ".") ⟨.readOnly, false, false, true, false⟩ 0) =
        (.error failure, machine) := by
  let flags : OpenFlags := ⟨.readOnly, false, false, true, false⟩
  have granted : machine.grant (.openFile (str ".") flags 0) =
      machine.grantOpen machine.view (str ".") flags := rfl
  obtain ⟨place, tree, -, -, opened, settled⟩ | ⟨-, failure, settled⟩ :=
    machine.openFrom_grantOpen machine.view (str ".") flags free
  · obtain ⟨found, here, rfl⟩ := FileTree.openFile_directory.mp opened
    have same : machine.view.cwd = place := FileTree.resolve_of_find found
    subst same
    have known : machine.opened machine.view (str ".") flags 0 = machine.world := by
      unfold Machine.opened
      rw [FileTree.resolve_of_find found]
      exact (if_neg (by simp [here])).trans (if_neg Bool.false_ne_true)
    refine Or.inl ((calls_of_settle granted settled).trans ?_)
    exact congrArg (fun world => (Except.ok machine.unused, ({ machine with
      world, files := (machine.unused, ⟨machine.view.cwd, 0⟩) :: machine.files } : Machine))) known
  · exact Or.inr ⟨failure, calls_of_settle granted settled⟩

/-- A file is written from scratch: one that the process may write, or a new one. -/
def Writes (path : List UInt8) (place : Location) : Prop :=
  machine.Finds path place ∧
    ((∃ content, machine.tree.node place = some (.regular content)) ∧
        machine.may place .write = true ∨
      machine.tree.node place = none ∧ FileTree.endsOpen path = false ∧
        machine.mayAdd place = true)

/-- The flags of `openat` in `HandlerHelperCreateFile`. -/
abbrev createFlags : OpenFlags := ⟨.writeOnly, true, true, false, true⟩

/-- The attributes of a file that is written from scratch. -/
def scratchedAttributes (place : Location) (mode : UInt32) : Attributes :=
  let entry := machine.world.attributes place
  if machine.tree.node place = none then
    machine.newAttributes place (machine.fileMode place mode)
  else { entry with mode := machine.world.user.emptiedMode entry }

/-- The process after a file has been written from scratch. -/
def scratched (place : Location) (mode : UInt32) : Machine :=
  { machine with
    tree := machine.tree.insert place (.regular [])
    files := (machine.unused, ⟨place, 0⟩) :: machine.files
    world := machine.describe place (machine.scratchedAttributes place mode) }

/-- The file is written from scratch, or nothing happens. -/
theorem calls_openat (free : machine.file machine.unused = none) {directory : Descriptor}
    {position : Nat} (here : machine.file directory = some ⟨machine.view.cwd, position⟩)
    (path : List UInt8) (mode : UInt32) :
    (∃ place, machine.Writes path place ∧
        machine.calls (.openat directory path createFlags mode) =
          (.ok machine.unused, machine.scratched place mode)) ∨
      ∃ failure, machine.calls (.openat directory path createFlags mode) =
        (.error failure, machine) := by
  have granted : machine.grant (.openat directory path createFlags mode) =
      machine.grantOpen machine.view path createFlags := by
    exact machine.grant_openat here path createFlags mode
  have settles : machine.settle 0 (.openat directory path createFlags mode)
      (machine.grantOpen machine.view path createFlags) =
        machine.openFrom machine.view path createFlags
          (machine.grantOpen machine.view path createFlags) := by
    exact machine.settle_openat 0 here path createFlags mode _
  have remembers : machine.remember (.openat directory path createFlags mode) (.ok machine.unused) =
      machine.opened machine.view path createFlags mode := by
    exact machine.remember_openat here path createFlags mode machine.unused
  obtain ⟨place, tree, reaches, allowed, opened, settled⟩ | ⟨-, failure, settled⟩ :=
    machine.openFrom_grantOpen machine.view path createFlags free
  · obtain ⟨found, before, rfl⟩ := FileTree.openFile_create.mp opened
    have known : machine.opened machine.view path createFlags mode =
        (machine.scratched place mode).world := by
      unfold Machine.opened scratched scratchedAttributes
      rw [FileTree.resolve_of_find found]
      dsimp only
      by_cases absent : machine.tree.node place = none
      · rw [if_pos absent, if_pos absent]
      · rw [if_neg absent, if_neg absent]
        rfl
    refine Or.inl ⟨place, ⟨⟨reaches, found⟩, ?_⟩,
      (calls_of_settle granted (settles.trans settled)).trans ?_⟩
    · unfold mayOpen at allowed
      rcases before with ⟨content, file⟩ | ⟨none, closed⟩
      · rw [if_neg (by simp [file])] at allowed
        exact Or.inl ⟨⟨content, file⟩, allowed⟩
      · rw [if_pos none] at allowed
        exact Or.inr ⟨none, closed, allowed⟩
    · rw [remembers, known]
      rfl
  · exact Or.inr ⟨failure, calls_of_settle granted (settles.trans settled)⟩

variable {machine} {path : List UInt8} {place : Location} {mode : UInt32}

/-- A file is only written from scratch where there is no directory. -/
theorem Writes.file (writes : machine.Writes path place) :
    machine.tree.node place ≠ some .directory := by
  obtain ⟨-, ⟨⟨content, file⟩, -⟩ | ⟨none, -, -⟩⟩ := writes
  · simp [file]
  · simp [none]

/-- What lies at the places after a file has been written from scratch. -/
theorem Writes.node (writes : machine.Writes path place) :
    (machine.scratched place mode).tree.node =
      Function.update machine.tree.node place (some (.regular [])) :=
  FileTree.node_insert _ (FileTree.ne_root _ writes.file) _

end

/-- The answer refuses the call. -/
def Refusal : (op : HelperOp) → op.Answer → Prop
  | .initgroups .., done | .setegid _, done | .seteuid _, done | .chroot _, done => done = false
  | .chdir _, done | .mkdir .., done => ∃ failure, done = .error failure
  | .openFile .., opened | .openat .., opened => ∃ failure, opened = .error failure
  | _, _ => False

/-- The system may refuse the call, and otherwise the permissions decide. -/
def shared : HelperOp → Bool
  | .initgroups .. | .setegid _ | .seteuid _ | .chroot _ | .chdir _ | .mkdir .. => true
  | .openFile .. | .openat .. => true
  | _ => false

section

variable {ω : Type} (kernel : HostSystem ω) (state : Machine × ω)

/-- A call is refused, or answered as the permissions do. -/
theorem callsUnder_cases {op : HelperOp} (both : shared op = true) : ∃ later,
    (∃ answer, Refusal op answer ∧ callsUnder kernel state op = (answer, state.1, later)) ∨
      callsUnder kernel state op = ((state.1.calls op).1, (state.1.calls op).2, later) := by
  refine ⟨(kernel.answer state.2 op).2, ?_⟩
  obtain ⟨machine, world⟩ := state
  obtain ⟨granted, same⟩ : ∃ granted, (kernel.answer world op).1 = granted := ⟨_, rfl⟩
  let settled := machine.settle (kernel.written world) op (agreed op granted (machine.grant op))
  have called : callsUnder kernel (machine, world) op = (settled.1,
      { settled.2 with world := machine.remember op settled.1 }, (kernel.answer world op).2) := by
    subst same
    rfl
  cases op with
  | initgroups | setegid | seteuid =>
    cases granted with
    | false => exact Or.inl ⟨false, rfl, called⟩
    | true => exact Or.inr called
  | chroot path =>
    cases granted with
    | false =>
      refine Or.inl ⟨false, rfl, called.trans ?_⟩
      cases found : machine.tree.findDirectory machine.view path with
      | none => simp [settled, machine.settle_chroot_none _ found, remember]
      | some place => simp [settled, agreed, machine.settle_chroot _ found, remember]
    | true => exact Or.inr called
  | chdir | mkdir | openFile =>
    cases granted with
    | error failure => exact Or.inl ⟨.error failure, ⟨failure, rfl⟩, called⟩
    | ok _ => exact Or.inr called
  | openat directory path flags mode =>
    cases granted with
    | error failure =>
      refine Or.inl ⟨.error failure, ⟨failure, rfl⟩, called.trans ?_⟩
      have refused : settled = (.error failure, machine) := by
        show machine.settle _ (.openat directory path flags mode) (.error failure) = _
        cases here : machine.file directory with
        | none => exact machine.settle_openat_none _ here path flags mode (.error failure)
        | some file => exact machine.settle_openat _ here path flags mode (.error failure)
      rw [refused]
      rfl
    | ok _ => exact Or.inr called
  | _ => cases both

/-- A call that keeps the disk does so in every system. -/
theorem disk_callsUnder {op : HelperOp} (keeps : op.keepsDisk = true) :
    (callsUnder kernel state op).2.1.disk = state.1.disk := by
  let both : HostSystem Permissions :=
    ⟨fun permissions op => (agreed op (kernel.answer state.2 op).1 (state.1.grant op), permissions),
      fun _ => kernel.written state.2⟩
  have tree : (callsUnder kernel state op).2.1.tree = state.1.tree :=
    Host.tree_of_keepsDisk both state.1 keeps
  have attributes : (callsUnder kernel state op).2.1.world.attributes = state.1.world.attributes :=
    state.1.attributes_of_keepsDisk both keeps
  unfold disk
  rw [tree, attributes]

/-- So do calls one after the other. -/
theorem ends_disk {α : Type} {script : HelperScript α}
    (keeps : script.Only fun op => op.keepsDisk = true) :
    script.Ends (callsUnder kernel) state fun _ _ after => after.1.disk = state.1.disk := by
  have run := Script.Only.runOn (callsUnder kernel) keeps
    (fun after => after.1.disk = state.1.disk) (fun _ _ => True)
    (fun middle op same keeps => ⟨(disk_callsUnder kernel middle keeps).trans same, trivial⟩) rfl
  exact run.1

/-- A call that the system does not refuse is answered as the permissions do. -/
theorem callsUnder_of_calls {op : HelperOp} {answer : op.Answer} {after : Machine} {later : ω}
    (called : callsUnder kernel state op = ((state.1.calls op).1, (state.1.calls op).2, later))
    (allowed : state.1.calls op = (answer, after)) :
    callsUnder kernel state op = (answer, after, later) := by
  rw [called, allowed]

/-- The privileges are dropped in the sandbox of a session. -/
theorem ends_dropPrivileges (top : state.1.world.user.uid = 0) (session : ClientSession) :
    (dropPrivilegesTemp session).Ends (callsUnder kernel) state fun _ dropped after =>
      dropped = true → after.1 = state.1.within session state.1.view := by
  obtain ⟨machine, world⟩ := state
  obtain ⟨uid, later, asked⟩ : ∃ uid later, callsUnder kernel (machine, world) .getuid =
      (uid, machine, later) := ⟨_, _, rfl⟩
  refine Script.Ends.call asked ?_
  by_cases other : uid ≠ 0
  · rw [if_pos other]
    exact Script.ends_pure.mpr nofun
  rw [if_neg other]
  let groups : List UInt32 := session.gid :: machine.world.groupsOf session.usernameText
  let second : Machine := { machine with world := { machine.world with
    user := { machine.world.user with groups } } }
  let third : Machine := { second with world := { second.world with
    user := { second.world.user with gid := session.gid } } }
  obtain ⟨after, ⟨_, rfl, called⟩ | called⟩ := callsUnder_cases kernel (machine, later)
    (show shared (.initgroups session.usernameText session.gid) = true from rfl)
  · exact Script.Ends.call called (Script.ends_pure.mpr nofun)
  have grouped : callsUnder kernel (machine, later) (.initgroups session.usernameText session.gid) =
      (true, second, after) :=
    callsUnder_of_calls kernel _ called (machine.calls_initgroups top _ _)
  refine Script.Ends.call grouped ?_
  obtain ⟨next, ⟨_, rfl, called⟩ | called⟩ := callsUnder_cases kernel (second, after)
    (show shared (.setegid session.gid) = true from rfl)
  · exact Script.Ends.call called (Script.ends_pure.mpr nofun)
  have joined : callsUnder kernel (second, after) (.setegid session.gid) = (true, third, next) :=
    callsUnder_of_calls kernel _ called (second.calls_setegid top _)
  refine Script.Ends.call joined ?_
  show Script.Ends (callsUnder kernel) (third, next) _ (system (.seteuid session.uid))
  unfold Script.Ends
  rw [Script.runOn_perform]
  obtain ⟨last, ⟨_, rfl, called⟩ | called⟩ := callsUnder_cases kernel (third, next)
    (show shared (.seteuid session.uid) = true from rfl)
  · rw [called]
    exact nofun
  · rw [called, third.calls_seteuid top session.uid]
    exact fun _ => rfl

/-- The sandbox of a session is where its directories lead, if it is entered. -/
theorem ends_sandboxUnder (top : state.1.world.user.uid = 0) (session : ClientSession) :
    (sandboxUserToHisHome session).Ends (callsUnder kernel) state fun _ inside after =>
      inside = true → ∃ view, state.1.Enters session.homeText session.workdirText view ∧
        after.1 = state.1.within session view := by
  obtain ⟨machine, world⟩ := state
  obtain ⟨later, ⟨_, rfl, called⟩ | called⟩ :=
    callsUnder_cases kernel (machine, world) (show shared (.chroot session.homeText) = true from rfl)
  · exact Script.Ends.call called (Script.ends_pure.mpr nofun)
  rcases calls_chroot top session.homeText with ⟨-, failed⟩ | ⟨root, first, rooted⟩
  · exact Script.Ends.call (callsUnder_of_calls kernel _ called failed) (Script.ends_pure.mpr nofun)
  refine Script.Ends.call (callsUnder_of_calls kernel _ called rooted) ?_
  let middle : Machine := { machine with view := ⟨root, machine.view.cwd⟩ }
  have top' : middle.world.user.uid = 0 := top
  obtain ⟨after, ⟨_, ⟨failure, rfl⟩, called⟩ | called⟩ := callsUnder_cases kernel (middle, later)
    (show shared (.chdir session.workdirText) = true from rfl)
  · exact Script.Ends.call called (Script.ends_pure.mpr nofun)
  rcases calls_chdir top' session.workdirText with ⟨-, failure, failed⟩ | ⟨place, found, moved⟩
  · exact Script.Ends.call (callsUnder_of_calls kernel _ called failed) (Script.ends_pure.mpr nofun)
  refine Script.Ends.call (callsUnder_of_calls kernel _ called moved) ?_
  refine (ends_dropPrivileges kernel ({ machine with view := ⟨root, place⟩ }, after) top session).weaken
    fun _ dropped last ends inside => ?_
  exact ⟨⟨root, place⟩, ⟨first, found⟩, ends inside⟩

end

end Machine

/-- The part of `HandlerHelperCreateFile` that makes a directory. -/
def makeInside (filename : List UInt8) (privileges : UInt32) (res : HelperResponse) :
    HelperScript HelperOutcome := do
  let made ← system (.mkdir filename privileges)
  let _ ← system (.writeResponse <| match made with
    | .error text => res.say (str "mkdir failed: " ++ text)
    | .ok _ => res.succeed (str "Directory created successfully"))
  if ← regainRoot then return .returned else return .exited

/-- The part that locks a file that has been created. -/
def lockCreated (filename : List UInt8) (res : HelperResponse) (dirfd fd : Descriptor) :
    HelperScript HelperOutcome := do
  match ← lockFile filename .exclusive with
  | .error _ =>
    system (.close dirfd)
    system (.close fd)
    regainAndRespond (res.say (str "Cannot lock file for creation"))
  | .ok lockFd =>
    system (.close fd)
    unlockFile lockFd
    regainAndRespond (res.succeed (str "File created succesfully"))

/-- The part that creates a file in a directory that is open. -/
def createBelow (filename : List UInt8) (privileges : UInt32) (res : HelperResponse)
    (dirfd : Descriptor) : HelperScript HelperOutcome := do
  let opened ← system (.openat dirfd filename Machine.createFlags privileges)
  system (.close dirfd)
  match opened with
  | .error _ => regainAndRespond (res.say (str "Create failed"))
  | .ok fd => lockCreated filename res dirfd fd

/-- The part that makes a file. -/
def createInside (filename : List UInt8) (privileges : UInt32) (res : HelperResponse) :
    HelperScript HelperOutcome := do
  match ← system (.openFile (str ".") ⟨.readOnly, false, false, true, false⟩ 0) with
  | .error _ => regainAndRespond (res.say (str "Dir open error"))
  | .ok dirfd => createBelow filename privileges res dirfd

/-- The call neither makes nor refuses an entry. -/
def HelperEvent.Idle (event : HelperEvent) : Prop := ¬ event.Makes ∧ ¬ event.Refuses

/-- The calls at the end of a command: at most one response is sent. -/
structure Closing (sent : HelperResponse) (events : List HelperEvent) : Prop where
  /-- The response. -/
  response : ∀ res, AccountEnvironment.response events = some res → res = sent
  /-- No entry is made or refused. -/
  idle : ∀ event ∈ events, HelperEvent.Idle event

/-- A response that is sent is the one that arrives. -/
theorem response_sent {sent : HelperResponse} {written : Bool} {later : List HelperEvent}
    (silent : ∀ event ∈ later, Silent event.1) (res : HelperResponse)
    (arrived : AccountEnvironment.response (⟨.writeResponse sent, written⟩ :: later) = some res) :
    res = sent := by
  cases written with
  | true => exact (Option.some.inj arrived).symm
  | false =>
    have none : AccountEnvironment.response later = none := by
      have rest := response_behind silent []
      rwa [List.append_nil] at rest
    cases none.symm.trans arrived

/-- A response before the way back to root. -/
theorem closing_early (sent : HelperResponse) :
    (system (.writeResponse sent) >>= fun _ => regainRoot >>= fun regained =>
      if regained then pure HelperOutcome.returned else pure .exited).Every
        fun events _ => Closing sent events := by
  intro written
  have quiet : (regainRoot >>= fun regained =>
      if regained then pure HelperOutcome.returned else pure .exited :
        HelperScript HelperOutcome).Only fun op =>
          Silent op ∧ ∀ answer, HelperEvent.Idle ⟨op, answer⟩ := by
    refine Script.Only.bind (only_regainRoot ⟨rfl, fun _ => ⟨id, id⟩⟩ ⟨rfl, fun _ => ⟨id, id⟩⟩) ?_
    rintro (_ | _) <;> trivial
  refine quiet.every.weaken fun events outcome idle => ⟨?_, ?_⟩
  · exact response_sent fun event member => (idle event member).1
  · intro event member
    rcases List.mem_cons.mp member with rfl | later
    · exact ⟨id, id⟩
    · exact (idle event later).2 event.2

/-- A response at the end. -/
theorem closing_response (sent : HelperResponse) (outcome : HelperOutcome) :
    (system (.writeResponse sent) >>= fun _ => pure outcome : HelperScript HelperOutcome).Every
      fun events _ => Closing sent events := by
  refine fun written => ⟨response_sent (by simp), ?_⟩
  simp [HelperEvent.Idle, HelperEvent.Makes, HelperEvent.Refuses]

/-- The end of most commands. -/
theorem closing_regainAndRespond (sent : HelperResponse) :
    (regainAndRespond sent).Every fun events _ => Closing sent events := by
  have silent : ∀ events : List HelperEvent, (∀ event ∈ events, Silent event.1) →
      ∀ res, AccountEnvironment.response events = some res → res = sent := by
    intro events quiet res arrived
    have rest := response_behind quiet []
    rw [List.append_nil, arrived] at rest
    cases rest
  rintro (_ | _)
  · exact ⟨silent _ (by simp [Silent, HelperOp.toServer]),
      by simp [HelperEvent.Idle, HelperEvent.Makes, HelperEvent.Refuses]⟩
  · rintro (_ | _)
    · exact ⟨silent _ (by simp [Silent, HelperOp.toServer]),
        by simp [HelperEvent.Idle, HelperEvent.Makes, HelperEvent.Refuses]⟩
    · intro written
      refine ⟨fun res arrived => ?_, by simp [HelperEvent.Idle, HelperEvent.Makes, HelperEvent.Refuses]⟩
      exact response_sent (by simp) res arrived

/-- Idle calls in front do not matter. -/
theorem Closing.behind {sent : HelperResponse} {before events : List HelperEvent}
    (silent : ∀ event ∈ before, Silent event.1) (idle : ∀ event ∈ before, HelperEvent.Idle event)
    (closing : Closing sent events) : Closing sent (before ++ events) where
  response res arrived := by
    rw [response_behind silent] at arrived
    exact closing.response res arrived
  idle event member := (List.mem_append.mp member).elim (idle event) (closing.idle event)

/-- After a file has been created the response tells whether it has been locked. -/
def TellsLock (events : List HelperEvent) : Prop :=
  ∀ res, AccountEnvironment.response events = some res → (res.status = 0 ↔ ¬ Unlocked events)

/-- The response to a creation tells whether the lock has been taken. -/
theorem tells_lockCreated {filename : List UInt8} {res : HelperResponse} (failed : res.status ≠ 0)
    (dirfd fd : Descriptor) :
    (lockCreated filename res dirfd fd).Every fun events _ => TellsLock events := by
  have locks := (refuses_lockFile filename .exclusive).conj (silent_lockFile filename .exclusive).every
  have silent : ∀ first second : Descriptor, ∀ event ∈ ([⟨.close first, ()⟩, ⟨.close second, ()⟩] :
      List HelperEvent), Silent event.1 := by simp [Silent, HelperOp.toServer]
  have idle : ∀ first second : Descriptor, ∀ event ∈ ([⟨.close first, ()⟩, ⟨.close second, ()⟩] :
      List HelperEvent), HelperEvent.Idle event := by
    simp [HelperEvent.Idle, HelperEvent.Makes, HelperEvent.Refuses]
  refine (Script.every_bind _ _).mpr (locks.weaken fun before locked both => ?_)
  obtain ⟨refused, quiet⟩ := both
  cases locked with
  | error failure =>
    intro _ _
    refine (closing_regainAndRespond _).weaken fun events _ closing response arrived => ?_
    rw [response_behind quiet] at arrived
    have told := (closing.behind (silent dirfd fd) (idle dirfd fd)).response response arrived
    subst told
    obtain ⟨event, member, refuses⟩ := refused
    exact iff_of_false failed (not_not.mpr ⟨event, List.mem_append_left _ member, refuses⟩)
  | ok lockFd =>
    intro _ _ _
    refine (closing_regainAndRespond _).weaken fun events _ closing response arrived => ?_
    rw [response_behind quiet] at arrived
    have behind : Closing (res.succeed (str "File created succesfully"))
        ([⟨.close fd, ()⟩, ⟨.clearLock lockFd, ()⟩, ⟨.close lockFd, ()⟩] ++ events) :=
      closing.behind (by simp [Silent, HelperOp.toServer])
        (by simp [HelperEvent.Idle, HelperEvent.Makes, HelperEvent.Refuses])
    have told := behind.response response arrived
    subst told
    refine iff_of_true rfl ?_
    rintro ⟨event, member, refuses⟩
    rcases List.mem_append.mp member with earlier | later
    · exact refused event earlier refuses
    · exact (behind.idle event later).2 refuses

namespace Machine

/-- The process after a directory has been made. -/
def directoryMade (machine : Machine) (place : Location) (mode : UInt32) : Machine :=
  let entry := machine.newAttributes place (mode &&& 0o1777)
  { machine with
    tree := machine.tree.insert place .directory
    world := machine.describe place { entry with
      mode := entry.mode ||| (machine.world.attributes place.dropLast).mode &&& 0o2000 } }

/-- A creation has made nothing, and does not tell of a success. -/
structure MakesNothing (events : List HelperEvent) : Prop where
  /-- Nothing has been made. -/
  unmade : ¬ Made events
  /-- The response tells of a failure. -/
  failed : ∀ res, AccountEnvironment.response events = some res → res.status ≠ 0

/-- What a creation by a process in its sandbox comes to. -/
inductive CreateEnds (machine : Machine) (filename : List UInt8) (privileges : UInt32) :
    Bool → List HelperEvent → Disk → Prop
  /-- Nothing has been made. -/
  | refused {makeDir : Bool} {events : List HelperEvent} (nothing : MakesNothing events) :
      CreateEnds machine filename privileges makeDir events machine.disk
  /-- A directory has been made. -/
  | directory {events : List HelperEvent} {place : Location} (made : Made events)
      (finds : machine.Finds filename place) (absent : machine.tree.node place = none)
      (succeeded : ∀ res, AccountEnvironment.response events = some res → res.status = 0) :
      CreateEnds machine filename privileges true events (machine.directoryMade place privileges).disk
  /-- A file has been written from scratch. -/
  | file {events : List HelperEvent} {place : Location} (made : Made events)
      (writes : machine.Writes filename place) (tells : TellsLock events) :
      CreateEnds machine filename privileges false events (machine.scratched place privileges).disk

section

variable {ω : Type} (kernel : HostSystem ω) (machine : Machine) (world : ω)

/-- The last calls of a creation leave the disk. -/
theorem ends_closing {script : HelperScript HelperOutcome} {sent : HelperResponse}
    (closing : script.Every fun events _ => Closing sent events)
    (keeps : script.Only fun op => op.keepsDisk = true) (state : Machine × ω) :
    script.Ends (callsUnder kernel) state fun events _ after =>
      Closing sent events ∧ after.1.disk = state.1.disk :=
  (closing.ends _ _).conj (ends_disk kernel state keeps)

/-- A creation that makes nothing before its last calls makes nothing. -/
theorem makesNothing_closing {sent : HelperResponse} (failed : sent.status ≠ 0)
    (before : List HelperEvent) {events : List HelperEvent}
    (silent : ∀ event ∈ before, Silent event.1) (idle : ∀ event ∈ before, ¬ event.Makes)
    (closing : Closing sent events) : MakesNothing (before ++ events) where
  unmade := by
    rintro ⟨event, member, makes⟩
    rcases List.mem_append.mp member with earlier | later
    · exact idle event earlier makes
    · exact (closing.idle event later).1 makes
  failed res arrived := by
    rw [response_behind silent] at arrived
    rw [closing.response res arrived]
    exact failed

variable {machine} in
/-- Calls in front that make and refuse nothing do not matter. -/
theorem CreateEnds.behind (files : List (Descriptor × OpenFile)) {filename : List UInt8}
    {privileges : UInt32} {makeDir : Bool} (before : List HelperEvent) {events : List HelperEvent}
    {after : Disk} (silent : ∀ event ∈ before, Silent event.1)
    (idle : ∀ event ∈ before, HelperEvent.Idle event)
    (ends : CreateEnds { machine with files } filename privileges makeDir events after) :
    machine.CreateEnds filename privileges makeDir (before ++ events) after := by
  have made : Made (before ++ events) ↔ Made events := by
    constructor
    · rintro ⟨event, member, makes⟩
      exact (List.mem_append.mp member).elim (fun front => absurd makes (idle event front).1)
        fun behind => ⟨event, behind, makes⟩
    · rintro ⟨event, member, makes⟩
      exact ⟨event, List.mem_append_right before member, makes⟩
  have unlocked : Unlocked (before ++ events) ↔ Unlocked events := by
    constructor
    · rintro ⟨event, member, refuses⟩
      exact (List.mem_append.mp member).elim (fun front => absurd refuses (idle event front).2)
        fun behind => ⟨event, behind, refuses⟩
    · rintro ⟨event, member, refuses⟩
      exact ⟨event, List.mem_append_right before member, refuses⟩
  have same := response_behind silent events
  cases ends with
  | refused nothing =>
    exact .refused ⟨fun some => nothing.unmade (made.mp some),
      fun res arrived => nothing.failed res (same ▸ arrived)⟩
  | directory some finds absent succeeded =>
    exact .directory (made.mpr some) finds absent fun res arrived => succeeded res (same ▸ arrived)
  | file some writes tells =>
    exact .file (made.mpr some) writes fun res arrived =>
      (tells res (same ▸ arrived)).trans (not_congr unlocked).symm

/-- A directory is made, or nothing. -/
theorem ends_makeInside (filename : List UInt8) (privileges : UInt32) {res : HelperResponse}
    (failed : res.status ≠ 0) :
    (makeInside filename privileges res).Ends (callsUnder kernel) (machine, world)
      fun events _ after => machine.CreateEnds filename privileges true events after.1.disk := by
  have keeps : ∀ sent, (system (.writeResponse sent) >>= fun _ => regainRoot >>= fun regained =>
      if regained then pure HelperOutcome.returned else pure .exited).Only
        fun op => op.keepsDisk = true := by
    refine fun sent => .call rfl fun _ => Script.Only.bind (only_regainRoot rfl rfl) ?_
    rintro (_ | _) <;> trivial
  have nothing : ∀ failure later, callsUnder kernel (machine, world) (.mkdir filename privileges) =
      (.error failure, machine, later) → (makeInside filename privileges res).Ends (callsUnder kernel)
        (machine, world) fun events _ after =>
          machine.CreateEnds filename privileges true events after.1.disk := by
    intro failure later called
    refine Script.Ends.call called ?_
    refine (ends_closing kernel (closing_early _) (keeps _) (machine, later)).weaken
      fun events _ after ends => ?_
    rw [ends.2]
    exact .refused (makesNothing_closing (show (res.say _).status ≠ 0 from failed)
      [⟨.mkdir filename privileges, .error failure⟩] (by simp [Silent, HelperOp.toServer])
      (by simp [HelperEvent.Makes]) ends.1)
  obtain ⟨later, ⟨_, ⟨failure, rfl⟩, called⟩ | called⟩ := callsUnder_cases kernel (machine, world)
    (show shared (.mkdir filename privileges) = true from rfl)
  · exact nothing failure later called
  rcases machine.calls_mkdir filename privileges with
    ⟨place, permissions, finds, absent, -, made, rfl⟩ | ⟨-, failure, refused⟩
  · refine Script.Ends.call (callsUnder_of_calls kernel _ called made) ?_
    refine (ends_closing kernel (closing_early _) (keeps _) _).weaken fun events _ after ends => ?_
    rw [ends.2]
    refine CreateEnds.directory ⟨_, List.mem_cons_self, rfl⟩ finds absent fun response arrived => ?_
    rw [ends.1.response response arrived]
    rfl
  · exact nothing failure later (callsUnder_of_calls kernel _ called refused)

/-- Locking a file that has been created leaves the disk. -/
theorem keepsDisk_lockCreated (filename : List UInt8) (res : HelperResponse)
    (dirfd fd : Descriptor) :
    (lockCreated filename res dirfd fd).Only fun op => op.keepsDisk = true := by
  refine .bind (only_lockFile _ _ (fun _ => rfl) (fun _ => rfl) fun _ => rfl) fun locked => ?_
  cases locked with
  | error failure =>
    exact .call rfl fun _ => .call rfl fun _ => only_regainAndRespond _ rfl rfl rfl
  | ok lockFd =>
    exact .call rfl fun _ => .call rfl fun _ => .call rfl fun _ =>
      only_regainAndRespond _ rfl rfl rfl

/-- A file is written from scratch in the current directory, or nothing happens. -/
theorem ends_createBelow (filename : List UInt8) (privileges : UInt32) {res : HelperResponse}
    (failed : res.status ≠ 0) {dirfd : Descriptor} {position : Nat}
    (here : machine.file dirfd = some ⟨machine.view.cwd, position⟩)
    (free : machine.file machine.unused = none) :
    (createBelow filename privileges res dirfd).Ends (callsUnder kernel) (machine, world)
      fun events _ after => machine.CreateEnds filename privileges false events after.1.disk := by
  have nothing : ∀ failure later, callsUnder kernel (machine, world)
        (.openat dirfd filename createFlags privileges) = (.error failure, machine, later) →
      (createBelow filename privileges res dirfd).Ends (callsUnder kernel) (machine, world)
        fun events _ after => machine.CreateEnds filename privileges false events after.1.disk := by
    intro failure later called
    refine Script.Ends.call called (Script.Ends.call rfl ?_)
    refine (ends_closing kernel (closing_regainAndRespond _) (only_regainAndRespond _ rfl rfl rfl)
      _).weaken fun events _ after ends => ?_
    rw [ends.2]
    exact .refused (makesNothing_closing (show (res.say _).status ≠ 0 from failed)
      [⟨.openat dirfd filename createFlags privileges, .error failure⟩, ⟨.close dirfd, ()⟩]
      (by simp [Silent, HelperOp.toServer]) (by simp [HelperEvent.Makes]) ends.1)
  obtain ⟨later, ⟨_, ⟨failure, rfl⟩, called⟩ | called⟩ := callsUnder_cases kernel (machine, world)
    (show shared (.openat dirfd filename createFlags privileges) = true from rfl)
  · exact nothing failure later called
  rcases machine.calls_openat free here filename privileges with
    ⟨place, writes, opened⟩ | ⟨failure, refused⟩
  swap
  · exact nothing failure later (callsUnder_of_calls kernel _ called refused)
  refine Script.Ends.call (callsUnder_of_calls kernel _ called opened) (Script.Ends.call rfl ?_)
  refine (((tells_lockCreated failed dirfd machine.unused).ends _ _).conj
    (ends_disk kernel _ (keepsDisk_lockCreated filename res dirfd machine.unused))).weaken
      fun events _ after ends => ?_
  rw [ends.2]
  refine CreateEnds.file ⟨_, List.mem_cons_self, rfl, _, rfl⟩ writes fun response arrived => ?_
  refine (ends.1 response arrived).trans (not_congr ⟨?_, ?_⟩)
  · rintro ⟨event, member, refuses⟩
    exact ⟨event, List.mem_cons_of_mem _ (List.mem_cons_of_mem _ member), refuses⟩
  · rintro ⟨event, member, refuses⟩
    rcases List.mem_cons.mp member with rfl | member
    · exact refuses.elim
    rcases List.mem_cons.mp member with rfl | member
    · exact refuses.elim
    · exact ⟨event, member, refuses⟩

/-- The same by a process that has no file open. -/
theorem ends_createInside (filename : List UInt8) (privileges : UInt32) {res : HelperResponse}
    (failed : res.status ≠ 0) (idle : machine.files = []) :
    (createInside filename privileges res).Ends (callsUnder kernel) (machine, world)
      fun events _ after => machine.CreateEnds filename privileges false events after.1.disk := by
  let flags : OpenFlags := ⟨.readOnly, false, false, true, false⟩
  have unlisted : ∀ failure later, callsUnder kernel (machine, world) (.openFile (str ".") flags 0) =
      (.error failure, machine, later) → (createInside filename privileges res).Ends
        (callsUnder kernel) (machine, world) fun events _ after =>
          machine.CreateEnds filename privileges false events after.1.disk := by
    intro failure later called
    refine Script.Ends.call called ?_
    refine (ends_closing kernel (closing_regainAndRespond _) (only_regainAndRespond _ rfl rfl rfl)
      (machine, later)).weaken fun events _ after ends => ?_
    rw [ends.2]
    exact .refused (makesNothing_closing (show (res.say _).status ≠ 0 from failed)
      [⟨.openFile (str ".") flags 0, .error failure⟩] (by simp [Silent, HelperOp.toServer])
      (by simp [HelperEvent.Makes]) ends.1)
  obtain ⟨zero, first⟩ := machine.unused_none idle
  obtain ⟨later, ⟨_, ⟨failure, rfl⟩, called⟩ | called⟩ := callsUnder_cases kernel (machine, world)
    (show shared (.openFile (str ".") flags 0) = true from rfl)
  · exact unlisted failure later called
  rcases machine.calls_openDot first with opened | ⟨failure, refused⟩
  swap
  · exact unlisted failure later (callsUnder_of_calls kernel _ called refused)
  let listing : Machine := { machine with
    files := (machine.unused, ⟨machine.view.cwd, 0⟩) :: machine.files }
  have listed : listing.files = [(0, ⟨machine.view.cwd, 0⟩)] := by
    show (machine.unused, _) :: machine.files = _
    rw [zero, idle]
  have second : listing.file listing.unused = none := (listing.unused_one listed (Or.inl rfl)).2
  have here : listing.file machine.unused = some ⟨listing.view.cwd, 0⟩ := List.lookup_cons_self
  refine Script.Ends.call (callsUnder_of_calls kernel _ called opened) ?_
  refine (ends_createBelow kernel listing later filename privileges failed here second).weaken
    fun events _ after ends => ?_
  exact ends.behind listing.files [⟨.openFile (str ".") flags 0, .ok machine.unused⟩]
    (by simp [Silent, HelperOp.toServer])
    (by simp [HelperEvent.Idle, HelperEvent.Makes, HelperEvent.Refuses])

end

section

variable {machine : Machine} {place : Location} (privileges : UInt32)

/-- A new file has the mode asked for exactly if the mask and the group leave it. -/
theorem fileMode_iff : (machine.fileMode place privileges &&& ~~~(machine.world.umask &&& 0o777)) &&&
      0o7777 = privileges &&& 0o7777 ↔
    privileges &&& machine.world.umask &&& 0o777 = 0 ∧
      machine.fileMode place privileges = privileges &&& 0o7777 := by
  unfold fileMode
  dsimp only
  split
  next strips =>
    -- the bit `S_ISGID` is asked for and does not come
    have setgid : privileges &&& 0o2000 ≠ 0 := by
      have asked := congrArg (· &&& 0o2000) strips.1
      simp only [UInt32.and_assoc] at asked
      rw [show privileges &&& 0o2000 = 0o2000 from asked]
      decide
    refine iff_of_false (fun same => setgid ?_) fun both => setgid ?_
    · let left : UInt32 := ~~~(machine.world.umask &&& 0o777)
      calc privileges &&& 0o2000
        _ = (privileges &&& 0o7777) &&& 0o2000 := by rw [UInt32.and_assoc]; rfl
        _ = (privileges &&& 0o5777 &&& left) &&& 0o7777 &&& 0o2000 := by rw [same]
        _ = privileges &&& left &&& (0o5777 &&& 0o7777 &&& 0o2000) := by ac_rfl
        _ = 0 := UInt32.and_zero
    · calc privileges &&& 0o2000
        _ = (privileges &&& 0o7777) &&& 0o2000 := by rw [UInt32.and_assoc]; rfl
        _ = (privileges &&& 0o5777) &&& 0o2000 := by rw [both.2]
        _ = 0 := (UInt32.and_assoc _ _ _).trans UInt32.and_zero
  next => exact (masked_iff (by decide)).trans (and_iff_left rfl).symm

/-- A directory that is made is the one asked for exactly if the mask takes nothing from its mode and
the directory around it gives it the group bit asked for. -/
theorem directoryMade_iff (absent : machine.tree.node place = none) :
    Created machine.disk (machine.directoryMade place privileges).disk place machine.world.user.uid
        privileges true ↔
      privileges &&& machine.world.umask &&& 0o777 = 0 ∧
        privileges &&& 0o6000 = (machine.world.attributes place.dropLast).mode &&& 0o2000 := by
  let parent : UInt32 := (machine.world.attributes place.dropLast).mode
  have attributes : (machine.directoryMade place privileges).disk.attributes place =
      { machine.newAttributes place (privileges &&& 0o1777) with
        mode := (privileges &&& 0o1777 &&& ~~~(machine.world.umask &&& 0o777)) |||
          parent &&& 0o2000 } := Function.update_self _ _ _
  have bits : ((machine.directoryMade place privileges).disk.attributes place).mode &&& 0o7777 =
      privileges &&& 0o7777 ↔ privileges &&& machine.world.umask &&& 0o777 = 0 ∧
        privileges &&& 0o6000 = parent &&& 0o2000 := by
    rw [attributes]
    have covers : (0o1777 : UInt32) &&& 0o777 = 0o777 := by decide
    have apart : (0o1777 : UInt32) &&& 0o6000 = 0 := by decide
    have part : (0o6000 : UInt32) &&& 0o2000 = 0o2000 := by decide
    exact masked_or_iff covers apart part
  refine Iff.trans ⟨Created.bits, fun same => ⟨absent, ?_, ?_, same⟩⟩ bits
  · exact FileTree.node_insert _ (FileTree.ne_root machine.tree (by simp [absent])) _
  · rw [attributes]
    rfl

/-- A file that is new is the one asked for exactly if the mask and the group leave its mode. -/
theorem scratched_iff {path : List UInt8} (writes : machine.Writes path place)
    (absent : machine.tree.node place = none) :
    Created machine.disk (machine.scratched place privileges).disk place machine.world.user.uid
        privileges false ↔
      privileges &&& machine.world.umask &&& 0o777 = 0 ∧
        machine.fileMode place privileges = privileges &&& 0o7777 := by
  have attributes : (machine.scratched place privileges).disk.attributes place =
      machine.newAttributes place (machine.fileMode place privileges) :=
    (Function.update_self _ _ _).trans (if_pos absent)
  refine Iff.trans ⟨Created.bits, fun same => ⟨absent, writes.node, ?_, same⟩⟩ ?_
  · rw [attributes]
    rfl
  · rw [attributes]
    exact fileMode_iff privileges

/-- Writing a file from scratch leaves the disk exactly if the file was there and empty, and loses no
bit of its mode. -/
theorem scratched_kept {path : List UInt8} (writes : machine.Writes path place) :
    (machine.scratched place privileges).disk = machine.disk ↔
      machine.tree.node place = some (.regular []) ∧
        machine.world.user.emptiedMode (machine.world.attributes place) =
          (machine.world.attributes place).mode := by
  have node : (machine.scratched place privileges).disk.node = _ := writes.node
  constructor
  · intro same
    have left := congrFun (node.symm.trans (congrArg Disk.node same)) place
    rw [Function.update_self] at left
    have entry : machine.scratchedAttributes place privileges = machine.world.attributes place :=
      (Function.update_self _ _ _).symm.trans (congrFun (congrArg Disk.attributes same) place)
    unfold scratchedAttributes at entry
    have file : machine.tree.node place = some (.regular []) := left.symm
    rw [if_neg (by simp [file])] at entry
    exact ⟨file, congrArg Attributes.mode entry⟩
  · rintro ⟨file, mode⟩
    have entry : machine.scratchedAttributes place privileges = machine.world.attributes place := by
      unfold scratchedAttributes
      rw [if_neg (by simp [file]), mode]
    have attributes : (machine.scratched place privileges).world.attributes =
        machine.world.attributes := Function.update_eq_self_iff.mpr entry
    rw [← file, Function.update_eq_self] at node
    show Disk.mk _ _ = Disk.mk _ _
    rw [show (machine.scratched place privileges).tree.node = _ from node, attributes]

end

end Machine

section

variable {machine : Machine} {session : ClientSession} {filename : List UInt8} {privileges : UInt32}
  {makeDir : Bool} {view : View} {events : List HelperEvent} {after : Disk}

/-- A creation with a response. -/
theorem createsExactly_some (enters : machine.Enters session.homeText session.workdirText view)
    (response : HelperResponse) :
    CreatesExactly machine session filename privileges makeDir (some response) after ↔
      (response.status = 0 →
          Created machine.disk after (view.resolve filename) session.uid privileges makeDir) ∧
        (response.status ≠ 0 → after = machine.disk) := by
  constructor
  · refine fun exact_ => ⟨fun success => ?_, (exact_ response rfl).2⟩
    obtain ⟨other, enters', created⟩ := (exact_ response rfl).1 success
    obtain rfl := enters.unique enters'
    exact created
  · rintro ⟨created, kept⟩ _ same
    cases same
    exact ⟨fun success => ⟨view, enters, created success⟩, kept⟩

/-- Where nothing has been made nothing is needed. -/
theorem createsCleanly_of_unmade (unmade : ¬ Made events) :
    machine.CreatesCleanly filename privileges makeDir events :=
  ⟨fun _ made => absurd made unmade, fun _ made => absurd made unmade,
    fun _ made => absurd made unmade⟩

/-- A directory that has been made is what was asked for under the conditions of its case. -/
theorem createsExactly_directory (enters : machine.Enters session.homeText session.workdirText view)
    {place : Location} (made : Made events)
    (finds : (machine.within session view).Finds filename place)
    (absent : (machine.within session view).tree.node place = none)
    {response : HelperResponse} (success : response.status = 0) :
    CreatesExactly machine session filename privileges true (some response)
        ((machine.within session view).directoryMade place privileges).disk ↔
      (machine.within session view).CreatesCleanly filename privileges true events := by
  have exact_ := Machine.directoryMade_iff privileges absent
  rw [createsExactly_some enters, show view.resolve filename = place from finds.resolve]
  constructor
  · intro both
    refine ⟨fun _ _ other found => ?_, nofun, nofun⟩
    obtain rfl := finds.unique found
    exact exact_.mp (both.1 success)
  · intro cleanly
    exact ⟨fun _ => exact_.mpr (cleanly.directory rfl made place finds),
      fun failed => absurd success failed⟩

/-- Opening a file that was there is exact under the conditions of its case. -/
theorem createsExactly_existing (enters : machine.Enters session.homeText session.workdirText view)
    {place : Location} {content : List UInt8} (made : Made events)
    (writes : (machine.within session view).Writes filename place)
    (file : (machine.within session view).tree.node place = some (.regular content))
    {response : HelperResponse} (told : response.status = 0 ↔ ¬ Unlocked events) :
    CreatesExactly machine session filename privileges false (some response)
        ((machine.within session view).scratched place privileges).disk ↔
      (machine.within session view).CreatesCleanly filename privileges false events := by
  have kept := Machine.scratched_kept privileges writes
  rw [createsExactly_some enters, show view.resolve filename = place from writes.1.resolve]
  constructor
  · rintro ⟨created, same⟩
    have unlocked : Unlocked events := by
      by_contra locked
      cases (created (told.mpr locked)).absent.symm.trans file
    have empty := kept.mp (same fun success => told.mp success unlocked)
    refine ⟨nofun, fun _ _ other content' found here => ?_, fun _ _ other found none => ?_⟩
    · obtain rfl := writes.1.unique found
      cases here.symm.trans empty.1
      exact ⟨rfl, unlocked, empty.2⟩
    · obtain rfl := writes.1.unique found
      cases none.symm.trans file
  · intro cleanly
    obtain ⟨rfl, unlocked, mode⟩ := cleanly.existing rfl made place content writes.1 file
    exact ⟨fun success => absurd unlocked (told.mp success), fun _ => kept.mpr ⟨file, mode⟩⟩

/-- Opening a file that is new is exact under the conditions of its case. -/
theorem createsExactly_absent (enters : machine.Enters session.homeText session.workdirText view)
    {place : Location} (made : Made events)
    (writes : (machine.within session view).Writes filename place)
    (absent : (machine.within session view).tree.node place = none)
    {response : HelperResponse} (told : response.status = 0 ↔ ¬ Unlocked events) :
    CreatesExactly machine session filename privileges false (some response)
        ((machine.within session view).scratched place privileges).disk ↔
      (machine.within session view).CreatesCleanly filename privileges false events := by
  have kept := Machine.scratched_kept privileges writes
  have exact_ := Machine.scratched_iff privileges writes absent
  rw [createsExactly_some enters, show view.resolve filename = place from writes.1.resolve]
  constructor
  · rintro ⟨created, same⟩
    have locked : ¬ Unlocked events := by
      intro unlocked
      cases (kept.mp (same fun success => told.mp success unlocked)).1.symm.trans absent
    refine ⟨nofun, fun _ _ other content found here => ?_, fun _ _ other found none => ?_⟩
    · obtain rfl := writes.1.unique found
      cases here.symm.trans absent
    · obtain rfl := writes.1.unique found
      exact ⟨locked, exact_.mp (created (told.mpr locked))⟩
  · intro cleanly
    obtain ⟨locked, bits⟩ := cleanly.absent rfl made place writes.1 absent
    exact ⟨fun _ => exact_.mpr bits, fun failed => absurd (told.mpr locked) failed⟩

/-- What a creation comes to is exact under the conditions of its case. -/
theorem createsExactly_of_ends (enters : machine.Enters session.homeText session.workdirText view)
    (ends : (machine.within session view).CreateEnds filename privileges makeDir events after)
    (response : HelperResponse) (arrived : AccountEnvironment.response events = some response) :
    CreatesExactly machine session filename privileges makeDir (some response) after ↔
      (machine.within session view).CreatesCleanly filename privileges makeDir events := by
  cases ends with
  | refused nothing =>
    have failed := nothing.failed response arrived
    refine iff_of_true ?_ (createsCleanly_of_unmade nothing.unmade)
    rw [createsExactly_some enters]
    exact ⟨fun success => absurd success failed, fun _ => rfl⟩
  | directory made finds absent succeeded =>
    exact createsExactly_directory enters made finds absent (succeeded response arrived)
  | file made writes tells =>
    have told := tells response arrived
    rcases writes.2 with ⟨⟨content, there⟩, -⟩ | ⟨absent, -, -⟩
    · exact createsExactly_existing enters made writes there told
    · exact createsExactly_absent enters made writes absent told

end

namespace Machine

variable {ω : Type} (kernel : HostSystem ω) (machine : Machine) (world : ω)

/-- A creation by a new process: it comes to something in the sandbox of the session, or to nothing. -/
theorem ends_handlerHelperCreateFile (session : ClientSession) (filename : List UInt8)
    (privileges : UInt32) (makeDir : Bool) {res : HelperResponse} (failed : res.status ≠ 0) :
    (handlerHelperCreateFile session filename privileges makeDir res).Ends (callsUnder kernel)
      (machine.fresh, world) fun events _ after =>
        (∃ view, machine.fresh.Enters session.homeText session.workdirText view ∧
          (machine.fresh.within session view).CreateEnds filename privileges makeDir events
            after.1.disk) ∨
        MakesNothing events ∧ after.1.disk = machine.fresh.disk := by
  have quiet : (sandboxUserToHisHome session).Only fun op =>
      (Silent op ∧ ∀ answer, HelperEvent.Idle ⟨op, answer⟩) ∧ op.keepsDisk = true :=
    only_sandboxUser session _ _ (fun _ => ⟨⟨rfl, fun _ => ⟨id, id⟩⟩, rfl⟩)
      (fun _ => ⟨⟨rfl, fun _ => ⟨id, id⟩⟩, rfl⟩) ⟨⟨rfl, fun _ => ⟨id, id⟩⟩, rfl⟩
      (fun _ _ => ⟨⟨rfl, fun _ => ⟨id, id⟩⟩, rfl⟩) (fun _ => ⟨⟨rfl, fun _ => ⟨id, id⟩⟩, rfl⟩)
      fun _ => ⟨⟨rfl, fun _ => ⟨id, id⟩⟩, rfl⟩
  have keeps := ends_disk kernel (machine.fresh, world) (quiet.weaken fun _ both => both.2)
  have idle := (quiet.weaken fun _ both => both.1).every.ends (callsUnder kernel) (machine.fresh, world)
  have enters := ends_sandboxUnder kernel (machine.fresh, world) rfl session
  refine .bind ((keeps.conj (idle.conj enters)).weaken fun before inside middle both => ?_)
  obtain ⟨same, idle, enters⟩ := both
  have silent : ∀ event ∈ before, Silent event.1 := fun event member => (idle event member).1
  have unmade : ∀ event ∈ before, HelperEvent.Idle event :=
    fun event member => (idle event member).2 event.2
  obtain ⟨middle, later⟩ := middle
  cases inside with
  | true =>
    obtain ⟨view, entered, rfl⟩ := enters rfl
    have created : (if makeDir = true then makeInside filename privileges res
        else createInside filename privileges res).Ends (callsUnder kernel)
          (machine.fresh.within session view, later) fun events _ after =>
            (machine.fresh.within session view).CreateEnds filename privileges makeDir events
              after.1.disk := by
      cases makeDir with
      | true => exact ends_makeInside kernel _ later filename privileges failed
      | false => exact ends_createInside kernel _ later filename privileges failed rfl
    exact created.weaken fun events _ after ends =>
      Or.inl ⟨view, entered, ends.behind [] before silent unmade⟩
  | false =>
    refine (ends_closing kernel (closing_response _ .exited) (.call rfl fun _ => trivial) _).weaken
      fun events _ after ends => Or.inr ⟨?_, ends.2.trans same⟩
    exact makesNothing_closing (show (res.say _).status ≠ 0 from failed) before silent
      (fun event member => (unmade event member).1) ends.1

end Machine

/-- The run of a creation by a new process of the helper, in a system that may refuse any call. -/
def createRun {ω : Type} (kernel : HostSystem ω) (world : ω) (machine : Machine)
    (session : ClientSession) (filename : List UInt8) (privileges : UInt32) (makeDir : Bool) :
    Script.Execution HelperOp HelperOp.Answer HelperOutcome (Machine × ω) :=
  (handlerHelperCreateFile session filename privileges makeDir
    (.blank HelperCommand.createFile.toWord)).runOn (Machine.callsUnder kernel) (machine.fresh, world)

/-- A creation is exact, whatever the disk, the mode, the mask and the calls that the system refuses,
exactly if its response does not arrive or the mask, the group and the file that may be there already
fit what it asks for. -/
theorem createsExactly_iff {ω : Type} (kernel : HostSystem ω) (world : ω) (machine : Machine)
    (session : ClientSession) (filename : List UInt8) (privileges : UInt32) (makeDir : Bool) :
    let run := createRun kernel world machine session filename privileges makeDir
    CreatesExactly machine.fresh session filename privileges makeDir
        (AccountEnvironment.response run.events) run.world.1.disk ↔
      (AccountEnvironment.response run.events ≠ none →
        ∀ view, machine.fresh.Enters session.homeText session.workdirText view →
          (machine.fresh.within session view).CreatesCleanly filename privileges makeDir
            run.events) := by
  intro run
  have failed : (HelperResponse.blank HelperCommand.createFile.toWord).status ≠ 0 := by decide
  have ends : _ ∨ _ :=
    machine.ends_handlerHelperCreateFile kernel world session filename privileges makeDir failed
  cases arrived : AccountEnvironment.response run.events with
  | none => exact iff_of_true nofun fun some => absurd rfl some
  | some response =>
    have answered : (some response ≠ none → ∀ view,
        machine.fresh.Enters session.homeText session.workdirText view →
          (machine.fresh.within session view).CreatesCleanly filename privileges makeDir
            run.events) ↔ _ := imp_iff_right (by simp)
    rw [answered]
    obtain ⟨view, enters, ends⟩ | ⟨nothing, same⟩ := ends
    · refine (createsExactly_of_ends enters ends response arrived).trans
          ⟨fun cleanly other enters' => ?_, fun all => all view enters⟩
      obtain rfl := enters.unique enters'
      exact cleanly
    · refine iff_of_true ?_ fun view _ => createsCleanly_of_unmade nothing.unmade
      rintro _ ⟨⟩
      exact ⟨fun success => absurd success (nothing.failed response arrived), fun _ => same⟩

/-- A creation over a file of the user answers with zero, although the file was there before. -/
theorem not_createsExactly_existing :
    ¬ CreatesExactly aliceMachine.fresh (aliceAt []) (str "notes") 0o644 false
      (AccountEnvironment.response
        (createRun obliging 0 aliceMachine (aliceAt []) (str "notes") 0o644 false).events)
      (createRun obliging 0 aliceMachine (aliceAt []) (str "notes") 0o644 false).world.1.disk := by
  intro exact_
  have answered : (AccountEnvironment.response
      (createRun obliging 0 aliceMachine (aliceAt []) (str "notes") 0o644 false).events).map
        (·.status) = some 0 := by decide +kernel
  obtain ⟨response, arrived, success⟩ := Option.map_eq_some_iff.mp answered
  obtain ⟨view, enters, created⟩ := (exact_ response arrived).1 success
  have home : aliceMachine.fresh.Enters (aliceAt []).homeText (aliceAt []).workdirText aliceHome :=
    ⟨by decide +kernel, by decide +kernel⟩
  obtain rfl := enters.unique home
  have absent := created.absent
  revert absent
  decide +kernel

end FileServer
