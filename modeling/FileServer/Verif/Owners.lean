import FileServer.Verif.Permissions

/-!
# What an owner may still do after changes of permissions

`HandleHelperChmod` and `HandleHelperDelete` open a file for reading and writing to lock it. An owner
who has taken these rights from himself cannot open it any more, and nobody opens a directory so;
what the commands do therefore depends on the modes of all the changes before.
-/
namespace FileServer

open FileServer.Lib

/-- A change of permissions that a session asks for. -/
structure ChmodCommand where
  /-- The session. -/
  session : ClientSession
  /-- The path. -/
  filename : List UInt8
  /-- The mode. -/
  privileges : UInt32

/-- The owner of a file with the mode may read and write it. -/
def OwnerMay (uid mode : UInt32) : Prop := uid = 0 ∨ mode &&& 0o400 ≠ 0 ∧ mode &&& 0o200 ≠ 0

instance (uid mode : UInt32) : Decidable (OwnerMay uid mode) := inferInstanceAs (Decidable (_ ∨ _))

/-- For the owner the bits of the owner decide. -/
theorem may_owner (user : Credentials) {entry : Attributes} (own : user.uid = entry.owner) :
    (user.may entry .read = true ∧ user.may entry .write = true) ↔ OwnerMay user.uid entry.mode := by
  unfold Credentials.may OwnerMay
  rw [if_pos own, if_pos own, Bool.or_eq_true, Bool.or_eq_true, decide_eq_true_iff,
    decide_eq_true_iff, decide_eq_true_iff, ← or_and_left]
  exact Iff.rfl

/-- `chmod` leaves the bits of the owner. -/
theorem ownerMay_chmodMode (user : Credentials) (entry : Attributes) (uid mode : UInt32) :
    OwnerMay uid (user.chmodMode entry mode) ↔ OwnerMay uid mode := by
  unfold OwnerMay Credentials.chmodMode
  split <;> rw [UInt32.and_assoc, UInt32.and_assoc] <;> exact Iff.rfl

/-- A bit outside of others is lost exactly if the value has it. -/
theorem and_eq_and_or_iff {value few bit : UInt32} (apart : few &&& bit = 0) :
    value &&& few = value &&& (few ||| bit) ↔ value &&& bit = 0 := by
  simp only [← UInt32.toBitVec_inj, UInt32.toBitVec_and, UInt32.toBitVec_or,
    UInt32.toBitVec_zero] at apart ⊢
  simp only [BitVec.eq_of_getLsbD_eq_iff, BitVec.getLsbD_and, BitVec.getLsbD_or,
    BitVec.getLsbD_zero] at apart ⊢
  refine forall_congr' fun index => imp_congr_right fun short => ?_
  have outside := apart index short
  revert outside
  cases value.toBitVec.getLsbD index <;> cases few.toBitVec.getLsbD index <;>
    cases bit.toBitVec.getLsbD index <;> decide

/-- `chmod` sets every mode, but `S_ISGID` only for root and for the members of the group. -/
theorem chmodMode_eq_iff (user : Credentials) (entry : Attributes) (mode : UInt32) :
    user.chmodMode entry mode = mode &&& 0o7777 ↔
      mode &&& 0o2000 = 0 ∨ user.uid = 0 ∨ user.inGroup entry.group = true := by
  unfold Credentials.chmodMode
  by_cases free : (decide (user.uid = 0) || user.inGroup entry.group) = true
  · rw [if_pos free]
    rw [Bool.or_eq_true, decide_eq_true_iff] at free
    exact iff_of_true rfl (Or.inr free)
  · rw [if_neg free]
    rw [Bool.or_eq_true, decide_eq_true_iff] at free
    rw [or_iff_left free]
    exact and_eq_and_or_iff (show (0o5777 : UInt32) &&& 0o2000 = 0 by decide)

namespace Machine

/-- Only permissions of files have changed. -/
structure SameEntries (before after : Machine) : Prop where
  /-- Everything but the attributes is the same. -/
  rest : ∃ attributes, after = { before with world := { before.world with attributes } }
  /-- Every entry has its owner and its group. -/
  owners : ∀ place, (after.world.attributes place).owner = (before.world.attributes place).owner ∧
    (after.world.attributes place).group = (before.world.attributes place).group
  /-- Directories have their permissions. -/
  directories : ∀ place, before.tree.node place = some .directory →
    after.world.attributes place = before.world.attributes place

namespace SameEntries

/-- Nothing has changed. -/
theorem refl (machine : Machine) : machine.SameEntries machine :=
  ⟨⟨machine.world.attributes, rfl⟩, fun _ => ⟨rfl, rfl⟩, fun _ _ => rfl⟩

/-- Changes one after the other. -/
theorem trans {before middle after : Machine} (first : before.SameEntries middle)
    (second : middle.SameEntries after) : before.SameEntries after := by
  obtain ⟨attributes, rfl⟩ := first.rest
  obtain ⟨attributes', rfl⟩ := second.rest
  refine ⟨⟨attributes', rfl⟩, fun place => ?_, fun place here => ?_⟩
  · exact ⟨(second.owners place).1.trans (first.owners place).1,
      (second.owners place).2.trans (first.owners place).2⟩
  · exact (second.directories place here).trans (first.directories place here)

variable {before after : Machine}

/-- The same sandboxes are entered. -/
theorem enters (same : before.SameEntries after) (root directory : List UInt8) (view : View) :
    after.Enters root directory view ↔ before.Enters root directory view := by
  obtain ⟨attributes, rfl⟩ := same.rest
  exact Iff.rfl

/-- A path leads to the same place. -/
theorem finds (same : before.SameEntries after) (session : ClientSession) (view : View)
    (path : List UInt8) (place : Location) :
    (after.within session view).Finds path place ↔ (before.within session view).Finds path place := by
  have searches : (after.within session view).searches = (before.within session view).searches := by
    funext other
    obtain ⟨attributes, rfl⟩ := same.rest
    unfold Machine.searches
    cases directory : before.tree.isDirectory other with
    | false =>
      show (before.tree.isDirectory other && _) = (before.tree.isDirectory other && _)
      rw [directory, Bool.false_and, Bool.false_and]
    | true =>
      have kept : attributes other = before.world.attributes other :=
        same.directories other (of_decide_eq_true directory)
      unfold may
      show (_ && Credentials.may _ (attributes other) .search) = _
      rw [kept]
      rfl
  unfold Finds reaches
  rw [searches]
  obtain ⟨attributes, rfl⟩ := same.rest
  exact Iff.rfl

end SameEntries

section

variable {machine : Machine} {session : ClientSession} {filename : List UInt8} {privileges : UInt32}

/-- A change of permissions happens if the owner of a file may read and write it. -/
theorem answers_handleHelperChmod {post : Option HelperResponse → Machine → Prop}
    {res : HelperResponse} (top : machine.world.user.uid = 0) (idle : machine.files = [])
    (changes : ∀ view place content, machine.Enters session.homeText session.workdirText view →
      (machine.within session view).Lockable filename place content →
      (machine.within session view).owns place = true →
        post (some (res.succeed (str "Permissions updated successfully")))
          ((machine.within session view).chmodded place privileges).fresh)
    (refuses : (∀ view place content, machine.Enters session.homeText session.workdirText view →
      (machine.within session view).Lockable filename place content →
        (machine.within session view).owns place = false) →
      ∀ text, post (some (res.say text)) machine.fresh) :
    machine.Answers post (handleHelperChmod session filename privileges res) := by
  refine answers_inSandbox top (fun outside => ?_) fun view enters => ?_
  · exact refuses (fun view _ _ enters => absurd enters (outside view)) _
  · have only : ∀ {other}, machine.Enters session.homeText session.workdirText other →
        other = view := fun enters' => enters'.unique enters
    let inside := machine.within session view
    refine .after (silent_lockFile filename .exclusive) ?_
    refine (inside.ends_lockExclusive filename (inside.unused_none idle).2).weaken
      fun _ locked after ends => ?_
    obtain ⟨⟨files, rfl⟩, found⟩ := ends
    cases locked with
    | error failure =>
      refine answers_regainAndRespond (refuses (fun other place content enters' locks => ?_) _)
      obtain rfl := only enters'
      exact absurd locks (found place content)
    | ok lockFd =>
      obtain ⟨place, content, locks⟩ := found
      let opened : Machine := { inside with files }
      have finds : opened.Finds filename place := locks.1
      obtain ⟨owned, called⟩ | ⟨foreign, failure, called⟩ :=
        opened.calls_chmod finds (by rw [show opened.tree.node place = _ from locks.2.1]; simp)
          privileges
      · exact .call rfl called (answers_unlock fun _ => answers_regainAndRespond
          (changes view place content enters locks owned))
      · refine .call rfl called (answers_unlock fun _ => answers_regainAndRespond
          (refuses (fun other place' content' enters' locks' => ?_) _))
        obtain rfl := only enters'
        obtain rfl := locks.1.unique locks'.1
        exact foreign

end

/-- The run of a change by a new process of the helper. -/
def chmodRun (machine : Machine) (command : ChmodCommand) :
    Script.Execution HelperOp HelperOp.Answer HelperOutcome Machine :=
  (handleHelperChmod command.session command.filename command.privileges
    (.blank HelperCommand.chmod.toWord)).runOn calls machine.fresh

/-- What changes one after the other leave. -/
def chmodAll (machine : Machine) : List ChmodCommand → Machine
  | [] => machine
  | command :: later => (machine.chmodRun command).world.chmodAll later

/-- The command names an entry in its sandbox. -/
def Names (machine : Machine) (command : ChmodCommand) (place : Location) : Prop :=
  ∃ view, machine.Enters command.session.homeText command.session.workdirText view ∧
    (machine.within command.session view).Finds command.filename place

/-- What a command names does not depend on permissions of files. -/
theorem SameEntries.names {before after : Machine} (same : before.SameEntries after)
    (command : ChmodCommand) (place : Location) :
    after.Names command place ↔ before.Names command place :=
  exists_congr fun view => and_congr (same.enters _ _ view) (same.finds _ view _ place)

/-- A change of the permissions of a file changes nothing else. -/
theorem sameEntries_chmodded (machine : Machine) (session : ClientSession) (view : View)
    {place : Location} {content : List UInt8}
    (file : machine.tree.node place = some (.regular content)) (privileges : UInt32) :
    machine.fresh.SameEntries ((machine.within session view).chmodded place privileges).fresh := by
  let changed := (machine.within session view).chmodded place privileges
  refine ⟨⟨changed.world.attributes, rfl⟩, fun other => ?_, fun other here => ?_⟩
  · show (changed.world.attributes other).owner = _ ∧ (changed.world.attributes other).group = _
    by_cases same : other = place
    · subst same
      rw [chmodded_self]
      exact ⟨rfl, rfl⟩
    · rw [chmodded_of_ne _ same]
      exact ⟨rfl, rfl⟩
  · refine chmodded_of_ne _ ?_ privileges
    rintro rfl
    exact nomatch here.symm.trans file

/-- One change keeps all entries. -/
theorem sameEntries_chmodRun (machine : Machine) (command : ChmodCommand) :
    machine.fresh.SameEntries (machine.chmodRun command).world.fresh := by
  suffices answers : machine.fresh.Answers (fun _ after => machine.fresh.SameEntries after)
      (handleHelperChmod command.session command.filename command.privileges
        (.blank HelperCommand.chmod.toWord)) from answers
  refine answers_handleHelperChmod rfl rfl (fun view place content enters locks _ => ?_)
    fun _ _ => .refl _
  exact sameEntries_chmodded machine _ view locks.2.1 _

/-- One change leaves a file to its owner if it was his and, where it names the file, gives it to
him. -/
theorem ownerMay_chmodRun (machine : Machine) (command : ChmodCommand) {place : Location}
    {content : List UInt8} (file : machine.tree.node place = some (.regular content))
    (own : command.session.uid = (machine.world.attributes place).owner) :
    OwnerMay command.session.uid ((machine.chmodRun command).world.world.attributes place).mode ↔
      OwnerMay command.session.uid (machine.world.attributes place).mode ∧
        (machine.fresh.Names command place → OwnerMay command.session.uid command.privileges) := by
  suffices answers : machine.fresh.Answers (fun _ after =>
      OwnerMay command.session.uid (after.world.attributes place).mode ↔
        OwnerMay command.session.uid (machine.world.attributes place).mode ∧
          (machine.fresh.Names command place → OwnerMay command.session.uid command.privileges))
      (handleHelperChmod command.session command.filename command.privileges
        (.blank HelperCommand.chmod.toWord)) from answers
  refine answers_handleHelperChmod rfl rfl (fun view target content' enters locks _ => ?_)
    fun refused _ => ?_
  · let inside := machine.fresh.within command.session view
    have named : machine.fresh.Names command place ↔ target = place := by
      constructor
      · rintro ⟨other, enters', finds⟩
        obtain rfl := enters.unique enters'
        exact finds.unique locks.1
      · rintro rfl
        exact ⟨view, enters, locks.1⟩
    rw [named]
    show OwnerMay _ ((inside.chmodded target command.privileges).world.attributes place).mode ↔ _
    by_cases same : target = place
    · subst same
      have before : OwnerMay command.session.uid (machine.world.attributes target).mode :=
        (may_owner inside.world.user own).mp locks.2.2
      rw [chmodded_self, ownerMay_chmodMode]
      exact ⟨fun after => ⟨before, fun _ => after⟩, fun both => both.2 rfl⟩
    · rw [chmodded_of_ne _ (Ne.symm same)]
      exact ⟨fun after => ⟨after, fun named => absurd named same⟩, And.left⟩
  · refine ⟨fun may => ⟨may, ?_⟩, And.left⟩
    rintro ⟨view, enters, finds⟩
    have access := (may_owner (machine.fresh.within command.session view).world.user own).mpr may
    have owned := refused view place content enters ⟨finds, file, access⟩
    have owns : (machine.fresh.within command.session view).owns place = true := by
      show (_ || decide (command.session.uid = (machine.world.attributes place).owner)) = true
      rw [decide_eq_true own, Bool.or_true]
    exact absurd (owns.symm.trans owned) nofun

/-- Changes one after the other keep all entries. -/
theorem sameEntries_chmodAll (machine : Machine) (commands : List ChmodCommand) :
    machine.fresh.SameEntries (machine.chmodAll commands).fresh := by
  induction commands generalizing machine with
  | nil => exact .refl _
  | cons command later ih => exact (machine.sameEntries_chmodRun command).trans (ih _)

/-- The owner of a file may read and write it after changes of his own exactly if he could before
and each of them that names the file lets him. -/
theorem ownerMay_chmodAll (machine : Machine) (commands : List ChmodCommand) {uid : UInt32}
    (his : ∀ command ∈ commands, command.session.uid = uid) {place : Location}
    {content : List UInt8} (file : machine.tree.node place = some (.regular content))
    (own : uid = (machine.world.attributes place).owner) :
    OwnerMay uid ((machine.chmodAll commands).world.attributes place).mode ↔
      OwnerMay uid (machine.world.attributes place).mode ∧
        ∀ command ∈ commands, machine.fresh.Names command place →
          OwnerMay uid command.privileges := by
  induction commands generalizing machine with
  | nil => simp [chmodAll]
  | cons command later ih =>
    have same := machine.sameEntries_chmodRun command
    obtain ⟨rfl, rest⟩ := List.forall_mem_cons.mp his
    have tree : (machine.chmodRun command).world.fresh.tree = machine.fresh.tree := by
      obtain ⟨attributes, after⟩ := same.rest
      rw [after]
    have step := machine.ownerMay_chmodRun command file own
    have kept := (congrFun (congrArg FileTree.node tree) place).trans file
    have run := ih (machine.chmodRun command).world rest kept
      (own.trans (same.owners place).1.symm)
    rw [step, and_assoc] at run
    refine run.trans (and_congr_right fun _ => ?_)
    rw [List.forall_mem_cons]
    refine and_congr_right fun _ => forall₂_congr fun other member => ?_
    rw [same.names other place]

/-- A change of permissions succeeds, gives the entry exactly the mode, and changes nothing else. -/
def ChmodWorks (machine : Machine) (command : ChmodCommand) (place : Location) : Prop :=
  (AccountEnvironment.response (machine.chmodRun command).events).map (·.status) = some 0 ∧
    (machine.chmodRun command).world.disk = { machine.disk with
      attributes := Function.update machine.disk.attributes place
        { machine.disk.attributes place with mode := command.privileges &&& 0o7777 } }

/-- The run of a removal by a new process of the helper. -/
def deleteRun (machine : Machine) (session : ClientSession) (path : List UInt8) :
    Script.Execution HelperOp HelperOp.Answer HelperOutcome Machine :=
  (handleHelperDelete session path (.blank HelperCommand.delete.toWord)).runOn calls machine.fresh

/-- A removal succeeds, removes the entry, and changes nothing else. -/
def DeleteWorks (machine : Machine) (session : ClientSession) (path : List UInt8)
    (place : Location) : Prop :=
  (AccountEnvironment.response (machine.deleteRun session path).events).map (·.status) = some 0 ∧
    (machine.deleteRun session path).world.disk = { machine.disk with
      node := Function.update machine.disk.node place none }

section

variable {machine : Machine} {view : View} {place : Location}

/-- A change works exactly on a file that its owner may read and write, with a mode that may be
set. -/
theorem chmodWorks_iff (command : ChmodCommand)
    (enters : machine.fresh.Enters command.session.homeText command.session.workdirText view)
    (finds : (machine.fresh.within command.session view).Finds command.filename place)
    (own : command.session.uid = (machine.world.attributes place).owner) :
    machine.ChmodWorks command place ↔
      (∃ content, machine.tree.node place = some (.regular content)) ∧
        OwnerMay command.session.uid (machine.world.attributes place).mode ∧
        (machine.fresh.within command.session view).world.user.chmodMode
          (machine.world.attributes place) command.privileges = command.privileges &&& 0o7777 := by
  let inside := machine.fresh.within command.session view
  have only : ∀ {other target}, machine.fresh.Enters command.session.homeText
      command.session.workdirText other → (machine.fresh.within command.session other).Finds
        command.filename target → other = view ∧ target = place := by
    intro other target enters' finds'
    obtain rfl := enters'.unique enters
    exact ⟨rfl, finds.unique finds'⟩
  suffices answers : machine.fresh.Answers (fun answer after =>
      (answer.map (·.status) = some 0 ∧ after.disk = { machine.disk with
        attributes := Function.update machine.disk.attributes place
          { machine.disk.attributes place with mode := command.privileges &&& 0o7777 } }) ↔
        (∃ content, machine.tree.node place = some (.regular content)) ∧
          OwnerMay command.session.uid (machine.world.attributes place).mode ∧
          inside.world.user.chmodMode (machine.world.attributes place) command.privileges =
            command.privileges &&& 0o7777)
      (handleHelperChmod command.session command.filename command.privileges
        (.blank HelperCommand.chmod.toWord)) from answers
  refine answers_handleHelperChmod rfl rfl (fun other target content enters' locks _ => ?_)
    fun refused text => ?_
  · obtain ⟨rfl, rfl⟩ := only enters' locks.1
    have before : OwnerMay command.session.uid (machine.world.attributes target).mode :=
      (may_owner inside.world.user own).mp locks.2.2
    constructor
    · rintro ⟨-, left⟩
      refine ⟨⟨content, locks.2.1⟩, before, ?_⟩
      have entry := congrFun (congrArg Disk.attributes left) target
      have changed := (chmodded_self inside target command.privileges).symm.trans
        (entry.trans (Function.update_self _ _ _))
      exact congrArg Attributes.mode changed
    · rintro ⟨-, -, mode⟩
      refine ⟨rfl, ?_⟩
      show Disk.mk _ _ = Disk.mk _ _
      rw [← mode]
      rfl
  · refine iff_of_false (fun works => nomatch works.1) ?_
    rintro ⟨⟨content, file⟩, may, -⟩
    have access := (may_owner inside.world.user own).mpr may
    have owned := refused view place content enters ⟨finds, file, access⟩
    have owns : inside.owns place = true := by
      show (_ || decide (command.session.uid = (machine.world.attributes place).owner)) = true
      rw [decide_eq_true own, Bool.or_true]
    exact absurd (owns.symm.trans owned) nofun

/-- A removal works exactly on a directory, or on a file that its owner may read and write. -/
theorem deleteWorks_iff (session : ClientSession) (path : List UInt8)
    (enters : machine.fresh.Enters session.homeText session.workdirText view)
    (finds : (machine.fresh.within session view).Finds path place)
    (own : session.uid = (machine.world.attributes place).owner)
    (adds : (machine.fresh.within session view).mayAdd place = true)
    (removable : (∃ content, machine.tree.node place = some (.regular content)) ∨
      machine.tree.node place = some .directory ∧ machine.tree.isBare place = true ∧
        FileTree.namesEntry path = true) :
    machine.DeleteWorks session path place ↔
      machine.tree.node place = some .directory ∨
        OwnerMay session.uid (machine.world.attributes place).mode := by
  let inside := machine.fresh.within session view
  let res : HelperResponse := .blank HelperCommand.delete.toWord
  have below : place ≠ [] := by
    rintro rfl
    rcases removable with ⟨content, file⟩ | ⟨-, -, named⟩
    · cases file
    · obtain ⟨before, name, -, leads⟩ := FileTree.resolve_of_namesEntry named
      exact absurd (finds.resolve.symm.trans leads).symm (by simp)
  have removes : inside.mayRemove place = true := by
    unfold mayRemove
    rw [adds, Bool.true_and, Bool.or_eq_true, Bool.or_eq_true]
    exact Or.inl (Or.inr (decide_eq_true own))
  have removed : ∀ files, Machine.disk { inside with tree := inside.tree.erase place, files } =
      { machine.disk with node := Function.update machine.disk.node place none } := fun _ =>
    congrArg (Disk.mk · _) (inside.tree.node_erase below)
  suffices answers : machine.fresh.Answers (fun answer after =>
      (answer.map (·.status) = some 0 ∧ after.disk = { machine.disk with
        node := Function.update machine.disk.node place none }) ↔
        machine.tree.node place = some .directory ∨
          OwnerMay session.uid (machine.world.attributes place).mode)
      (handleHelperDelete session path res) from answers
  refine answers_inSandbox rfl (fun outside => absurd enters (outside view)) fun other enters' => ?_
  obtain rfl := enters.unique enters'
  obtain ⟨target, node, st, finds', lies, reported, type⟩ | ⟨missing, -⟩ := inside.calls_stat path
  · obtain rfl := finds'.unique finds
    refine .call rfl reported ?_
    show Answers inside _ (if st.type = .directory then _ else _)
    rcases removable with ⟨content, file⟩ | ⟨directory, bare, named⟩
    · have regular : node = .regular content := Option.some.inj (lies.symm.trans file)
      have plain : machine.tree.node place ≠ some .directory := by simp [file]
      rw [if_neg (fun same => nomatch regular.symm.trans (type.mp same)), or_iff_right plain]
      refine .after (silent_lockFile path .exclusive) ?_
      refine (inside.ends_lockExclusive path (inside.unused_none rfl).2).weaken
        fun _ locked after ends => ?_
      obtain ⟨⟨files, rfl⟩, found⟩ := ends
      cases locked with
      | error failure =>
        refine answers_regainAndRespond (iff_of_false (fun works => nomatch works.1) fun may => ?_)
        exact found place content ⟨finds, file, (may_owner inside.world.user own).mpr may⟩
      | ok lockFd =>
        obtain ⟨locked, content', locks⟩ := found
        obtain rfl := finds.unique locks.1
        let opened : Machine := { inside with files }
        have may := (may_owner inside.world.user own).mp locks.2.2
        have called : opened.calls (.unlink path) = (.ok (), _) :=
          opened.calls_unlink finds file removes
        refine .call rfl called (answers_unlock fun files => answers_regainAndRespond ?_)
        exact iff_of_true ⟨rfl, removed files⟩ may
    · rw [if_pos (type.mpr (Option.some.inj (lies.symm.trans directory)))]
      refine .call rfl (inside.calls_rmdir finds directory named bare removes)
        (answers_regainAndRespond ?_)
      exact iff_of_true ⟨rfl, removed inside.files⟩ (Or.inl directory)
  · have absent := missing place finds
    rcases removable with ⟨content, file⟩ | ⟨directory, -, -⟩
    · exact nomatch absent.symm.trans file
    · exact nomatch absent.symm.trans directory

end

/-- A file or a directory of the user of a session, which a path names there, in a directory that
the user may search and write. -/
structure OwnEntry (machine : Machine) (session : ClientSession) (view : View) (path : List UInt8)
    (place : Location) : Prop where
  /-- The sandbox of the session. -/
  enters : machine.fresh.Enters session.homeText session.workdirText view
  /-- The user may look the path up. -/
  finds : (machine.fresh.within session view).Finds path place
  /-- The entry is that of the user. -/
  own : session.uid = (machine.world.attributes place).owner
  /-- It lies in a directory. -/
  inside : machine.tree.node place.dropLast = some .directory
  /-- The user may write there. -/
  adds : (machine.fresh.within session view).mayAdd place = true

/-- Changes of permissions of files leave it so. -/
theorem OwnEntry.kept {machine after : Machine} {session : ClientSession} {view : View}
    {path : List UInt8} {place : Location} (entry : machine.OwnEntry session view path place)
    (same : machine.fresh.SameEntries after.fresh) : after.OwnEntry session view path place := by
  have parent := same.directories place.dropLast entry.inside
  refine ⟨(same.enters _ _ view).mpr entry.enters, (same.finds session view path place).mpr entry.finds,
    entry.own.trans (same.owners place).1.symm, ?_, ?_⟩
  · obtain ⟨attributes, rest⟩ := same.rest
    have tree : after.fresh.tree = machine.fresh.tree := by rw [rest]
    exact (congrFun (congrArg FileTree.node tree) _).trans entry.inside
  · have adds := entry.adds
    unfold mayAdd may at adds ⊢
    have user : (after.fresh.within session view).world.user =
        (machine.fresh.within session view).world.user := by
      obtain ⟨attributes, rest⟩ := same.rest
      rw [rest]
      rfl
    rw [user]
    show Credentials.may _ (after.fresh.world.attributes place.dropLast) _ = true
    rw [parent]
    exact adds

end Machine

/-- After any changes of permissions by its owner, a change of the permissions of an entry works
exactly if it is a file that he could read and write at first, each change that named it let him do
so, and a bit `S_ISGID` may be set; a removal of an entry that may be removed works exactly if it is
a directory or such a file. -/
theorem keepsAccess_iff (machine : Machine) (commands : List ChmodCommand) {session : ClientSession}
    {view : View} {path : List UInt8} {place : Location}
    (his : ∀ command ∈ commands, command.session.uid = session.uid)
    (entry : machine.OwnEntry session view path place) :
    let user := (machine.fresh.within session view).world.user
    let kept := OwnerMay session.uid (machine.world.attributes place).mode ∧
      ∀ command ∈ commands, machine.fresh.Names command place →
        OwnerMay session.uid command.privileges
    (∀ mode, (machine.chmodAll commands).ChmodWorks ⟨session, path, mode⟩ place ↔
        (∃ content, machine.tree.node place = some (.regular content)) ∧ kept ∧
          (mode &&& 0o2000 = 0 ∨ session.uid = 0 ∨
            user.inGroup (machine.world.attributes place).group = true)) ∧
      ((∃ content, machine.tree.node place = some (.regular content)) ∨
        machine.tree.node place = some .directory ∧ machine.tree.isBare place = true ∧
          FileTree.namesEntry path = true →
        ((machine.chmodAll commands).DeleteWorks session path place ↔
          machine.tree.node place = some .directory ∨ kept)) := by
  intro user kept
  have same := machine.sameEntries_chmodAll commands
  have after := entry.kept same
  obtain ⟨attributes, rest⟩ := same.rest
  have tree : (machine.chmodAll commands).fresh.tree = machine.fresh.tree := by rw [rest]
  have node : (machine.chmodAll commands).tree.node place = machine.tree.node place :=
    congrFun (congrArg FileTree.node tree) place
  have bare : (machine.chmodAll commands).tree.isBare place = machine.tree.isBare place :=
    congrArg (FileTree.isBare · place) tree
  have same_user : ((machine.chmodAll commands).fresh.within session view).world.user = user := by
    rw [rest]
    rfl
  have group := (same.owners place).2
  have may : ∀ {content}, machine.tree.node place = some (.regular content) →
      (OwnerMay session.uid ((machine.chmodAll commands).world.attributes place).mode ↔ kept) :=
    fun file => machine.ownerMay_chmodAll commands his file entry.own
  constructor
  · intro mode
    rw [Machine.chmodWorks_iff ⟨session, path, mode⟩ after.enters after.finds after.own, node,
      same_user, chmodMode_eq_iff]
    refine and_congr_right fun file => ?_
    obtain ⟨content, file⟩ := file
    refine and_congr (may file) ?_
    rw [show ((machine.chmodAll commands).world.attributes place).group = _ from group]
    exact Iff.rfl
  · intro removable
    have there := removable
    rw [← node, ← bare] at there
    rw [Machine.deleteWorks_iff session path after.enters after.finds after.own after.adds there, node]
    rcases removable with ⟨content, file⟩ | ⟨directory, -⟩
    · exact or_congr_right (may file)
    · exact iff_of_true (Or.inl directory) (Or.inl directory)

/-- The entry of a user in her home. -/
theorem ownEntry_notes : aliceMachine.OwnEntry (aliceAt []) aliceHome (str "notes")
    [str "srv", str "alice", str "notes"] where
  enters := ⟨by decide +kernel, by decide +kernel⟩
  finds := ⟨by decide +kernel, by decide +kernel⟩
  own := by decide +kernel
  inside := by decide +kernel
  adds := by decide +kernel

/-- A user may still change the permissions of a file that she has kept from the others. -/
theorem keepsAccess_iff_notes :
    (aliceMachine.chmodAll [⟨aliceAt [], str "notes", 0o600⟩]).ChmodWorks
      ⟨aliceAt [], str "notes", 0o644⟩ [str "srv", str "alice", str "notes"] := by
  have works := (keepsAccess_iff aliceMachine [⟨aliceAt [], str "notes", 0o600⟩]
    (fun command member => by rw [List.mem_singleton.mp member]) ownEntry_notes).1 0o644
  refine works.mpr ⟨⟨str "draft", by decide +kernel⟩, ⟨by decide +kernel, ?_⟩, Or.inl (by decide)⟩
  intro command member _
  rw [List.mem_singleton.mp member]
  decide +kernel

/-- A user who takes the right to write a file from herself cannot give it back. -/
theorem not_chmodWorks_readOnly :
    ¬ (aliceMachine.chmodAll [⟨aliceAt [], str "notes", 0o444⟩]).ChmodWorks
      ⟨aliceAt [], str "notes", 0o644⟩ [str "srv", str "alice", str "notes"] := by
  intro works
  have answered := works.1
  revert answered
  decide +kernel

end FileServer
