import FileServer.Verif.HelperFraming

/-!
# What the commands of the helper leave behind

The identity, the descriptors and the locks of the helper, followed along the calls of a command.
The helper starts with the effective group that the server shares, not with that of root. Most
commands return with the identity of root and with nothing open, whatever call fails; those that do
not change the identity keep what there was. A file that is created or opened to be written and
cannot be locked is closed twice, and two of the ways out of the background transfers forget to
return to root.
-/
namespace FileServer

open FileServer.Lib

/-- What a process of the helper holds. -/
structure Holdings where
  /-- Effective user. -/
  euid : UInt32
  /-- Effective group. -/
  egid : UInt32
  /-- Descriptors open. -/
  files : List Descriptor
  /-- Descriptors whose files are locked. -/
  locked : List Descriptor
  /-- Directory streams open. -/
  streams : Nat
  /-- Something has been closed that was not open. -/
  misclosed : Bool
deriving DecidableEq

namespace Holdings

/-- An identity, and nothing else. -/
def identity (euid egid : UInt32) : Holdings := ⟨euid, egid, [], [], 0, false⟩

/-- What a command should leave. -/
def root : Holdings := identity 0 0

/-- The same after `close`, which also takes the lock away. -/
def close (held : Holdings) (fd : Descriptor) : Holdings where
  euid := held.euid
  egid := held.egid
  files := held.files.erase fd
  locked := held.locked.filter (· ≠ fd)
  streams := held.streams
  misclosed := held.misclosed || decide (fd ∉ held.files)

/-- The same after a call. -/
def after (held : Holdings) : HelperEvent → Holdings
  | ⟨.seteuid uid, changed⟩ => if changed then { held with euid := uid } else held
  | ⟨.setegid gid, changed⟩ => if changed then { held with egid := gid } else held
  | ⟨.openFile .., opened⟩ | ⟨.openat .., opened⟩ =>
    match opened with
    | .ok fd => { held with files := fd :: held.files }
    | .error _ => held
  | ⟨.close fd, _⟩ => held.close fd
  | ⟨.setLock fd _, locked⟩ =>
    match locked with
    | .ok _ => { held with locked := fd :: held.locked }
    | .error _ => held
  | ⟨.clearLock fd, _⟩ => { held with locked := held.locked.filter (· ≠ fd) }
  | ⟨.opendir _, opened⟩ =>
    match opened with
    | .ok _ => { held with streams := held.streams + 1 }
    | .error _ => held
  | ⟨.closedir, _⟩ =>
    if held.streams = 0 then { held with misclosed := true }
    else { held with streams := held.streams - 1 }
  | _ => held

/-- The same after some calls. -/
abbrev afterAll (held : Holdings) (events : List HelperEvent) : Holdings := events.foldl after held

end Holdings

/-- The process has ended, or it goes on as root with nothing open or locked, and everything that it
has opened has been closed once. -/
def EndsClean (held : Holdings) (outcome : HelperOutcome) : Prop :=
  outcome = .exited ∨ outcome = .returned ∧ held = .root

/-- The call neither opens, closes, locks nor changes the identity. -/
def HelperOp.idle : HelperOp → Bool
  | seteuid _ | setegid _ | openFile .. | openat .. | close _ => false
  | setLock .. | clearLock _ | opendir _ | closedir => false
  | _ => true

/-- An idle call leaves everything as it was. -/
theorem after_idle (held : Holdings) {op : HelperOp} (idle : op.idle = true) (answer : op.Answer) :
    held.after ⟨op, answer⟩ = held := by
  cases op <;> first | rfl | exact absurd idle Bool.false_ne_true

/-- So do idle calls one after the other. -/
theorem afterAll_idle (held : Holdings) {events : List HelperEvent}
    (idle : ∀ event ∈ events, event.1.idle = true) : held.afterAll events = held := by
  induction events with
  | nil => rfl
  | cons event later ih =>
    have here := after_idle held (idle event List.mem_cons_self) event.2
    show (held.after event).afterAll later = held
    rw [here]
    exact ih fun other member => idle other (List.mem_cons_of_mem _ member)

/-- A script that starts with some things held, and what it leaves. -/
abbrev Leaves {α : Type} (held : Holdings) (post : α → Holdings → Prop)
    (script : HelperScript α) : Prop :=
  script.Every fun events value => post value (held.afterAll events)

/-- A sequence leaves what its last part leaves after the first. -/
theorem leaves_bind {α β : Type} {held : Holdings} {post : β → Holdings → Prop}
    {first : HelperScript α} {rest : α → HelperScript β}
    (leaves : Leaves held (fun value middle => Leaves middle post (rest value)) first) :
    Leaves held post (first >>= rest) := by
  refine (Script.every_bind first rest).mpr (leaves.weaken fun before value goes => ?_)
  refine goes.weaken fun after final holds => ?_
  rwa [Holdings.afterAll, List.foldl_append]

/-- Idle calls in front leave everything as it was. -/
theorem leaves_after_idle {α β : Type} {held : Holdings} {post : β → Holdings → Prop}
    {first : HelperScript α} {rest : α → HelperScript β} (idle : first.Only (·.idle = true))
    (leaves : ∀ value, Leaves held post (rest value)) : Leaves held post (first >>= rest) := by
  refine leaves_bind (idle.every.weaken fun before value quiet => ?_)
  rw [afterAll_idle held quiet]
  exact leaves value

/-- No call has changed the identity to another than that of root, and the user and the group were
root before or have been changed to it. -/
@[mk_iff]
structure StaysRoot (euid egid : UInt32) (events : List HelperEvent) : Prop where
  /-- The users changed to. -/
  users : ∀ uid, ⟨.seteuid uid, true⟩ ∈ events → uid = 0
  /-- The groups changed to. -/
  groups : ∀ gid, ⟨.setegid gid, true⟩ ∈ events → gid = 0
  /-- The user. -/
  user : euid = 0 ∨ ⟨.seteuid 0, true⟩ ∈ events
  /-- The group. -/
  group : egid = 0 ∨ ⟨.setegid 0, true⟩ ∈ events

/-- A call that changes the identity. -/
def HelperOp.changesIdentity : HelperOp → Bool
  | seteuid _ | setegid _ => true
  | _ => false

/-- Where no call changes the identity, it decides alone. -/
theorem staysRoot_kept {euid egid : UInt32} {events : List HelperEvent}
    (kept : ∀ event ∈ events, event.1.changesIdentity = false) :
    StaysRoot euid egid events ↔ euid = 0 ∧ egid = 0 := by
  have user : ∀ uid, ⟨.seteuid uid, true⟩ ∉ events :=
    fun uid member => Bool.noConfusion (kept _ member)
  have group : ∀ gid, ⟨.setegid gid, true⟩ ∉ events :=
    fun gid member => Bool.noConfusion (kept _ member)
  constructor
  · intro stays
    exact ⟨stays.user.resolve_right (user 0), stays.group.resolve_right (group 0)⟩
  · rintro ⟨zero, zero'⟩
    exact ⟨fun uid member => absurd member (user uid), fun gid member => absurd member (group gid),
      Or.inl zero, Or.inl zero'⟩

/-- Later calls that leave the identity alone do not matter. -/
theorem staysRoot_append {euid egid : UInt32} (before : List HelperEvent) {after : List HelperEvent}
    (kept : ∀ event ∈ after, event.1.changesIdentity = false) :
    StaysRoot euid egid (before ++ after) ↔ StaysRoot euid egid before := by
  have user : ∀ uid, ⟨.seteuid uid, true⟩ ∈ before ++ after ↔ ⟨.seteuid uid, true⟩ ∈ before :=
    fun uid => List.mem_append.trans (or_iff_left fun member => Bool.noConfusion (kept _ member))
  have group : ∀ gid, ⟨.setegid gid, true⟩ ∈ before ++ after ↔ ⟨.setegid gid, true⟩ ∈ before :=
    fun gid => List.mem_append.trans (or_iff_left fun member => Bool.noConfusion (kept _ member))
  constructor
  · rintro ⟨users, groups, zero, zero'⟩
    simp only [user, group] at users groups zero zero'
    exact ⟨users, groups, zero, zero'⟩
  · rintro ⟨users, groups, zero, zero'⟩
    refine ⟨?_, ?_, ?_, ?_⟩
    all_goals simpa only [user, group]

/-- The sandbox changes nothing but the identity, and to that of the user if it succeeds. -/
theorem leaves_sandboxUser (euid egid : UInt32) (session : ClientSession)
    (root directory : List UInt8) :
    (sandboxUser session root directory).Every fun events inside => ∃ euid' egid',
      (Holdings.identity euid egid).afterAll events = .identity euid' egid' ∧
        (StaysRoot euid egid events ↔ euid' = 0 ∧ egid' = 0) ∧
        (inside = true → euid' = session.uid ∧ egid' = session.gid) := by
  intro rooted
  cases rooted with
  | false => exact ⟨euid, egid, rfl, staysRoot_kept (by simp [HelperOp.changesIdentity]), nofun⟩
  | true =>
    intro moved
    cases moved with
    | error failure =>
      exact ⟨euid, egid, rfl, staysRoot_kept (by simp [HelperOp.changesIdentity]), nofun⟩
    | ok _ =>
      intro uid
      show Script.Every _ (if uid ≠ 0 then pure false else _)
      split
      · exact ⟨euid, egid, rfl, staysRoot_kept (by simp [HelperOp.changesIdentity]), nofun⟩
      · intro grouped
        cases grouped with
        | false => exact ⟨euid, egid, rfl, staysRoot_kept (by simp [HelperOp.changesIdentity]), nofun⟩
        | true =>
          intro changed
          cases changed with
          | false => exact ⟨euid, egid, rfl, by simp [staysRoot_iff], nofun⟩
          | true =>
            intro dropped
            cases dropped with
            | false => exact ⟨euid, session.gid, rfl, by simp [staysRoot_iff]; grind, nofun⟩
            | true =>
              exact ⟨session.uid, session.gid, rfl, by simp [staysRoot_iff]; grind,
                fun _ => ⟨rfl, rfl⟩⟩

/-- The way back to root, if it succeeds, changes the identity and nothing else. -/
theorem leaves_regainRoot (held : Holdings) :
    Leaves held (fun regained left => regained = true → left = { held with euid := 0, egid := 0 })
      regainRoot := by
  intro changed
  cases changed with
  | false => exact nofun
  | true =>
    intro regained
    cases regained with
    | false => exact nofun
    | true => exact fun _ => rfl

/-- A command that ends clean, whatever call fails. -/
abbrev Tidy (held : Holdings) (script : HelperScript HelperOutcome) : Prop :=
  Leaves held (fun outcome left => EndsClean left outcome) script

/-- A response at the end of a command. -/
theorem tidy_response (res : HelperResponse) :
    Tidy .root (system (.writeResponse res) >>= fun _ => pure HelperOutcome.returned) :=
  fun _ => Or.inr ⟨rfl, rfl⟩

/-- The end of a command after which nothing is open. -/
theorem tidy_regain (euid egid : UInt32) {rest : HelperScript HelperOutcome}
    (tidy : Tidy .root rest) :
    Tidy (.identity euid egid) (regainRoot >>= fun regained =>
      if regained then rest else pure HelperOutcome.exited) := by
  have back := leaves_regainRoot (.identity euid egid)
  refine leaves_bind (back.weaken fun events regained left => ?_)
  cases regained with
  | false => exact Or.inl rfl
  | true =>
    rw [left rfl]
    exact tidy

/-- The end of most commands. -/
theorem tidy_regainAndRespond (euid egid : UInt32) (res : HelperResponse) :
    Tidy (.identity euid egid) (regainAndRespond res) :=
  tidy_regain euid egid (tidy_response res)

/-- A command in a sandbox. -/
theorem tidy_inSandbox {euid egid : UInt32} {session : ClientSession}
    {root directory refusal : List UInt8} {res : HelperResponse} {rest : HelperScript HelperOutcome}
    (tidy : Tidy (.identity session.uid session.gid) rest) :
    Tidy (.identity euid egid) (inSandbox (sandboxUser session root directory) res refusal rest) := by
  have sandbox := leaves_sandboxUser euid egid session root directory
  refine leaves_bind (sandbox.weaken fun events inside left => ?_)
  obtain ⟨euid', egid', same, -, dropped⟩ := left
  rw [same]
  cases inside with
  | false => exact fun _ => Or.inl rfl
  | true =>
    obtain ⟨rfl, rfl⟩ := dropped rfl
    exact tidy

/-- An identity with some files open, one of them locked. -/
def Holdings.locking (euid egid : UInt32) (files : List Descriptor) (fd : Descriptor) : Holdings :=
  ⟨euid, egid, fd :: files, [fd], 0, false⟩

/-- Taking a lock opens a file and locks it, or leaves everything as it was. -/
theorem leaves_lockFile (euid egid : UInt32) (files : List Descriptor) (path : List UInt8)
    (type : LockType) :
    Leaves ⟨euid, egid, files, [], 0, false⟩ (fun locked left => match locked with
      | .error _ => left = ⟨euid, egid, files, [], 0, false⟩
      | .ok fd => left = .locking euid egid files fd) (lockFile path type) := by
  intro opened
  cases opened with
  | error failure => exact rfl
  | ok fd =>
    intro locked
    cases locked with
    | error failure =>
      intro closed
      show Holdings.close ⟨euid, egid, fd :: files, [], 0, false⟩ fd = _
      simp [Holdings.close]
    | ok _ => exact rfl

/-- Closing a locked file leaves the other files. -/
theorem close_locking (euid egid : UInt32) (files : List Descriptor) (fd : Descriptor) :
    (Holdings.locking euid egid files fd).close fd = ⟨euid, egid, files, [], 0, false⟩ := by
  simp [Holdings.locking, Holdings.close]

/-- Giving up a lock leaves the other files. -/
theorem leaves_unlockFile (euid egid : UInt32) (files : List Descriptor) (fd : Descriptor) :
    Leaves (.locking euid egid files fd)
      (fun _ left => left = ⟨euid, egid, files, [], 0, false⟩) (unlockFile fd) := by
  intro _ _
  show Holdings.close ⟨euid, egid, fd :: files, [fd].filter (· ≠ fd), 0, false⟩ fd = _
  simp [Holdings.close]

/-- A command that works under a lock. -/
theorem tidy_underLock (euid egid : UInt32) {α : Type} {work : HelperScript α}
    (idle : work.Only (·.idle = true)) (fd : Descriptor) {rest : α → HelperScript HelperOutcome}
    (tidy : ∀ value, Tidy (.identity euid egid) (rest value)) :
    Tidy (.locking euid egid [] fd) (work >>= fun value =>
      unlockFile fd >>= fun _ => rest value) := by
  refine leaves_after_idle idle fun value => leaves_bind ?_
  refine (leaves_unlockFile euid egid [] fd).weaken fun events _ left => ?_
  rw [left]
  exact tidy value

/-- A command that locks its file first. -/
theorem tidy_lockFile (euid egid : UInt32) (path : List UInt8) (type : LockType)
    {rest : Except Failure Descriptor → HelperScript HelperOutcome}
    (fails : ∀ failure, Tidy (.identity euid egid) (rest (.error failure)))
    (goes : ∀ fd, Tidy (.locking euid egid [] fd) (rest (.ok fd))) :
    Tidy (.identity euid egid) (lockFile path type >>= rest) := by
  refine leaves_bind ((leaves_lockFile euid egid [] path type).weaken fun events locked left => ?_)
  cases locked with
  | error failure =>
    have same : (Holdings.identity euid egid).afterAll events = .identity euid egid := left
    rw [same]
    exact fails failure
  | ok fd =>
    have same : (Holdings.identity euid egid).afterAll events = .locking euid egid [] fd := left
    rw [same]
    exact goes fd

section

variable {euid egid : UInt32} (session : ClientSession) (res : HelperResponse)

/-- A change of directory. -/
theorem tidy_changeDirectory (path : List UInt8) :
    Tidy (.identity euid egid) (changeDirectory session path res) := by
  refine tidy_inSandbox fun moved => ?_
  cases moved with
  | error text => exact tidy_regainAndRespond _ _ _
  | ok _ =>
    intro resolved
    cases resolved with
    | none => exact tidy_regainAndRespond _ _ _
    | some newcwd => exact tidy_regainAndRespond _ _ _

/-- A change of permissions. -/
theorem tidy_chmod (filename : List UInt8) (privileges : UInt32) :
    Tidy (.identity euid egid) (handleHelperChmod session filename privileges res) := by
  refine tidy_inSandbox (tidy_lockFile _ _ _ _ (fun _ => tidy_regainAndRespond _ _ _) fun fd => ?_)
  exact tidy_underLock _ _ ((Script.only_perform _).mpr rfl) fd
    fun changed => tidy_regainAndRespond _ _ _

/-- The deletion of a file or a directory. -/
theorem tidy_delete (path : List UInt8) :
    Tidy (.identity euid egid) (handleHelperDelete session path res) := by
  refine tidy_inSandbox fun found => ?_
  cases found with
  | error text => exact tidy_regainAndRespond _ _ _
  | ok st =>
    show Tidy (.identity session.uid session.gid) (if st.type = .directory then _ else _)
    split
    · intro removed
      cases removed with
      | error text => exact tidy_regainAndRespond _ _ _
      | ok _ => exact tidy_regainAndRespond _ _ _
    · refine tidy_lockFile _ _ _ _ (fun _ => tidy_regainAndRespond _ _ _) fun fd => ?_
      exact tidy_underLock _ _ ((Script.only_perform _).mpr rfl) fd
        fun deleted => tidy_regainAndRespond _ _ _

/-- Work on files is idle. -/
theorem idle_of_worksOnFiles (op : HelperOp) (works : op.worksOnFiles = true) :
    op.idle = true := by
  cases op <;> first | rfl | exact absurd works Bool.false_ne_true

/-- A move. -/
theorem tidy_move (path1 path2 : List UInt8) :
    Tidy (.identity euid egid) (handleHelperMove session path1 path2 res) := by
  refine tidy_inSandbox (tidy_lockFile _ _ _ _ (fun _ => tidy_regainAndRespond _ _ _) fun fd => ?_)
  exact tidy_underLock _ _ (only_moveLocked idle_of_worksOnFiles path1 path2) fd
    fun moved => tidy_regainAndRespond _ _ _

/-- A read. -/
theorem tidy_read (path : List UInt8) (offset : Int32) :
    Tidy (.identity euid egid) (handleHelperRead session path offset res) := by
  refine tidy_inSandbox (tidy_lockFile _ _ _ _ (fun _ => tidy_regainAndRespond _ _ _) fun fd => ?_)
  refine tidy_underLock _ _ (only_readLocked idle_of_worksOnFiles fd offset) fd fun found => ?_
  cases found with
  | error text => exact tidy_regainAndRespond _ _ _
  | ok bytes =>
    refine tidy_regain _ _ fun _ => ?_
    show Tidy .root (if _ then system (.writeServer bytes.val) >>= fun _ => pure .returned
      else pure .returned)
    split
    · exact fun _ => Or.inr ⟨rfl, rfl⟩
    · exact Or.inr ⟨rfl, rfl⟩

/-- A command that returns with what there was when it began. -/
abbrev Keeps (euid egid : UInt32) (script : HelperScript HelperOutcome) : Prop :=
  Leaves (.identity euid egid)
    (fun outcome left => outcome = .returned ∧ left = .identity euid egid) script

/-- A response at the end of such a command. -/
theorem keeps_response :
    Keeps euid egid (system (.writeResponse res) >>= fun _ => pure HelperOutcome.returned) :=
  fun _ => ⟨rfl, rfl⟩

/-- A login. -/
theorem keeps_login (username : Option (List UInt8)) :
    Keeps euid egid (handleHelperLogin username res) := by
  cases username with
  | none => exact keeps_response _
  | some username =>
    intro found
    cases found with
    | none => exact keeps_response _
    | some pw => exact keeps_response _

/-- The creation of a user gives up its lock on every way out. -/
theorem leaves_createSystemUser (euid egid : UInt32) (lockFilePath rootDir username : List UInt8)
    (privileges : UInt32) :
    Leaves (.identity euid egid) (fun _ left => left = .identity euid egid)
      (createSystemUser lockFilePath rootDir username privileges) := by
  have ending : ∀ fd (result : Bool × List UInt8), Leaves (.locking euid egid [] fd)
      (fun _ left => left = .identity euid egid)
      (releaseUserCreationLock fd >>= fun _ => pure result) :=
    fun fd _ => leaves_bind (leaves_unlockFile euid egid [] fd)
  have undone : ∀ fd text, Leaves (.locking euid egid [] fd)
      (fun _ left => left = .identity euid egid) (undoUser fd username text) :=
    fun fd text _ => ending fd (false, text)
  refine leaves_bind ((leaves_lockFile euid egid [] lockFilePath .exclusive).weaken ?_)
  intro events locked left
  cases locked with
  | error failure => exact left
  | ok lockFd =>
    have same : (Holdings.identity euid egid).afterAll events = .locking euid egid [] lockFd := left
    rw [same]
    intro taken
    cases taken with
    | some account => exact ending _ _
    | none =>
      intro result
      cases result with
      | notForked => exact ending _ _
      | failed => exact ending _ _
      | succeeded =>
        intro found
        cases found with
        | none => exact undone _ _
        | some pwd =>
          intro made
          cases made with
          | error failure => exact undone _ _
          | ok _ =>
            intro owned
            cases owned with
            | error failure => exact undone _ _
            | ok _ => exact ending _ _

/-- The creation of a user. -/
theorem keeps_createUser (lockFilePath rootDir username : List UInt8) (privileges : UInt32) :
    Keeps euid egid (handleHelperCreateUser lockFilePath rootDir username privileges res) := by
  refine leaves_bind ((leaves_createSystemUser euid egid _ _ _ _).weaken fun events result left => ?_)
  rw [left]
  exact keeps_response _

/-- Closing two files takes away the locks of both. -/
theorem close_both (first second : Descriptor) {locked : List Descriptor}
    (known : ∀ fd ∈ locked, fd = second ∨ fd = first) :
    (Holdings.close ⟨euid, egid, [second, first], locked, 0, false⟩ first).close second =
      .identity euid egid := by
  by_cases same : second = first
  · subst same
    simpa [Holdings.close, Holdings.identity] using known
  · have unlocked : ∀ fd ∈ locked, ¬ fd = second → fd = first :=
      fun fd member apart => (known fd member).resolve_left apart
    simpa [Holdings.close, Holdings.identity, same] using unlocked

/-- The part of a transfer with both files open locks the destination at most. -/
theorem leaves_transferOpened (euid egid : UInt32) (srcFd destFd : Descriptor) (recv : List UInt8) :
    Leaves ⟨euid, egid, [destFd, srcFd], [srcFd], 0, false⟩
      (fun _ left => ∃ locked, (∀ fd ∈ locked, fd = destFd ∨ fd = srcFd) ∧
        left = ⟨euid, egid, [destFd, srcFd], locked, 0, false⟩) (transferOpened srcFd destFd recv) := by
  have source : ∀ fd ∈ [srcFd], fd = destFd ∨ fd = srcFd := by simp
  intro account
  cases account with
  | none => exact ⟨_, source, rfl⟩
  | some pw =>
    intro owned locked
    cases locked with
    | error failure => exact ⟨_, source, rfl⟩
    | ok _ =>
      intro blocks
      have both : ∀ fd ∈ [destFd, srcFd], fd = destFd ∨ fd = srcFd := by simp
      show Leaves ⟨euid, egid, [destFd, srcFd], [destFd, srcFd], 0, false⟩
        (fun _ left => ∃ locked, (∀ fd ∈ locked, fd = destFd ∨ fd = srcFd) ∧
          left = ⟨euid, egid, [destFd, srcFd], locked, 0, false⟩) (copyFile destFd blocks >>= _)
      refine leaves_after_idle (only_copyFile destFd (fun _ => rfl) blocks) fun copied => ?_
      cases copied with
      | true => exact ⟨_, both, rfl⟩
      | false => exact ⟨_, both, rfl⟩

/-- The part of a transfer with the source open closes both files. -/
theorem leaves_transferLocked (euid egid : UInt32) (srcFd : Descriptor) (path recv : List UInt8) :
    Leaves ⟨euid, egid, [srcFd], [], 0, false⟩ (fun _ left => left = .identity euid egid)
      (transferLocked srcFd path recv) := by
  intro locked
  cases locked with
  | error failure =>
    intro closed
    show Holdings.close ⟨euid, egid, [srcFd], [], 0, false⟩ srcFd = _
    simp [Holdings.close, Holdings.identity]
  | ok _ =>
    intro opened
    cases opened with
    | error failure => exact fun _ => close_locking euid egid [] srcFd
    | ok destFd =>
      show Leaves ⟨euid, egid, [destFd, srcFd], [srcFd], 0, false⟩
        (fun _ left => left = .identity euid egid) (transferOpened srcFd destFd recv >>= _)
      refine leaves_bind ((leaves_transferOpened euid egid srcFd destFd recv).weaken ?_)
      rintro events copied ⟨locked, known, same⟩
      rw [same]
      exact fun _ _ => close_both srcFd destFd known

/-- A transfer between users. -/
theorem keeps_transfer (root sender filename recv targetPath : List UInt8) :
    Keeps euid egid (handleHelperTransfer root sender filename recv targetPath res) := by
  unfold handleHelperTransfer
  split
  · exact keeps_response _
  · intro opened
    cases opened with
    | error failure => exact keeps_response _
    | ok srcFd =>
      show Leaves ⟨euid, egid, [srcFd], [], 0, false⟩
        (fun outcome left => outcome = HelperOutcome.returned ∧ left = .identity euid egid)
        (transferLocked srcFd _ recv >>= _)
      refine leaves_bind ((leaves_transferLocked euid egid srcFd _ recv).weaken ?_)
      intro events transferred left
      rw [left]
      exact keeps_response _

end

/-- A part of a command ends clean exactly if its calls meet a condition. -/
abbrev Clean (condition : List HelperEvent → Prop) (held : Holdings)
    (script : HelperScript HelperOutcome) : Prop :=
  script.Every fun events outcome => EndsClean (held.afterAll events) outcome ↔ condition events

/-- A command in a sandbox, when the sandbox does not matter for the condition. -/
theorem clean_inSandbox {euid egid : UInt32} {condition : List HelperEvent → Prop}
    {session : ClientSession} {root directory refusal : List UInt8} {res : HelperResponse}
    {rest : HelperScript HelperOutcome}
    (sandbox : (sandboxUser session root directory).Only (Irrelevant condition))
    (refuses : Irrelevant condition (.writeResponse (res.say refusal))) (start : condition [])
    (clean : Clean condition (.identity session.uid session.gid) rest) :
    Clean condition (.identity euid egid)
      (inSandbox (sandboxUser session root directory) res refusal rest) := by
  have both := (leaves_sandboxUser euid egid session root directory).conj sandbox.every
  refine (Script.every_bind _ _).mpr (both.weaken fun before inside both => ?_)
  obtain ⟨⟨euid', egid', same, -, dropped⟩, aside⟩ := both
  cases inside with
  | false =>
    intro sent
    exact iff_of_true (Or.inl rfl) ((condition_after aside _).mpr ((refuses _ _).mpr start))
  | true =>
    obtain ⟨rfl, rfl⟩ := dropped rfl
    refine clean.weaken fun after outcome holds => ?_
    rw [Holdings.afterAll, List.foldl_append, condition_after aside]
    rw [Holdings.afterAll] at same
    rw [same]
    exact holds

/-- A part that always ends clean, when its calls do not matter for the condition. -/
theorem Tidy.clean {condition : List HelperEvent → Prop} {held : Holdings}
    {script : HelperScript HelperOutcome} (tidy : Tidy held script)
    (aside : script.Only (Irrelevant condition)) (start : condition []) :
    Clean condition held script := by
  refine (tidy.conj aside.every).weaken fun events outcome both => iff_of_true both.1 ?_
  have alone := condition_after both.2 []
  rw [List.append_nil] at alone
  exact alone.mpr start

/-- A file has been created, or opened with `O_CREAT`. -/
def HelperEvent.Creates : HelperEvent → Prop
  | ⟨.openFile _ flags _, answer⟩ | ⟨.openat _ _ flags _, answer⟩ =>
    flags.creat = true ∧ ∃ fd, answer = .ok fd
  | _ => False

/-- A file could not be opened or locked. -/
def HelperEvent.Refuses : HelperEvent → Prop
  | ⟨.openFile .., answer⟩ | ⟨.setLock .., answer⟩ => ∃ failure, answer = .error failure
  | _ => False

/-- A file that has been created can also be opened again and locked, or `regainRoot` ends the
process. -/
def LocksCreated (events : List HelperEvent) : Prop :=
  (∃ event ∈ events, HelperEvent.Creates event) → (∃ event ∈ events, HelperEvent.Refuses event) →
    ¬ RegainsRoot events

/-- A call of the sandbox and the way back neither creates nor refuses a file. -/
def HelperOp.aside : HelperOp → Bool
  | openFile .. | openat .. | setLock .. => false
  | _ => true

/-- Neither does work on files. -/
theorem aside_of_worksOnFiles (op : HelperOp) (works : op.worksOnFiles = true) :
    op.aside = true := by
  cases op <;> first | rfl | exact absurd works Bool.false_ne_true

/-- Such a call creates and refuses nothing. -/
theorem quiet_of_aside {event : HelperEvent} (aside : event.1.aside = true) :
    ¬ event.Creates ∧ ¬ event.Refuses := by
  obtain ⟨op, answer⟩ := event
  cases op <;> first | exact ⟨id, id⟩ | exact absurd aside Bool.false_ne_true

/-- Calls before a part decide with it, unless they are its only calls. -/
theorem regainsRoot_append (before : List HelperEvent) {after : List HelperEvent}
    (some : after ≠ []) : RegainsRoot (before ++ after) ↔ RegainsRoot after := by
  unfold RegainsRoot
  rw [List.getLast?_append_of_ne_nil before some]

/-- How most commands end, whatever they hold: the process goes on exactly if it is root again, and
then nothing but the identity has changed. -/
structure Returns (held : Holdings) (events : List HelperEvent) (outcome : HelperOutcome) : Prop where
  /-- Something has been called. -/
  called : events ≠ []
  /-- No file is created or refused. -/
  quiet : ∀ event ∈ events, ¬ HelperEvent.Creates event ∧ ¬ HelperEvent.Refuses event
  /-- The outcome. -/
  outcome : (RegainsRoot events ∧ outcome = .returned ∧
    held.afterAll events = { held with euid := 0, egid := 0 }) ∨
      ¬ RegainsRoot events ∧ outcome = .exited

/-- The end of most commands. -/
theorem returns_regainAndRespond (held : Holdings) (res : HelperResponse) :
    (regainAndRespond res).Every (Returns held) := by
  intro changed
  cases changed with
  | false =>
    refine ⟨List.cons_ne_nil _ _, by simp [HelperEvent.Creates, HelperEvent.Refuses], ?_⟩
    exact Or.inr ⟨fun root => root.1 rfl, rfl⟩
  | true =>
    intro regained
    cases regained with
    | false =>
      refine ⟨List.cons_ne_nil _ _, by simp [HelperEvent.Creates, HelperEvent.Refuses], ?_⟩
      exact Or.inr ⟨fun root => root.2 rfl, rfl⟩
    | true =>
      intro sent
      refine ⟨List.cons_ne_nil _ _, by simp [HelperEvent.Creates, HelperEvent.Refuses], ?_⟩
      exact Or.inl ⟨⟨by simp, by simp⟩, rfl, rfl⟩

/-- The end after which nothing is open is clean. -/
theorem Returns.endsClean {euid egid : UInt32} {events : List HelperEvent} {outcome : HelperOutcome}
    (returns : Returns (.identity euid egid) events outcome) :
    EndsClean ((Holdings.identity euid egid).afterAll events) outcome := by
  rcases returns.outcome with ⟨-, returned, left⟩ | ⟨-, exited⟩
  · exact Or.inr ⟨returned, left⟩
  · exact Or.inl exited

/-- After something has been closed twice only the end of the process is clean. -/
theorem Returns.endsClean_iff {held : Holdings} {events : List HelperEvent} {outcome : HelperOutcome}
    (returns : Returns held events outcome) (misclosed : held.misclosed = true) :
    EndsClean (held.afterAll events) outcome ↔ ¬ RegainsRoot events := by
  rcases returns.outcome with ⟨regained, returned, left⟩ | ⟨lost, exited⟩
  · refine iff_of_false ?_ (not_not_intro regained)
    rintro (exited | ⟨-, clean⟩)
    · exact absurd (returned.symm.trans exited) (by decide)
    · have kept : held.misclosed = false := congrArg Holdings.misclosed (left.symm.trans clean)
      exact absurd (misclosed.symm.trans kept) (by decide)
  · exact iff_of_true (Or.inl exited) lost

/-- What a part of a command leaves decides together with what was called before it. -/
abbrev Locks (held : Holdings) (before : List HelperEvent)
    (script : HelperScript HelperOutcome) : Prop :=
  script.Every fun events outcome =>
    EndsClean (held.afterAll events) outcome ↔ LocksCreated (before ++ events)

/-- An end after which nothing is open, when nothing has been created or nothing refused. -/
theorem locks_clean (euid egid : UInt32) (before : List HelperEvent) (res : HelperResponse)
    (spared : (∀ event ∈ before, ¬ HelperEvent.Creates event) ∨
      ∀ event ∈ before, ¬ HelperEvent.Refuses event) :
    Locks (.identity euid egid) before (regainAndRespond res) := by
  refine (returns_regainAndRespond (.identity euid egid) res).weaken fun events outcome returns => ?_
  refine iff_of_true returns.endsClean ?_
  rintro ⟨created, createdIn, creates⟩ ⟨refused, refusedIn, refuses⟩
  rcases spared with none | none
  · rcases List.mem_append.mp createdIn with earlier | later
    · exact absurd creates (none created earlier)
    · exact absurd creates (returns.quiet created later).1
  · rcases List.mem_append.mp refusedIn with earlier | later
    · exact absurd refuses (none refused earlier)
    · exact absurd refuses (returns.quiet refused later).2

/-- An end after something has been closed twice, when something has been created and refused. -/
theorem locks_misclosed {held : Holdings} (before : List HelperEvent) (res : HelperResponse)
    (misclosed : held.misclosed = true) (created : ∃ event ∈ before, HelperEvent.Creates event)
    (refused : ∃ event ∈ before, HelperEvent.Refuses event) :
    Locks held before (regainAndRespond res) := by
  refine (returns_regainAndRespond held res).weaken fun events outcome returns => ?_
  have grow : ∀ {condition : HelperEvent → Prop}, (∃ event ∈ before, condition event) →
      ∃ event ∈ before ++ events, condition event :=
    fun ⟨event, member, holds⟩ => ⟨event, List.mem_append_left _ member, holds⟩
  rw [returns.endsClean_iff misclosed]
  unfold LocksCreated
  rw [regainsRoot_append before returns.called]
  exact ⟨fun lost _ _ => lost, fun locks => locks (grow created) (grow refused)⟩

section

variable {euid egid : UInt32} (session : ClientSession) (res : HelperResponse)

/-- Calls beside the files do not decide about them. -/
theorem irrelevant_locksCreated {op : HelperOp} (aside : op.aside = true) :
    Irrelevant LocksCreated op := by
  intro answer events
  have quiet : ¬ HelperEvent.Creates ⟨op, answer⟩ ∧ ¬ HelperEvent.Refuses ⟨op, answer⟩ :=
    quiet_of_aside aside
  unfold LocksCreated
  simp only [List.mem_cons, or_and_right, exists_or, exists_eq_left, quiet.1, quiet.2, false_or]
  refine imp_congr_right fun created => imp_congr_right fun _ => not_congr ?_
  obtain ⟨event, member, -⟩ := created
  exact regainsRoot_append [⟨op, answer⟩] (List.ne_nil_of_mem member)

/-- A command that creates a file in a sandbox. -/
theorem locks_inSandbox {root directory refusal : List UInt8}
    {rest : HelperScript HelperOutcome} (locks : Locks (.identity session.uid session.gid) [] rest) :
    Locks (.identity euid egid) []
      (inSandbox (sandboxUser session root directory) res refusal rest) := by
  refine clean_inSandbox ?_ (irrelevant_locksCreated rfl) nofun locks
  apply only_sandboxUser <;> intros <;> exact irrelevant_locksCreated rfl

/-- A sequence decides as its last part does after the first. -/
theorem locks_bind {α : Type} {held : Holdings} {before : List HelperEvent} {first : HelperScript α}
    {rest : α → HelperScript HelperOutcome}
    (locks : first.Every fun events value =>
      Locks (held.afterAll events) (before ++ events) (rest value)) :
    Locks held before (first >>= rest) := by
  refine (Script.every_bind first rest).mpr (locks.weaken fun events value goes => ?_)
  refine goes.weaken fun after outcome holds => ?_
  rwa [Holdings.afterAll, List.foldl_append, ← List.append_assoc]

/-- A file is refused if it cannot be opened or locked, and only then. -/
theorem refuses_lockFile (path : List UInt8) (type : LockType) :
    (lockFile path type).Every fun events locked => match locked with
      | .error _ => ∃ event ∈ events, HelperEvent.Refuses event
      | .ok _ => ∀ event ∈ events, ¬ HelperEvent.Refuses event := by
  intro opened
  cases opened with
  | error failure => exact ⟨_, List.mem_cons_self, failure, rfl⟩
  | ok fd =>
    intro locked
    cases locked with
    | error failure =>
      exact fun _ => ⟨_, List.mem_cons_of_mem _ List.mem_cons_self, failure, rfl⟩
    | ok _ =>
      have granted : ∀ flags, ∀ event ∈ [⟨.openFile path flags 0, .ok fd⟩,
          ⟨.setLock fd type, .ok ()⟩], ¬ HelperEvent.Refuses event := by
        simp [HelperEvent.Refuses]
      exact granted _

/-- A part that ends clean, when nothing has been created. -/
theorem locks_tidy {held : Holdings} {before : List HelperEvent} {script : HelperScript HelperOutcome}
    (tidy : Tidy held script) (aside : script.Only (·.aside = true))
    (none : ∀ event ∈ before, ¬ HelperEvent.Creates event) : Locks held before script := by
  refine (tidy.conj aside.every).weaken fun events outcome both => iff_of_true both.1 ?_
  rintro ⟨created, createdIn, creates⟩
  rcases List.mem_append.mp createdIn with earlier | later
  · exact absurd creates (none created earlier)
  · exact absurd creates (quiet_of_aside (both.2 created later)).1

/-- The creation of a file or a directory. -/
theorem locks_createFile (filename : List UInt8) (privileges : UInt32) (makeDir : Bool) :
    Locks (.identity euid egid) []
      (handlerHelperCreateFile session filename privileges makeDir res) := by
  refine locks_inSandbox session res ?_
  cases makeDir with
  | true =>
    refine locks_tidy (fun _ _ => tidy_regain _ _ (Or.inr ⟨rfl, rfl⟩)) ?_ (by simp)
    exact .call rfl fun _ => .call rfl fun _ => .bind (only_regainRoot rfl rfl) fun regained => by
      cases regained with
      | false => trivial
      | true => trivial
  | false =>
    intro opened
    cases opened with
    | error failure =>
      exact locks_clean _ _ [⟨.openFile (str ".") ⟨.readOnly, false, false, true, false⟩ 0,
        .error failure⟩] _ (Or.inl (by simp [HelperEvent.Creates]))
    | ok dirfd =>
      intro created _
      let front : List HelperEvent :=
        [⟨.openFile (str ".") ⟨.readOnly, false, false, true, false⟩ 0, .ok dirfd⟩,
          ⟨.openat dirfd filename ⟨.writeOnly, true, true, false, true⟩ privileges, created⟩,
          ⟨.close dirfd, ()⟩]
      have unrefused : ∀ event ∈ front, ¬ HelperEvent.Refuses event := by
        simp [front, HelperEvent.Refuses]
      cases created with
      | error failure =>
        have left : Holdings.close ⟨session.uid, session.gid, [dirfd], [], 0, false⟩ dirfd =
            .identity session.uid session.gid := by
          simp [Holdings.close, Holdings.identity]
        have clean := locks_clean session.uid session.gid front (res.say (str "Create failed"))
          (Or.inr unrefused)
        rw [← left] at clean
        exact clean
      | ok fd =>
        have left : Holdings.close ⟨session.uid, session.gid, [fd, dirfd], [], 0, false⟩ dirfd =
            ⟨session.uid, session.gid, [fd], [], 0, false⟩ := by
          by_cases same : fd = dirfd
          · simp [Holdings.close, same]
          · simp [Holdings.close, same]
        have goes : Locks ⟨session.uid, session.gid, [fd], [], 0, false⟩ front
            (lockFile filename .exclusive >>= fun locked => match locked with
              | .error _ => do
                system (.close dirfd)
                system (.close fd)
                regainAndRespond (res.say (str "Cannot lock file for creation"))
              | .ok lockFd => do
                system (.close fd)
                unlockFile lockFd
                regainAndRespond (res.succeed (str "File created succesfully"))) := by
          have created : ∃ event ∈ front, HelperEvent.Creates event :=
            ⟨_, List.mem_cons_of_mem _ List.mem_cons_self, rfl, fd, rfl⟩
          have both := (leaves_lockFile session.uid session.gid [fd] filename .exclusive).conj
            (refuses_lockFile filename .exclusive)
          refine locks_bind (both.weaken fun events locked both => ?_)
          obtain ⟨left, refused⟩ := both
          cases locked with
          | error failure =>
            have same : Holdings.afterAll ⟨session.uid, session.gid, [fd], [], 0, false⟩ events =
                ⟨session.uid, session.gid, [fd], [], 0, false⟩ := left
            rw [same]
            obtain ⟨event, member, refuses⟩ := refused
            refine locks_bind fun _ => locks_bind fun _ => locks_misclosed _ _ ?_ ?_ ?_
            · show (Holdings.close (Holdings.close ⟨_, _, [fd], [], 0, false⟩ dirfd) fd).misclosed =
                true
              by_cases same : dirfd = fd
              · simp [Holdings.close, same]
              · simp [Holdings.close, same, Ne.symm same]
            · obtain ⟨event, member, creates⟩ := created
              exact ⟨event, by simp [member], creates⟩
            · exact ⟨event, by simp [member], refuses⟩
          | ok lockFd =>
            have same : Holdings.afterAll ⟨session.uid, session.gid, [fd], [], 0, false⟩ events =
                .locking session.uid session.gid [fd] lockFd := left
            rw [same]
            have clean : (Holdings.locking session.uid session.gid [fd] lockFd).afterAll
                [⟨.close fd, ()⟩, ⟨.clearLock lockFd, ()⟩, ⟨.close lockFd, ()⟩] =
                  .identity session.uid session.gid := by
              by_cases same : lockFd = fd
              · simp [Holdings.after, Holdings.close, Holdings.locking, Holdings.identity, same]
              · simp [Holdings.after, Holdings.close, Holdings.locking, Holdings.identity, same,
                  Ne.symm same]
            refine locks_bind fun _ => ?_
            show Locks _ _ (unlockFile lockFd >>= _)
            refine locks_bind fun _ _ => ?_
            show Locks ((Holdings.locking session.uid session.gid [fd] lockFd).afterAll
              [⟨.close fd, ()⟩, ⟨.clearLock lockFd, ()⟩, ⟨.close lockFd, ()⟩]) _ _
            rw [clean]
            refine locks_clean _ _ _ _ (Or.inr ?_)
            rw [List.forall_mem_append, List.forall_mem_append, List.forall_mem_append]
            exact ⟨⟨⟨unrefused, refused⟩, by simp [HelperEvent.Refuses]⟩,
              by simp [HelperEvent.Refuses]⟩
        rw [← left] at goes
        exact goes

/-- A write. -/
theorem locks_write (path : List UInt8) (offset : Int32) (data : List UInt8) :
    Locks (.identity euid egid) [] (handleHelperWrite session path offset data res) := by
  refine locks_inSandbox session res fun opened => ?_
  let opening : HelperOp := .openFile path ⟨.readWrite, true, false, false, false⟩ 0o700
  cases opened with
  | error text =>
    exact locks_clean _ _ [⟨opening, .error text⟩] _ (Or.inl (by simp [opening, HelperEvent.Creates]))
  | ok fd =>
    intro locked
    cases locked with
    | error text =>
      intro _ _
      refine locks_misclosed [⟨opening, .ok fd⟩, ⟨.setLock fd .exclusive, .error text⟩,
        ⟨.close fd, ()⟩, ⟨.close fd, ()⟩] _ ?_ ⟨_, List.mem_cons_self, rfl, fd, rfl⟩
        ⟨_, List.mem_cons_of_mem _ List.mem_cons_self, text, rfl⟩
      show (Holdings.close (Holdings.close ⟨_, _, [fd], [], 0, false⟩ fd) fd).misclosed = true
      simp [Holdings.close]
    | ok _ =>
      have works : (writeLocked fd offset data).Only fun op => op.idle = true ∧ op.aside = true :=
        only_writeLocked (fun op works =>
          ⟨idle_of_worksOnFiles op works, aside_of_worksOnFiles op works⟩) fd offset data
      show Locks (.locking session.uid session.gid [] fd)
        [⟨opening, .ok fd⟩, ⟨.setLock fd .exclusive, .ok ()⟩] (writeLocked fd offset data >>= _)
      refine locks_bind (works.every.weaken fun events written aside => ?_)
      rw [afterAll_idle _ fun event member => (aside event member).1]
      refine locks_bind fun _ => ?_
      show Locks ((Holdings.locking session.uid session.gid [] fd).close fd) _ _
      rw [close_locking]
      refine locks_clean _ _ _ _ (Or.inr ?_)
      rw [List.forall_mem_append, List.forall_mem_append]
      refine ⟨⟨by simp [opening, HelperEvent.Refuses], fun event member => ?_⟩,
        by simp [HelperEvent.Refuses]⟩
      exact (quiet_of_aside (aside event member).2).2

/-- The end of a listing that has found its entries. -/
theorem tidy_endListing (euid egid : UInt32) (entries : List FileEntry) :
    Tidy ⟨euid, egid, [], [], 1, false⟩ (endListing res entries) := by
  intro _
  refine tidy_regain euid egid fun _ => ?_
  show Tidy .root (if _ then system (.writeServer _) >>= fun _ => pure .returned
    else pure .returned)
  split
  · exact fun _ => Or.inr ⟨rfl, rfl⟩
  · exact Or.inr ⟨rfl, rfl⟩

/-- A listing ends clean exactly if there is room for every entry. -/
theorem clean_ls (path rootDir : List UInt8) :
    Clean (Fits 0) (.identity euid egid) (handleHelperLs session path rootDir res) := by
  have empty : Fits 0 [] := Nat.zero_le _
  have ends : ∀ res, Clean (Fits 0) (.identity session.uid session.gid) (regainAndRespond res) := by
    intro res
    refine (tidy_regainAndRespond _ _ res).clean ?_ empty
    apply only_regainAndRespond <;> exact irrelevant_fits (by simp)
  refine clean_inSandbox ?_ (irrelevant_fits (by simp)) empty fun opened => ?_
  · apply only_sandboxUser <;> intros <;> exact irrelevant_fits (by simp)
  · cases opened with
    | error text =>
      refine (ends _).weaken fun events outcome holds => ?_
      exact holds.trans (irrelevant_fits (by simp) _ _).symm
    | ok names =>
      have only : (listEntries path names []).Only (·.idle = true) :=
        only_listEntries (fun _ => rfl) path names []
      have loop := (every_listEntries path names [] (Nat.zero_le _)).conj only.every
      have opened : ∀ events, Fits 0 (⟨.opendir path, .ok names⟩ :: events) ↔ Fits 0 events :=
        irrelevant_fits (by simp) _
      show Script.Every _ (listEntries path names [] >>= _)
      refine (Script.every_bind _ _).mpr (loop.weaken fun before listed both => ?_)
      obtain ⟨⟨rfl, many⟩ | ⟨entries, rfl, size, room⟩, idle⟩ := both
      · refine iff_of_false ?_ ?_
        · rintro (exited | ⟨returned, -⟩)
          · cases exited
          · cases returned
        · rw [opened, List.append_nil]
          exact many
      · have only : (endListing res entries).Only (Irrelevant (Fits entries.length)) := by
          apply only_endListing <;> intros <;> exact irrelevant_fits (by simp)
        have tail := (tidy_endListing res session.uid session.gid entries).clean only room
        refine tail.weaken fun after outcome holds => ?_
        refine Iff.trans ?_ (opened _).symm
        show EndsClean (Holdings.afterAll ⟨session.uid, session.gid, [], [], 1, false⟩
          (before ++ after)) outcome ↔ _
        rw [Holdings.afterAll, List.foldl_append]
        have same := afterAll_idle ⟨session.uid, session.gid, [], [], 1, false⟩ idle
        rw [Holdings.afterAll] at same
        rw [same]
        refine holds.trans ?_
        simp only [Fits, List.countP_append]
        rw [size, List.length_nil, Nat.zero_add, Nat.zero_add]

/-- The end of a background transfer gives up the lock and closes the file. -/
theorem tidy_endTransfer (euid egid : UInt32) (fd : Descriptor) {locked : List Descriptor}
    (known : ∀ other ∈ locked, other = fd) :
    Tidy ⟨euid, egid, [fd], locked, 0, false⟩ (endTransfer fd) := by
  have left : (Holdings.afterAll ⟨euid, egid, [fd], locked, 0, false⟩
      [⟨.clearLock fd, ()⟩, ⟨.close fd, ()⟩]) = .identity euid egid := by
    simpa [Holdings.after, Holdings.close, Holdings.identity] using known
  intro _ _
  show Tidy (Holdings.afterAll ⟨euid, egid, [fd], locked, 0, false⟩
    [⟨.clearLock fd, ()⟩, ⟨.close fd, ()⟩]) _
  rw [left]
  exact tidy_regain _ _ (Or.inr ⟨rfl, rfl⟩)

/-- Some file has been opened. -/
def Opened (events : List HelperEvent) : Prop :=
  ∃ path flags mode fd, ⟨.openFile path flags mode, .ok fd⟩ ∈ events

/-- Some file should have been opened. -/
def Tried (events : List HelperEvent) : Prop :=
  ∃ path flags mode opened, ⟨.openFile path flags mode, opened⟩ ∈ events

/-- Calls besides `open` open no file. -/
theorem irrelevant_opened {op : HelperOp} (other : ∀ path flags mode, op ≠ .openFile path flags mode) :
    Irrelevant Opened op := by
  intro answer events
  unfold Opened
  refine exists_congr fun path => exists_congr fun flags => exists_congr fun mode =>
    exists_congr fun fd => ?_
  rw [List.mem_cons, or_iff_right]
  exact fun same => other path flags mode (congrArg Sigma.fst same).symm

/-- Calls besides `open` try to open no file. -/
theorem irrelevant_tried {op : HelperOp} (other : ∀ path flags mode, op ≠ .openFile path flags mode) :
    Irrelevant Tried op := by
  intro answer events
  unfold Tried
  refine exists_congr fun path => exists_congr fun flags => exists_congr fun mode =>
    exists_congr fun opened => ?_
  rw [List.mem_cons, or_iff_right]
  exact fun same => other path flags mode (congrArg Sigma.fst same).symm

/-- Only the identity of root is clean. -/
theorem endsClean_identity {euid egid : UInt32} :
    EndsClean (.identity euid egid) .returned ↔ euid = 0 ∧ egid = 0 := by
  simp [EndsClean, Holdings.root, Holdings.identity]

/-- A background transfer that returns without a way back to root when its sandbox fails, or when it
has nothing to do with a file and leaves the identity alone. -/
theorem clean_background {file : List HelperEvent → Prop} (start : ¬ file [])
    (other : ∀ op, (∀ path flags mode, op ≠ .openFile path flags mode) → Irrelevant file op)
    (text : List UInt8) {goes : HelperScript HelperOutcome}
    (clean : goes.Every fun events outcome =>
      file events ∧ EndsClean ((Holdings.identity session.uid session.gid).afterAll events) outcome ∨
        (¬ file events ∧ outcome = .returned) ∧
          (Holdings.identity session.uid session.gid).afterAll events =
            .identity session.uid session.gid ∧
          ∀ event ∈ events, event.1.changesIdentity = false) :
    Clean (fun events => file events ∨ StaysRoot euid egid events) (.identity euid egid)
      (sandboxUserToHisHome session >>= fun inside =>
        if inside then goes
        else system (.writeResponse (res.say text)) >>= fun _ => pure HelperOutcome.returned) := by
  have sandbox : (sandboxUserToHisHome session).Only (Irrelevant file) := by
    apply only_sandboxUser <;> intros <;> exact other _ (by simp)
  have both := (leaves_sandboxUser euid egid session session.homeText session.workdirText).conj
    sandbox.every
  refine (Script.every_bind _ _).mpr (both.weaken fun before inside both => ?_)
  obtain ⟨⟨euid', egid', same, stays, dropped⟩, aside⟩ := both
  rw [Holdings.afterAll] at same
  -- nothing behind the sandbox changes the identity or opens a file
  have ends : ∀ after, (Holdings.identity euid' egid').afterAll after = .identity euid' egid' →
      (∀ event ∈ after, event.1.changesIdentity = false) → ¬ file after →
      (EndsClean ((Holdings.identity euid egid).afterAll (before ++ after)) .returned ↔
        file (before ++ after) ∨ StaysRoot euid egid (before ++ after)) := by
    intro after unchanged kept silent
    have left : (Holdings.identity euid egid).afterAll (before ++ after) = .identity euid' egid' := by
      rw [Holdings.afterAll, List.foldl_append, same]
      exact unchanged
    rw [left, endsClean_identity, condition_after aside, or_iff_right silent,
      staysRoot_append before kept, stays]
  cases inside with
  | false =>
    intro sent
    refine ends [⟨.writeResponse (res.say text), sent⟩] rfl (by simp [HelperOp.changesIdentity]) ?_
    rw [other _ (by simp)]
    exact start
  | true =>
    obtain ⟨rfl, rfl⟩ := dropped rfl
    refine clean.weaken fun after outcome holds => ?_
    rcases holds with ⟨opened, clean⟩ | ⟨⟨silent, rfl⟩, unchanged, kept⟩
    · refine iff_of_true ?_ (Or.inl ((condition_after aside after).mpr opened))
      rwa [Holdings.afterAll, List.foldl_append, same]
    · exact ends after unchanged kept silent

/-- What is sent to the server changes nothing that the helper holds. -/
theorem idle_of_toServer (op : HelperOp) (toServer : op.toServer = true) : op.idle = true := by
  cases op <;> first | rfl | exact absurd toServer Bool.false_ne_true

/-- A download ends clean exactly if its file is opened, or it has stayed root until then. -/
theorem clean_download (path : List UInt8) :
    Clean (fun events => Opened events ∨ StaysRoot euid egid events) (.identity euid egid)
      (handleHelperDownload session path res) := by
  refine clean_background session res (by simp [Opened]) (fun op => irrelevant_opened) _ ?_
  intro opened
  cases opened with
  | error text =>
    exact fun sent =>
      Or.inr ⟨⟨by simp [Opened], rfl⟩, rfl, by simp [HelperOp.changesIdentity]⟩
  | ok fd =>
    suffices tidy : Tidy ⟨session.uid, session.gid, [fd], [], 0, false⟩ _ from
      tidy.weaken fun events outcome clean =>
        Or.inl ⟨⟨path, _, _, fd, List.mem_cons_self⟩, clean⟩
    intro locked
    cases locked with
    | error failure => exact fun _ => tidy_endTransfer session.uid session.gid fd (by simp)
    | ok _ =>
      have ending : Tidy ⟨session.uid, session.gid, [fd], [fd], 0, false⟩ (endTransfer fd) :=
        tidy_endTransfer _ _ fd (by simp)
      intro found
      match found with
      | .ok ⟨.regular, mode, size⟩ =>
        intro written
        cases written with
        | false => exact ending
        | true =>
          intro blocks
          have idle : (streamToServer blocks).Only (·.idle = true) :=
            (only_streamToServer blocks).weaken fun op stream => idle_of_toServer op stream.1
          exact leaves_after_idle idle fun _ => ending
      | .error text | .ok ⟨.directory, _, _⟩ | .ok ⟨.link, _, _⟩ | .ok ⟨.other, _, _⟩ =>
        exact fun _ => ending

/-- An upload ends clean exactly if it comes to its file, or it has stayed root until then. -/
theorem clean_upload (path : List UInt8) :
    Clean (fun events => Tried events ∨ StaysRoot euid egid events) (.identity euid egid)
      (handleHelperUpload session path res) := by
  refine clean_background session res (by simp [Tried]) (fun op => irrelevant_tried) _ ?_
  intro opened
  suffices tidy : Tidy ((Holdings.identity session.uid session.gid).after ⟨_, opened⟩) _ from
    tidy.weaken fun events outcome clean =>
      Or.inl ⟨⟨path, _, _, opened, List.mem_cons_self⟩, clean⟩
  cases opened with
  | error text => exact fun _ => tidy_regain session.uid session.gid (Or.inr ⟨rfl, rfl⟩)
  | ok fd =>
    intro locked
    cases locked with
    | error failure =>
      have unlocked : Tidy ⟨session.uid, session.gid, [fd], [], 0, false⟩ (endTransfer fd) :=
        tidy_endTransfer _ _ fd (by simp)
      exact fun _ => unlocked
    | ok _ =>
      have ending : Tidy ⟨session.uid, session.gid, [fd], [fd], 0, false⟩ (endTransfer fd) :=
        tidy_endTransfer _ _ fd (by simp)
      intro written
      cases written with
      | false => exact ending
      | true =>
        intro blocks
        exact leaves_after_idle (only_streamToFile idle_of_worksOnFiles fd blocks) fun _ => ending

end

/-- No call takes one of the ways out that leave something behind. -/
structure Released (euid egid : UInt32) (call : HelperCall) (events : List HelperEvent) : Prop where
  /-- A command that never changes the identity begins as root. -/
  kept : HelperCommand.ofWord call.cmd = none ∨ HelperCommand.ofWord call.cmd = some .login ∨
    HelperCommand.ofWord call.cmd = some .createUser ∨
      HelperCommand.ofWord call.cmd = some .transfer → euid = 0 ∧ egid = 0
  /-- A file that a command creates, or opens to write, is locked. -/
  created : HelperCommand.ofWord call.cmd = some .createFile ∨
    HelperCommand.ofWord call.cmd = some .write → LocksCreated events
  /-- A listing finds as many files as there is room for. -/
  listed : HelperCommand.ofWord call.cmd = some .ls → Fits 0 events
  /-- A download opens its file, or has stayed root until then. -/
  downloaded : HelperCommand.ofWord call.cmd = some .download →
    Opened events ∨ StaysRoot euid egid events
  /-- An upload comes to its file, or has stayed root until then. -/
  uploaded : HelperCommand.ofWord call.cmd = some .upload →
    Tried events ∨ StaysRoot euid egid events

section

variable {euid egid : UInt32} {helper : Helper} {call : HelperCall} {argv : List (List UInt8)}

/-- A command that always ends clean. -/
theorem Tidy.released {cmd : HelperCommand} {script : HelperScript HelperOutcome}
    (tidy : Tidy (.identity euid egid) script) (command : HelperCommand.ofWord call.cmd = some cmd)
    (ordinary : cmd ∈ [HelperCommand.cd, .chmod, .delete, .move, .read]) :
    Clean (Released euid egid call) (.identity euid egid) script := by
  refine tidy.weaken fun events outcome clean => iff_of_true clean ?_
  constructor <;> rw [command] <;> revert ordinary <;> cases cmd <;> simp

/-- A command that leaves the identity alone. -/
theorem Keeps.released {cmd : Option HelperCommand} {script : HelperScript HelperOutcome}
    (keeps : Keeps euid egid script) (command : HelperCommand.ofWord call.cmd = cmd)
    (plain : cmd = none ∨ cmd = some .login ∨ cmd = some .createUser ∨ cmd = some .transfer) :
    Clean (Released euid egid call) (.identity euid egid) script := by
  refine keeps.weaken fun events outcome left => ?_
  obtain ⟨rfl, left⟩ := left
  rw [left, endsClean_identity]
  subst command
  refine ⟨fun root => ?_, fun released => released.kept plain⟩
  have other : ∀ special ∈ [HelperCommand.createFile, .write, .ls, .download, .upload],
      HelperCommand.ofWord call.cmd ≠ some special := by
    rcases plain with plain | plain | plain | plain <;> simp [plain]
  refine ⟨fun _ => root, ?_, ?_, ?_, ?_⟩
  · rintro (create | write)
    · exact absurd create (other _ (by simp))
    · exact absurd write (other _ (by simp))
  · exact fun ls => absurd ls (other _ (by simp))
  · exact fun download => absurd download (other _ (by simp))
  · exact fun upload => absurd upload (other _ (by simp))

/-- A command goes wrong without its arguments, and ends clean on its condition otherwise. -/
theorem clean_execute (args : call.args = some argv) :
    (¬ call.Supplied ∧ helper.execute call argv (.blank call.cmd) = pure .undefined) ∨
      (call.Supplied ∧
        Clean (Released euid egid call) (.identity euid egid)
          (helper.execute call argv (.blank call.cmd))) := by
  apply Helper.execute_cases args (.blank call.cmd)
  case unknown => exact fun command => (keeps_response _).released command (by simp)
  case login => exact fun command _ => (keeps_login _ _).released command (by simp)
  case createUser => exact fun command _ _ => (keeps_createUser _ _ _ _ _).released command (by simp)
  case cd => exact fun command _ => (tidy_changeDirectory _ _ _).released command (by simp)
  case chmod => exact fun command _ _ => (tidy_chmod _ _ _ _).released command (by simp)
  case delete => exact fun command _ => (tidy_delete _ _ _).released command (by simp)
  case move => exact fun command _ _ => (tidy_move _ _ _ _).released command (by simp)
  case read => exact fun command _ => (tidy_read _ _ _ _).released command (by simp)
  case transfer =>
    exact fun command _ _ _ _ => (keeps_transfer _ _ _ _ _ _).released command (by simp)
  case createFile =>
    intro command filename privileges makeDir
    refine (locks_createFile call.session _ filename privileges makeDir).weaken
      fun events outcome clean => clean.trans ⟨fun locks => ?_, fun released => ?_⟩
    · exact ⟨by simp [command], fun _ => locks, by simp [command], by simp [command],
        by simp [command]⟩
    · exact released.created (Or.inl command)
  case write =>
    intro command path
    refine (locks_write call.session _ path call.offset call.data).weaken
      fun events outcome clean => clean.trans ⟨fun locks => ?_, fun released => ?_⟩
    · exact ⟨by simp [command], fun _ => locks, by simp [command], by simp [command],
        by simp [command]⟩
    · exact released.created (Or.inr command)
  case ls =>
    intro command path
    refine (clean_ls call.session _ path helper.rootDir).weaken
      fun events outcome clean => clean.trans ⟨fun fits => ?_, fun released => ?_⟩
    · exact ⟨by simp [command], by simp [command], fun _ => fits, by simp [command],
        by simp [command]⟩
    · exact released.listed command
  case download =>
    intro command path
    refine (clean_download call.session _ path).weaken
      fun events outcome clean => clean.trans ⟨fun opened => ?_, fun released => ?_⟩
    · exact ⟨by simp [command], by simp [command], by simp [command], fun _ => opened,
        by simp [command]⟩
    · exact released.downloaded command
  case upload =>
    intro command path
    refine (clean_upload call.session _ path).weaken
      fun events outcome clean => clean.trans ⟨fun tried => ?_, fun released => ?_⟩
    · exact ⟨by simp [command], by simp [command], by simp [command], by simp [command],
        fun _ => tried⟩
    · exact released.uploaded command

end

/-- For every request, every identity that the helper begins it with and every failure of its calls:
the helper ends the process, or goes on as root with every file closed once and every lock given up,
exactly if the arguments are there and no call takes one of the ways out that leave something
behind. -/
theorem endsClean_serve_iff (helper : Helper) (call : HelperCall) (euid egid : UInt32) :
    (helper.serve call).Every fun events outcome =>
      EndsClean ((Holdings.identity euid egid).afterAll events) outcome ↔
        call.Supplied ∧ Released euid egid call events := by
  have lost : ∀ events, ¬ EndsClean ((Holdings.identity euid egid).afterAll events) .undefined := by
    rintro events (exited | ⟨returned, -⟩)
    · cases exited
    · cases returned
  rw [Helper.serve]
  cases args : call.args with
  | none =>
    refine iff_of_false (lost []) fun supplied => ?_
    obtain ⟨argv, given, -⟩ := supplied.1
    rw [args] at given
    cases given
  | some argv =>
    rcases clean_execute args with ⟨missing, undefined⟩ | ⟨supplied, clean⟩
    · simp only []
      rw [undefined]
      exact iff_of_false (lost []) fun supplied => missing supplied.1
    · exact clean.weaken fun events outcome holds => holds.trans (and_iff_right supplied).symm

/-- A user who downloads a file that does not exist leaves the helper with the identity of the
user. -/
theorem not_endsClean_missing : ¬ ∀ (helper : Helper) (call : HelperCall) (egid : UInt32),
    (helper.serve call).Every fun events outcome =>
      EndsClean ((Holdings.identity 0 egid).afterAll events) outcome := by
  intro all
  let session : ClientSession := ClientSession.zero.login
    ((HelperResponse.blank 1).login ⟨str "alice", 1000, 1000, str "/srv/alice", by decide⟩)
    (str "alice")
  have run := all ⟨str "/srv", str "/srv/.lock", by decide, by decide⟩
    ⟨10, 1, some [str "missing"], session, 0, []⟩ 1001 true (.ok ()) 0 true true true
    (.error (str "No such file or directory")) true
  exact absurd (endsClean_identity.mp run).1 (by decide +kernel)

end FileServer
