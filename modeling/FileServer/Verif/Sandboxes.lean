import FileServer.Model.FileSystem
import FileServer.Verif.HelperFraming

/-!
# The sandbox of a session on a file system

Where a command of the helper finds itself after `chroot` and `chdir`, and what a change of
directory answers. The home and the current directory of a session are paths without detours, so the
sandbox is entered exactly where every directory on the way to the current directory stands.
-/
namespace FileServer

open FileServer.Lib

variable {ω : Type}

/-- The system grants a call about which only the tree should decide. -/
def HelperOp.Granted : (op : HelperOp) → op.Answer → Prop
  | .getuid, uid => uid = 0
  | .initgroups .., done | .setegid _, done | .seteuid _, done | .chroot _, done => done = true
  | .chdir _, done => done = .ok ()
  | .getcwd, cwd => cwd ≠ none
  | .opendir _, names => ∃ listed, names = .ok listed
  | .writeResponse _, sent => sent = true
  | _, _ => True

/-- The system grants all such calls. -/
def HostSystem.Grants (kernel : HostSystem ω) : Prop :=
  ∀ world op, HelperOp.Granted op (kernel.answer world op).1

/-- The tree has no part in the call. -/
def HelperOp.outside : HelperOp → Bool
  | getpwnam _ | adduser .. | deluser _ | getuid | initgroups .. | setegid _ | seteuid _ => true
  | closedir | setLock .. | clearLock _ | fchown .. => true
  | writeResponse _ | writeServer _ | readServer _ => true
  | _ => false

/-- The call changes neither the tree nor the view of the process. -/
def HelperOp.reads : HelperOp → Bool
  | .chroot _ | .chdir _ | .mkdir .. | .rmdir _ | .unlink _ | .rename .. => false
  | .write .. | .writeAll .. => false
  | .openFile _ flags _ | .openat _ _ flags _ => !flags.creat && !flags.trunc
  | _ => true

namespace Host

variable (kernel : HostSystem ω) (host : Host ω)

/-- The system alone answers a call that the tree has no part in. -/
theorem calls_outside (op : HelperOp) (outside : op.outside = true) : ∃ answer world,
    calls kernel host op = (answer, { host with world }) ∧
      (kernel.Grants → HelperOp.Granted op answer) := by
  have granted : kernel.Grants → HelperOp.Granted op (kernel.answer host.world op).1 :=
    fun grants => grants host.world op
  cases op <;> first | exact ⟨_, _, rfl, granted⟩ | exact absurd outside Bool.false_ne_true

/-- The root is changed to a directory, or nothing happens. -/
theorem calls_chroot (path : List UInt8) :
    (∃ world, calls kernel host (.chroot path) = (false, { host with world }) ∧
      (kernel.Grants → host.tree.findDirectory host.view path = none)) ∨
    ∃ top world, host.tree.findDirectory host.view path = some top ∧
      calls kernel host (.chroot path) =
        (true, { host with world, view := ⟨top, host.view.cwd⟩ }) := by
  let granted : Bool := (kernel.answer host.world (.chroot path)).1
  let world := (kernel.answer host.world (.chroot path)).2
  let asked : Host ω := { host with world }
  have called : calls kernel host (.chroot path) =
      asked.settle (kernel.written host.world) (.chroot path) granted := rfl
  rw [called]
  cases found : host.tree.findDirectory host.view path with
  | none => exact Or.inl ⟨world, asked.settle_chroot_none _ found _, fun _ => rfl⟩
  | some top =>
    rw [asked.settle_chroot _ found]
    cases done : granted with
    | false =>
      refine Or.inl ⟨world, rfl, fun grants => ?_⟩
      exact absurd (done.symm.trans (grants host.world (.chroot path))) Bool.false_ne_true
    | true => exact Or.inr ⟨top, world, rfl, rfl⟩

/-- The current directory is changed, or nothing happens. -/
theorem calls_chdir (path : List UInt8) :
    (∃ failure world, calls kernel host (.chdir path) = (.error failure, { host with world }) ∧
      (kernel.Grants → host.tree.findDirectory host.view path = none)) ∨
    ∃ here world, host.tree.findDirectory host.view path = some here ∧
      calls kernel host (.chdir path) =
        (.ok (), { host with world, view := ⟨host.view.root, here⟩ }) := by
  let granted : Except Failure Unit := (kernel.answer host.world (.chdir path)).1
  let world := (kernel.answer host.world (.chdir path)).2
  have called : calls kernel host (.chdir path) = attempt { host with world } granted fun _ =>
      (host.tree.findDirectory host.view path).map fun here =>
        ((), { host with world, view := ⟨host.view.root, here⟩ }) := rfl
  rw [called]
  unfold attempt
  cases done : granted with
  | error failure =>
    refine Or.inl ⟨failure, world, rfl, fun grants => ?_⟩
    exact absurd (done.symm.trans (grants host.world (.chdir path))) nofun
  | ok _ =>
    cases found : host.tree.findDirectory host.view path with
    | none => exact Or.inl ⟨refusal, world, rfl, fun _ => rfl⟩
    | some here => exact Or.inr ⟨here, world, rfl, rfl⟩

/-- A condition on the host is kept by a call if it is kept where the tree has its part. -/
theorem attempt_keeps {α β : Type} {condition : Host ω → Prop} {granted : Except Failure α}
    {result : α → Option (β × Host ω)} (start : condition host)
    (keeps : ∀ value answer after, result value = some (answer, after) → condition after) :
    condition (host.attempt granted result).2 := by
  unfold attempt
  cases granted with
  | error failure => exact start
  | ok value =>
    cases settled : result value with
    | none => simpa only [settled] using start
    | some pair => simpa only [settled] using keeps value pair.1 pair.2 settled

/-- A condition on the host is kept by a call that opens a file if it is kept with the file. -/
theorem openFrom_keeps {condition : Host ω → Prop} (view : View) (path : List UInt8)
    (flags : OpenFlags) (granted : Except Failure Descriptor) (start : condition host)
    (keeps : ∀ fd place tree, host.tree.openFile view path flags.mode = some (place, tree) →
      condition { host with tree, files := (fd, ⟨place, 0⟩) :: host.files }) :
    condition (host.openFrom view path flags granted).2 := by
  refine attempt_keeps host start fun fd answer after settled => ?_
  split at settled
  · cases settled
  · obtain ⟨⟨place, tree⟩, opened, same⟩ := Option.map_eq_some_iff.mp settled
    cases same
    exact keeps fd place tree opened

/-- The current directory as `getcwd` spells it, below the root of the process. -/
def spelled (view : View) : List UInt8 := Location.render (view.cwd.drop view.root.length)

/-- The path of the current directory, if it lies below the root and has room. -/
theorem calls_getcwd : ∃ answer world, calls kernel host .getcwd = (answer, { host with world }) ∧
    (∀ cwd, answer = some cwd → cwd.val = spelled host.view ∧ host.view.root <+: host.view.cwd) ∧
    (kernel.Grants → host.view.root <+: host.view.cwd → NulFree (spelled host.view) →
      (spelled host.view).length < absPath → answer ≠ none) := by
  let granted : Option { path : List UInt8 // NulFree path ∧ path.length < absPath } :=
    (kernel.answer host.world .getcwd).1
  let world := (kernel.answer host.world .getcwd).2
  have called : calls kernel host .getcwd =
      if known : NulFree (spelled host.view) ∧ (spelled host.view).length < absPath then
        (granted.bind fun _ => if host.view.root <+: host.view.cwd then
          some ⟨spelled host.view, known⟩ else none, { host with world })
      else (none, { host with world }) := rfl
  by_cases known : NulFree (spelled host.view) ∧ (spelled host.view).length < absPath
  · rw [dif_pos known] at called
    refine ⟨_, world, called, fun cwd answered => ?_, fun grants inside _ _ => ?_⟩
    · obtain ⟨_, -, found⟩ := Option.bind_eq_some_iff.mp answered
      split at found
      · next inside =>
        cases found
        exact ⟨rfl, inside⟩
      · cases found
    · cases done : granted with
      | none => exact absurd done (grants host.world .getcwd)
      | some path => simp [inside]
  · rw [dif_neg known] at called
    exact ⟨_, world, called, nofun, fun _ _ clean short => absurd ⟨clean, short⟩ known⟩

/-- The host with other files open, and another state of the system. -/
def Same (host after : Host ω) : Prop := ∃ files world, after = { host with files, world }

/-- A call that only reads leaves the tree and the view. -/
theorem calls_reads (op : HelperOp) (reads : op.reads = true) :
    host.Same (calls kernel host op).2 := by
  let asked : Host ω := { host with world := (kernel.answer host.world op).2 }
  have still : host.Same asked := ⟨host.files, _, rfl⟩
  have opened : ∀ view path (flags : OpenFlags) granted, (!flags.creat && !flags.trunc) = true →
      host.Same (asked.openFrom view path flags granted).2 := by
    intro view path flags granted plain
    simp only [Bool.and_eq_true, Bool.not_eq_true'] at plain
    refine openFrom_keeps asked view path flags granted still fun fd place tree found => ?_
    obtain ⟨rfl, -⟩ := FileTree.openFile_reads plain.1 plain.2 found
    exact ⟨_, _, rfl⟩
  have mapped : ∀ {α β γ : Type} (granted : Except Failure α) (found : α → Option γ)
      (next : α → γ → β × Host ω), (∀ value part, host.Same (next value part).2) →
        host.Same (asked.attempt granted fun value => (found value).map (next value)).2 := by
    intro α β γ granted found next same
    refine attempt_keeps asked still fun value answer after settled => ?_
    obtain ⟨part, -, whole⟩ := Option.map_eq_some_iff.mp settled
    have kept := same value part
    rwa [whole] at kept
  by_cases outside : op.outside = true
  · obtain ⟨answer, world, called, -⟩ := calls_outside kernel host op outside
    rw [called]
    exact ⟨host.files, world, rfl⟩
  · cases op with
    | openFile path flags mode => exact opened _ _ _ _ reads
    | openat directory path flags mode =>
      show host.Same (asked.settle (kernel.written host.world) (.openat directory path flags mode) _).2
      cases here : host.file directory with
      | some file =>
        rw [asked.settle_openat _ here]
        exact opened _ _ _ _ reads
      | none =>
        rw [asked.settle_openat_none _ here]
        exact attempt_keeps asked still (by simp)
    | getcwd =>
      obtain ⟨answer, world, called, -⟩ := calls_getcwd kernel host
      rw [called]
      exact ⟨host.files, world, rfl⟩
    | readAgain fd limit =>
      show host.Same (asked.readAgain fd _).2
      unfold readAgain
      cases asked.contentOf fd with
      | none => exact still
      | some found => exact ⟨_, _, rfl⟩
    | seekSet fd offset =>
      refine attempt_keeps asked still fun value answer after settled => ?_
      split at settled
      · cases settled
      · obtain ⟨file, -, same⟩ := Option.map_eq_some_iff.mp settled
        cases same
        exact ⟨_, _, rfl⟩
    | close fd => exact ⟨_, _, rfl⟩
    | chmod path mode => exact mapped _ _ _ fun _ _ => still
    | chown path uid gid => exact mapped _ _ _ fun _ _ => still
    | opendir path => exact mapped _ _ _ fun _ _ => still
    | seekEnd fd => exact mapped _ _ _ fun _ _ => ⟨_, _, rfl⟩
    | read fd limit => exact mapped _ _ _ fun _ _ => ⟨_, _, rfl⟩
    | stat path => exact mapped _ _ _ fun _ _ => still
    | fstat fd => exact mapped _ _ _ fun _ _ => still
    | _ => first | exact absurd rfl outside | exact absurd reads Bool.false_ne_true

/-- A directory is listed, or nothing happens. -/
theorem calls_opendir (path : List UInt8) :
    (∃ failure world, calls kernel host (.opendir path) = (.error failure, { host with world }) ∧
      (kernel.Grants → host.tree.findDirectory host.view path = none)) ∨
    ∃ place names world, host.tree.findDirectory host.view path = some place ∧
      calls kernel host (.opendir path) = (.ok names, { host with world }) := by
  let granted : Except Failure (List { name : List UInt8 // NulFree name ∧ name ≠ [] }) :=
    (kernel.answer host.world (.opendir path)).1
  let world := (kernel.answer host.world (.opendir path)).2
  have called : calls kernel host (.opendir path) = attempt { host with world } granted fun _ =>
      (host.tree.findDirectory host.view path).map fun place =>
        ((host.tree.names place).filterMap fun name =>
          if sound : NulFree name ∧ name ≠ [] then some ⟨name, sound⟩ else none,
            { host with world }) := rfl
  rw [called]
  unfold attempt
  cases done : granted with
  | error failure =>
    refine Or.inl ⟨failure, world, rfl, fun grants => ?_⟩
    obtain ⟨listed, same⟩ := grants host.world (.opendir path)
    exact absurd (done.symm.trans same) nofun
  | ok _ =>
    cases found : host.tree.findDirectory host.view path with
    | none => exact Or.inl ⟨refusal, world, rfl, fun _ => rfl⟩
    | some place => exact Or.inr ⟨place, _, world, rfl, rfl⟩

/-- A script that only reads leaves the tree and the view. -/
theorem ends_reads {α : Type} {script : HelperScript α} (reads : script.Only (·.reads = true)) :
    script.Ends (calls kernel) host fun _ _ after => host.Same after := by
  refine (reads.runOn (calls kernel) host.Same (fun _ _ => True) ?_ ⟨host.files, host.world, rfl⟩).1
  rintro middle op ⟨files, world, rfl⟩ reads
  obtain ⟨files, world, same⟩ := calls_reads kernel { host with files, world } op reads
  exact ⟨⟨files, world, same⟩, trivial⟩

end Host

/-- What the two calls of a sandbox lead to. -/
def Host.Enters (host : Host ω) (root directory : List UInt8) (view : View) : Prop :=
  host.tree.findDirectory host.view root = some view.root ∧
    host.tree.findDirectory ⟨view.root, host.view.cwd⟩ directory = some view.cwd

/-- The sandbox leads to one place at most. -/
theorem Host.Enters.unique {host : Host ω} {root directory : List UInt8} {first second : View}
    (one : host.Enters root directory first) (other : host.Enters root directory second) :
    first = second := by
  have roots : first.root = second.root := Option.some.inj (one.1.symm.trans other.1)
  have inside := one.2
  rw [roots, other.2] at inside
  have cwds : second.cwd = first.cwd := Option.some.inj inside
  cases first
  cases second
  cases roots
  cases cwds
  rfl

section

variable (kernel : HostSystem ω)

/-- Dropping the privileges leaves the tree and the view. -/
theorem ends_dropPrivilegesTemp (host : Host ω) (session : ClientSession) :
    (dropPrivilegesTemp session).Ends (Host.calls kernel) host fun _ dropped after =>
      (∃ world, after = { host with world }) ∧ (kernel.Grants → dropped = true) := by
  obtain ⟨uid, first, called, granted⟩ := Host.calls_outside kernel host .getuid rfl
  refine Script.Ends.call called ?_
  show Script.Ends _ _ _ (if uid ≠ 0 then pure false else _)
  split
  · next other => exact ⟨⟨first, rfl⟩, fun grants => absurd (granted grants) other⟩
  · obtain ⟨grouped, second, called, granted⟩ := Host.calls_outside kernel
      { host with world := first } (.initgroups session.usernameText session.gid) rfl
    refine Script.Ends.call called ?_
    cases grouped with
    | false => exact ⟨⟨second, rfl⟩, granted⟩
    | true =>
      obtain ⟨changed, third, called, granted⟩ := Host.calls_outside kernel
        { host with world := second } (.setegid session.gid) rfl
      refine Script.Ends.call called ?_
      cases changed with
      | false => exact ⟨⟨third, rfl⟩, granted⟩
      | true =>
        obtain ⟨dropped, fourth, called, granted⟩ := Host.calls_outside kernel
          { host with world := third } (.seteuid session.uid) rfl
        exact Script.Ends.call called ⟨⟨fourth, rfl⟩, granted⟩

/-- A sandbox that is entered leads where its paths do; one that is not leaves the tree. -/
theorem ends_sandboxUser (host : Host ω) (session : ClientSession) (root directory : List UInt8) :
    (sandboxUser session root directory).Ends (Host.calls kernel) host fun _ inside after =>
      (∃ view world, after = { host with view, world } ∧
        (inside = true → host.Enters root directory view)) ∧
      (kernel.Grants → (∃ view, host.Enters root directory view) → inside = true) := by
  obtain ⟨first, failed, none⟩ | ⟨top, first, found, rooted⟩ := host.calls_chroot kernel root
  · refine Script.Ends.call failed ⟨⟨host.view, first, rfl, nofun⟩, fun grants stands => ?_⟩
    obtain ⟨view, enters, -⟩ := stands
    exact absurd ((none grants).symm.trans enters) nofun
  · refine Script.Ends.call rooted ?_
    let middle : Host ω := { host with world := first, view := ⟨top, host.view.cwd⟩ }
    obtain ⟨failure, second, failed, none⟩ | ⟨here, second, inside, moved⟩ :=
      middle.calls_chdir kernel directory
    · refine Script.Ends.call failed ⟨⟨_, second, rfl, nofun⟩, fun grants stands => ?_⟩
      obtain ⟨view, enters, below⟩ := stands
      have same : view.root = top := Option.some.inj (enters.symm.trans found)
      rw [same] at below
      exact absurd ((none grants).symm.trans below) nofun
    · refine Script.Ends.call moved ?_
      refine (ends_dropPrivilegesTemp kernel _ session).weaken fun events dropped after ends => ?_
      obtain ⟨⟨world, rfl⟩, granted⟩ := ends
      exact ⟨⟨⟨top, here⟩, world, rfl, fun _ => ⟨found, inside⟩⟩, fun grants _ => granted grants⟩

/-- The way back to root leaves the tree and the view. -/
theorem ends_regainRoot (host : Host ω) :
    regainRoot.Ends (Host.calls kernel) host fun _ regained after =>
      (∃ world, after = { host with world }) ∧ (kernel.Grants → regained = true) := by
  obtain ⟨changed, first, called, granted⟩ := Host.calls_outside kernel host (.seteuid 0) rfl
  refine Script.Ends.call called ?_
  cases changed with
  | false => exact ⟨⟨first, rfl⟩, granted⟩
  | true =>
    obtain ⟨regained, second, called, granted⟩ := Host.calls_outside kernel
      { host with world := first } (.setegid 0) rfl
    exact Script.Ends.call called ⟨⟨second, rfl⟩, granted⟩

end

/-- How a command ends that answers once: where it ends, what it answers, and that it answers if the
system grants its calls. -/
structure Answers (kernel : HostSystem ω) (host : Host ω) (res : HelperResponse)
    (events : List HelperEvent) (after : Host ω) : Prop where
  /-- The tree and the view. -/
  kept : ∃ world, after = { host with world }
  /-- The answer. -/
  only : ∀ response sent, ⟨.writeResponse response, sent⟩ ∈ events → response = res
  /-- No directory is asked for. -/
  unasked : ∀ cwd, ⟨.getcwd, cwd⟩ ∉ events
  /-- It is given. -/
  given : kernel.Grants → ⟨.writeResponse res, true⟩ ∈ events

section

variable (kernel : HostSystem ω)

/-- The end of most commands answers once. -/
theorem ends_regainAndRespond (host : Host ω) (res : HelperResponse) :
    (regainAndRespond res).Ends (Host.calls kernel) host fun events _ after =>
      Answers kernel host res events after := by
  have quiet : regainRoot.Only fun op => op ≠ .getcwd ∧ ∀ other, op ≠ .writeResponse other :=
    only_regainRoot ⟨nofun, nofun⟩ ⟨nofun, nofun⟩
  apply Script.Ends.bind
  refine ((ends_regainRoot kernel host).conj (quiet.every.ends _ _)).weaken
    fun events regained middle both => ?_
  obtain ⟨⟨⟨first, rfl⟩, granted⟩, silent⟩ := both
  cases regained with
  | false =>
    refine Script.ends_pure.mpr ?_
    rw [List.append_nil]
    exact ⟨⟨first, rfl⟩, fun response sent member => absurd rfl ((silent _ member).2 response),
      fun cwd member => (silent _ member).1 rfl,
      fun grants => absurd (granted grants) Bool.false_ne_true⟩
  | true =>
    obtain ⟨sent, second, called, granted⟩ := Host.calls_outside kernel
      { host with world := first } (.writeResponse res) rfl
    refine Script.Ends.call called ⟨⟨second, rfl⟩, fun response other member => ?_,
      fun cwd member => ?_, fun grants => ?_⟩
    · rcases List.mem_append.mp member with earlier | last
      · exact absurd rfl ((silent _ earlier).2 response)
      · cases List.mem_singleton.mp last
        rfl
    · rcases List.mem_append.mp member with earlier | last
      · exact (silent _ earlier).1 rfl
      · cases List.mem_singleton.mp last
    · obtain rfl : sent = true := granted grants
      exact List.mem_append_right _ List.mem_cons_self

/-- How a change of directory ends. -/
structure Changes (kernel : HostSystem ω) (host : Host ω) (session : ClientSession)
    (path : List UInt8) (res : HelperResponse) (events : List HelperEvent) (after : Host ω) :
    Prop where
  /-- The tree stays as it is. -/
  kept : ∃ view world, after = { host with view, world }
  /-- The directory is asked for where the path leads in the sandbox. -/
  entered : ∀ cwd, ⟨.getcwd, cwd⟩ ∈ events → ∃ view,
    host.Enters session.homeText session.workdirText view ∧ after.view.root = view.root ∧
      host.tree.findDirectory view path = some after.view.cwd
  /-- A success answers with the path of that directory. -/
  answered : ∀ response sent, ⟨.writeResponse response, sent⟩ ∈ events → response.status = 0 →
    ∃ cwd, ⟨.getcwd, some cwd⟩ ∈ events ∧ after.view.root <+: after.view.cwd ∧
      cwd.val = Host.spelled after.view ∧
      response = (res.succeed (str "Directory changed")).changed cwd.val
  /-- Where the sandbox stands and the path leads to a directory with a path that has room, the
  command succeeds, unless the system refuses a call. -/
  succeeds : kernel.Grants → ∀ view place,
    host.Enters session.homeText session.workdirText view →
    host.tree.findDirectory view path = some place → view.root <+: place →
    NulFree (Host.spelled ⟨view.root, place⟩) →
    (Host.spelled ⟨view.root, place⟩).length < absPath →
      ∃ response, ⟨.writeResponse response, true⟩ ∈ events ∧ response.status = 0

/-- Every change of directory ends so. -/
theorem ends_changeDirectory (host : Host ω) (session : ClientSession) (path : List UInt8)
    {res : HelperResponse} (failed : res.status ≠ 0) :
    (changeDirectory session path res).Ends (Host.calls kernel) host fun events _ after =>
      Changes kernel host session path res events after := by
  have quiet : (sandboxUserToHisHome session).Only fun op =>
      op ≠ .getcwd ∧ ∀ other, op ≠ .writeResponse other := by
    apply only_sandboxUser <;> intros <;> exact ⟨by simp, by simp⟩
  apply Script.Ends.bind
  refine ((ends_sandboxUser kernel host session session.homeText session.workdirText).conj
    (quiet.every.ends _ _)).weaken fun before inside middle both => ?_
  obtain ⟨⟨⟨view, first, rfl, enters⟩, granted⟩, silent⟩ := both
  cases inside with
  | false =>
    obtain ⟨sent, second, called, -⟩ := Host.calls_outside kernel { host with view, world := first }
      (.writeResponse (res.say (str "Internal server error"))) rfl
    refine Script.Ends.call called (Script.ends_pure.mpr ⟨⟨view, second, rfl⟩, fun cwd member => ?_,
      fun response other member success => ?_, fun grants view place enters => ?_⟩)
    · rcases List.mem_append.mp member with earlier | last
      · exact absurd rfl (silent _ earlier).1
      · cases List.mem_singleton.mp last
    · rcases List.mem_append.mp member with earlier | last
      · exact absurd rfl ((silent _ earlier).2 response)
      · cases List.mem_singleton.mp last
        exact absurd success failed
    · exact absurd (granted grants ⟨view, enters⟩) Bool.false_ne_true
  | true =>
    let inHome : Host ω := { host with view, world := first }
    have entered := enters rfl
    obtain ⟨failure, second, moved, none⟩ | ⟨here, second, found, moved⟩ :=
      inHome.calls_chdir kernel path
    · refine Script.Ends.call moved ?_
      refine (ends_regainAndRespond kernel { inHome with world := second }
        ((res.say (str "cd failed: " ++ failure)).changed [])).weaken fun tail outcome after ends => ?_
      obtain ⟨⟨last, rfl⟩, only, unasked, given⟩ := ends
      refine ⟨⟨view, last, rfl⟩, fun cwd member => ?_, fun response other member success => ?_,
        fun grants other place enters leads => ?_⟩
      · rcases List.mem_append.mp member with earlier | later
        · exact absurd rfl (silent _ earlier).1
        · exact absurd ((List.mem_cons.mp later).resolve_left nofun) (unasked cwd)
      · rcases List.mem_append.mp member with earlier | later
        · exact absurd rfl ((silent _ earlier).2 response)
        · rw [only _ _ ((List.mem_cons.mp later).resolve_left nofun)] at success
          exact absurd success failed
      · rw [enters.unique entered] at leads
        exact absurd ((none grants).symm.trans leads) nofun
    · refine Script.Ends.call moved ?_
      let there : Host ω := { inHome with world := second, view := ⟨view.root, here⟩ }
      obtain ⟨answer, third, asked, told, granted⟩ := there.calls_getcwd kernel
      refine Script.Ends.call asked ?_
      cases answer with
      | none =>
        refine (ends_regainAndRespond kernel { there with world := third }
          ((res.say (str "Failed to resolve directory")).changed [])).weaken
            fun tail outcome after ends => ?_
        obtain ⟨⟨last, rfl⟩, only, unasked, given⟩ := ends
        refine ⟨⟨_, last, rfl⟩, fun cwd member => ⟨view, entered, rfl, found⟩,
          fun response other member success => ?_,
          fun grants other place enters leads inside clean short => ?_⟩
        · rcases List.mem_append.mp member with earlier | later
          · exact absurd rfl ((silent _ earlier).2 response)
          · have tailed := (List.mem_cons.mp later).resolve_left nofun
            rw [only _ _ ((List.mem_cons.mp tailed).resolve_left nofun)] at success
            exact absurd success failed
        · rw [enters.unique entered] at leads inside clean short
          obtain rfl : here = place := Option.some.inj (found.symm.trans leads)
          exact absurd rfl (granted grants inside clean short)
      | some cwd =>
        refine (ends_regainAndRespond kernel { there with world := third }
          ((res.succeed (str "Directory changed")).changed cwd)).weaken
            fun tail outcome after ends => ?_
        obtain ⟨⟨last, rfl⟩, only, unasked, given⟩ := ends
        refine ⟨⟨_, last, rfl⟩, fun _ member => ⟨view, entered, rfl, found⟩,
          fun response other member success => ?_, fun grants _ _ _ _ _ _ _ => ?_⟩
        · rcases List.mem_append.mp member with earlier | later
          · exact absurd rfl ((silent _ earlier).2 response)
          · have tailed := (List.mem_cons.mp later).resolve_left nofun
            refine ⟨cwd, ?_, (told cwd rfl).2, (told cwd rfl).1,
              only _ _ ((List.mem_cons.mp tailed).resolve_left nofun)⟩
            exact List.mem_append_right _ (List.mem_cons_of_mem _ List.mem_cons_self)
        · refine ⟨_, List.mem_append_right _ (List.mem_cons_of_mem _
            (List.mem_cons_of_mem _ (given grants))), rfl⟩

/-- How a listing ends. -/
structure Lists (kernel : HostSystem ω) (host : Host ω) (session : ClientSession)
    (path rootDir : List UInt8) (events : List HelperEvent) (after : Host ω) : Prop where
  /-- The tree stays as it is. -/
  kept : after.tree = host.tree
  /-- A directory is opened where the path leads in the sandbox. -/
  opened : ∀ names, ⟨.opendir path, .ok names⟩ ∈ events →
    host.Enters rootDir (formatted 2056 (str "/" ++ session.usernameText ++ session.workdirText))
      after.view ∧ host.tree.findDirectory after.view path ≠ none
  /-- Where the sandbox stands and the path leads to a directory, it is opened, unless the system
  refuses a call. -/
  opens : kernel.Grants → ∀ view place,
    host.Enters rootDir (formatted 2056 (str "/" ++ session.usernameText ++ session.workdirText))
      view → host.tree.findDirectory view path = some place →
        ∃ names, ⟨.opendir path, .ok names⟩ ∈ events

/-- Every listing ends so. -/
theorem ends_handleHelperLs (host : Host ω) (session : ClientSession)
    (path rootDir : List UInt8) (res : HelperResponse) :
    (handleHelperLs session path rootDir res).Ends (Host.calls kernel) host fun events _ after =>
      Lists kernel host session path rootDir events after := by
  have quiet : (sandboxUserToRoot session rootDir).Only fun op => ∀ path, op ≠ .opendir path := by
    apply only_sandboxUser <;> intros <;> simp
  apply Script.Ends.bind
  refine ((ends_sandboxUser kernel host session rootDir
    (formatted 2056 (str "/" ++ session.usernameText ++ session.workdirText))).conj
      (quiet.every.ends _ _)).weaken fun before inside middle both => ?_
  obtain ⟨⟨⟨view, first, rfl, enters⟩, granted⟩, silent⟩ := both
  cases inside with
  | false =>
    obtain ⟨sent, second, called, -⟩ := Host.calls_outside kernel { host with view, world := first }
      (.writeResponse (res.say (str "Internal server error"))) rfl
    refine Script.Ends.call called (Script.ends_pure.mpr ⟨rfl, fun names member => ?_,
      fun grants view place enters => ?_⟩)
    · rcases List.mem_append.mp member with earlier | last
      · exact absurd rfl (silent _ earlier path)
      · cases List.mem_singleton.mp last
    · exact absurd (granted grants ⟨view, enters⟩) Bool.false_ne_true
  | true =>
    let inRoot : Host ω := { host with view, world := first }
    have entered := enters rfl
    obtain ⟨failure, second, refused, none⟩ | ⟨place, names, second, found, listed⟩ :=
      inRoot.calls_opendir kernel path
    · refine Script.Ends.call refused ?_
      have tail : (regainAndRespond ((res.say (str "ls failed: " ++ failure)).listed 0)).Only
          fun op => op.reads = true ∧ ∀ path, op ≠ .opendir path := by
        apply only_regainAndRespond <;> exact ⟨rfl, by simp⟩
      refine ((Host.ends_reads kernel { inRoot with world := second } (tail.weaken fun _ => And.left)).conj
        (tail.every.ends _ _)).weaken fun later outcome after both => ?_
      obtain ⟨⟨files, world, rfl⟩, aside⟩ := both
      refine ⟨rfl, fun names member => ?_, fun grants other place enters leads => ?_⟩
      · rcases List.mem_append.mp member with earlier | later
        · exact absurd rfl (silent _ earlier path)
        · exact absurd rfl ((aside _ ((List.mem_cons.mp later).resolve_left (by simp))).2 path)
      · rw [enters.unique entered] at leads
        exact absurd ((none grants).symm.trans leads) (by simp)
    · refine Script.Ends.call listed ?_
      show Script.Ends _ _ _ (listEntries path names [] >>= _)
      refine (Host.ends_reads kernel { inRoot with world := second } (Script.Only.bind
        (only_listEntries (fun _ => rfl) path names []) fun listed => ?_)).weaken
          fun later outcome after same => ?_
      · cases listed with
        | none => trivial
        | some entries => apply only_endListing <;> intros <;> rfl
      obtain ⟨files, world, rfl⟩ := same
      refine ⟨rfl, fun _ _ => ⟨entered, ?_⟩, fun _ _ _ _ _ => ⟨names, ?_⟩⟩
      · exact fun none => absurd (found.symm.trans none) (by simp)
      · exact List.mem_append_right _ List.mem_cons_self

end

/-- The session of a user logged in, with its home and a current directory. -/
def aliceAt (workdir : Location) : ClientSession :=
  (ClientSession.zero.login
    ((HelperResponse.blank 1).login ⟨str "alice", 1000, 1000, str "/srv/alice", by decide⟩)
    (str "alice")).changeDirectory ((HelperResponse.blank 2).changed workdir.render)

/-- A file in the home of a user. -/
def aliceNotes : Host UInt32 where
  tree := [⟨[str "srv"], .directory⟩, ⟨[str "srv", str "alice"], .directory⟩,
    ⟨[str "srv", str "alice", str "notes"], .regular (str "draft")⟩].toAList
  view := ⟨[], []⟩
  files := []
  start := []
  world := 3

/-- The home of the user. -/
def aliceHome : View := ⟨[str "srv", str "alice"], [str "srv", str "alice"]⟩

/-- The sandbox of the user is her home. -/
theorem enters_alice :
    aliceNotes.Enters (aliceAt []).homeText (aliceAt []).workdirText aliceHome :=
  ⟨by decide +kernel, by decide +kernel⟩

end FileServer
