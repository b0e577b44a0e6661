import FileServer.Verif.OpenFiles
import FileServer.Verif.Reads
import FileServer.Verif.TransferPaths

/-!
# Directories that the helper takes away

Only `rmdir` and `rename` can take a directory from the tree. The helper renames what it has opened
for writing, which is no directory, and removes a directory for a `delete` that names it; so every
other request leaves all directories, and a way of directories loses nothing but its last one.
-/
namespace FileServer

open FileServer.Lib

variable {ω : Type}

/-- The call can take no directory away. -/
def HelperOp.steady : HelperOp → Bool
  | rmdir _ | rename .. => false
  | _ => true

namespace Host

variable (kernel : HostSystem ω) (host : Host ω)

/-- Every directory is still there. -/
def KeepsDirectories (after : Host ω) : Prop := host.tree.Covers after.tree

/-- What a call leaves to its process: the directory in which it was started, and all directories unless
it can take one away. -/
structure Leaves (op : HelperOp) (after : Host ω) : Prop where
  /-- The directory in which the process was started. -/
  start : after.start = host.start
  /-- The directories. -/
  directories : op.steady = true → host.KeepsDirectories after

variable {host} in
/-- Bytes are stored in an open file. -/
theorem leaves_store {asked after : Host ω} {op : HelperOp} {fd : Descriptor} {bytes : List UInt8}
    (same : host.Leaves op asked) (stored : asked.store fd bytes = some after) :
    host.Leaves op after := by
  obtain ⟨file, -, written⟩ := Option.bind_eq_some_iff.mp stored
  obtain ⟨tree, changed, rfl⟩ := Option.map_eq_some_iff.mp written
  exact ⟨same.start, fun steady => (same.directories steady).trans (FileTree.covers_write changed)⟩

/-- Every call leaves that. -/
theorem leaves_calls (op : HelperOp) : host.Leaves op (calls kernel host op).2 := by
  let asked : Host ω := { host with world := (kernel.answer host.world op).2 }
  have still : host.Leaves op asked := ⟨rfl, fun _ _ => id⟩
  have opened : ∀ view path flags granted,
      host.Leaves op (asked.openFrom view path flags granted).2 := by
    intro view path flags granted
    refine openFrom_keeps asked view path flags granted still fun fd place tree found => ?_
    exact ⟨rfl, fun _ => FileTree.covers_openFile found⟩
  have changed : ∀ granted (tree : Option FileTree),
      (op.steady = true → ∀ after, tree = some after → host.tree.Covers after) →
        host.Leaves op (asked.change granted tree).2 := by
    intro granted tree covers
    refine attempt_keeps asked still fun value answer after settled => ?_
    obtain ⟨tree, made, same⟩ := Option.map_eq_some_iff.mp settled
    cases same
    exact ⟨rfl, fun steady => covers steady tree made⟩
  by_cases reads : op.reads = true
  · obtain ⟨files, world, same⟩ := calls_reads kernel host op reads
    rw [same]
    exact ⟨rfl, fun _ _ => id⟩
  · cases op with
    | chroot path =>
      obtain ⟨world, called, -⟩ | ⟨top, world, -, called⟩ := calls_chroot kernel host path
      · rw [called]
        exact ⟨rfl, fun _ _ => id⟩
      · rw [called]
        exact ⟨rfl, fun _ _ => id⟩
    | chdir path =>
      obtain ⟨failure, world, called, -⟩ | ⟨here, world, -, called⟩ := calls_chdir kernel host path
      · rw [called]
        exact ⟨rfl, fun _ _ => id⟩
      · rw [called]
        exact ⟨rfl, fun _ _ => id⟩
    | mkdir path mode =>
      exact changed _ _ fun _ after made => FileTree.covers_makeDirectory made
    | unlink path => exact changed _ _ fun _ after removed => FileTree.covers_unlink removed
    | rmdir path | rename old new =>
      exact changed _ _ fun steady => absurd steady Bool.false_ne_true
    | openFile path flags mode => exact opened _ _ _ _
    | openat directory path flags mode =>
      show host.Leaves _
        (asked.settle (kernel.written host.world) (.openat directory path flags mode) _).2
      cases here : host.file directory with
      | some file =>
        rw [asked.settle_openat _ here]
        exact opened _ _ _ _
      | none =>
        rw [asked.settle_openat_none _ here]
        exact attempt_keeps asked still (by simp)
    | write fd bytes =>
      refine attempt_keeps asked still fun value answer after settled => ?_
      obtain ⟨stored, kept, same⟩ := Option.map_eq_some_iff.mp settled
      cases same
      exact leaves_store still kept
    | writeAll fd bytes =>
      show host.Leaves _ (asked.settle (kernel.written host.world) (.writeAll fd bytes) _).2
      unfold settle
      dsimp only
      split
      · rename_i after stored
        exact leaves_store still stored
      · exact still
    | _ => exact absurd rfl reads

/-- A script of calls that take no directory away leaves the directories. -/
theorem ends_steady {α : Type} {script : HelperScript α} (steady : script.Only (·.steady = true)) :
    script.Ends (calls kernel) host fun _ _ after => host.KeepsDirectories after := by
  refine (steady.runOn (calls kernel) host.KeepsDirectories (fun _ _ => True) ?_ fun _ => id).1
  intro middle op covers steady
  exact ⟨covers.trans ((leaves_calls kernel middle op).directories steady), trivial⟩

/-- Every script leaves the directory in which its process was started. -/
theorem start_runOn {α : Type} (script : HelperScript α) :
    (script.runOn (calls kernel) host).world.start = host.start := by
  refine (script.only_true.runOn (calls kernel) (·.start = host.start) (fun _ _ => True) ?_ rfl).1
  intro middle op same _
  exact ⟨(leaves_calls kernel middle op).start.trans same, trivial⟩

end Host

section Parts

variable {session : ClientSession} {root directory refusal path : List UInt8} {res : HelperResponse}

/-- The call is none that takes a directory away. -/
abbrev Steady {α : Type} (script : HelperScript α) : Prop := script.Only (·.steady = true)

/-- The sandbox takes no directory away. -/
theorem steady_sandboxUser (session : ClientSession) (root directory : List UInt8) :
    Steady (sandboxUser session root directory) := by
  apply only_sandboxUser <;> intros <;> rfl

/-- A command takes no directory away if it does not inside the sandbox. -/
theorem steady_inSandbox {rest : HelperScript HelperOutcome} (goes : Steady rest) :
    Steady (inSandbox (sandboxUser session root directory) res refusal rest) := by
  refine .bind (steady_sandboxUser session root directory) fun inside => ?_
  cases inside with
  | true => exact goes
  | false => exact .call rfl fun _ => trivial

/-- The end of most commands takes no directory away. -/
theorem steady_regainAndRespond (res : HelperResponse) : Steady (regainAndRespond res) :=
  only_regainAndRespond res rfl rfl rfl

/-- The way back to root takes no directory away, whatever comes behind it. -/
theorem steady_regain {rest : Bool → HelperScript HelperOutcome}
    (goes : ∀ regained, Steady (rest regained)) : Steady (regainRoot >>= rest) :=
  .bind (only_regainRoot rfl rfl) goes

/-- Taking a lock takes no directory away. -/
theorem steady_lockFile (path : List UInt8) (type : LockType) : Steady (lockFile path type) :=
  only_lockFile path type (fun _ => rfl) (fun _ => rfl) fun _ => rfl

/-- Giving up a lock takes no directory away. -/
theorem steady_unlockFile (fd : Descriptor) : Steady (unlockFile fd) :=
  .call rfl fun _ => .call rfl fun _ => trivial

/-- A creation of a user takes no directory away. -/
theorem steady_createSystemUser (lockFilePath rootDir username : List UInt8)
    (privileges : UInt32) :
    Steady (createSystemUser lockFilePath rootDir username privileges) := by
  have ending : ∀ fd (result : Bool × List UInt8),
      Steady (releaseUserCreationLock fd >>= fun _ => pure result) :=
    fun fd _ => .bind (steady_unlockFile fd) fun _ => trivial
  have undoing : ∀ fd text, Steady (undoUser fd username text) :=
    fun fd _ => .call rfl fun _ => .bind (steady_unlockFile fd) fun _ => trivial
  refine .bind (steady_lockFile _ _) fun locked => ?_
  cases locked with
  | error failure => trivial
  | ok lockFd =>
    refine .call rfl fun taken => ?_
    cases taken with
    | some account => exact ending _ _
    | none =>
      refine .call rfl fun result => ?_
      cases result with
      | notForked => exact ending _ _
      | failed => exact ending _ _
      | succeeded =>
        refine .call rfl fun found => ?_
        cases found with
        | none => exact undoing _ _
        | some account =>
          refine .call rfl fun made => ?_
          cases made with
          | error failure => exact undoing _ _
          | ok _ =>
            refine .call rfl fun owned => ?_
            cases owned with
            | error failure => exact undoing _ _
            | ok _ => exact ending _ _

/-- A login takes no directory away. -/
theorem steady_handleHelperLogin (username : Option (List UInt8)) (res : HelperResponse) :
    Steady (handleHelperLogin username res) := by
  cases username with
  | none => exact .call rfl fun _ => trivial
  | some username =>
    refine .call rfl fun found => ?_
    cases found with
    | none => exact .call rfl fun _ => trivial
    | some pw => exact .call rfl fun _ => trivial

/-- A listing takes no directory away. -/
theorem steady_handleHelperLs (session : ClientSession) (path rootDir : List UInt8)
    (res : HelperResponse) : Steady (handleHelperLs session path rootDir res) := by
  refine steady_inSandbox (.call rfl fun opened => ?_)
  cases opened with
  | error text => exact steady_regainAndRespond _
  | ok names =>
    refine .bind (only_listEntries (fun _ => rfl) path names []) fun listed => ?_
    cases listed with
    | none => trivial
    | some entries => exact only_endListing res entries rfl rfl rfl (fun _ => rfl) fun _ => rfl

/-- A change of directory takes none away. -/
theorem steady_changeDirectory (session : ClientSession) (path : List UInt8)
    (res : HelperResponse) : Steady (changeDirectory session path res) := by
  refine steady_inSandbox (.call rfl fun moved => ?_)
  cases moved with
  | error text => exact steady_regainAndRespond _
  | ok _ =>
    refine .call rfl fun cwd => ?_
    cases cwd with
    | none => exact steady_regainAndRespond _
    | some newcwd => exact steady_regainAndRespond _

/-- A creation takes no directory away. -/
theorem steady_handlerHelperCreateFile (session : ClientSession) (filename : List UInt8)
    (privileges : UInt32) (makeDir : Bool) (res : HelperResponse) :
    Steady (handlerHelperCreateFile session filename privileges makeDir res) := by
  apply steady_inSandbox
  cases makeDir with
  | true =>
    refine .call rfl fun made => .call rfl fun _ => steady_regain fun regained => ?_
    cases regained with
    | false => trivial
    | true => trivial
  | false =>
    refine .call rfl fun here => ?_
    cases here with
    | error failure => exact steady_regainAndRespond _
    | ok dirfd =>
      refine .call rfl fun opened => .call rfl fun _ => ?_
      cases opened with
      | error failure => exact steady_regainAndRespond _
      | ok fd =>
        refine .bind (steady_lockFile _ _) fun locked => ?_
        cases locked with
        | error failure =>
          exact .call rfl fun _ => .call rfl fun _ => steady_regainAndRespond _
        | ok lockFd =>
          exact .call rfl fun _ => .bind (steady_unlockFile lockFd) fun _ =>
            steady_regainAndRespond _

/-- A change of permissions takes no directory away. -/
theorem steady_handleHelperChmod (session : ClientSession) (filename : List UInt8)
    (privileges : UInt32) (res : HelperResponse) :
    Steady (handleHelperChmod session filename privileges res) := by
  refine steady_inSandbox (.bind (steady_lockFile _ _) fun locked => ?_)
  cases locked with
  | error failure => exact steady_regainAndRespond _
  | ok lockFd =>
    exact .call rfl fun changed => .bind (steady_unlockFile lockFd) fun _ =>
      steady_regainAndRespond _

/-- A read takes no directory away. -/
theorem steady_handleHelperRead (session : ClientSession) (path : List UInt8) (offset : Int32)
    (res : HelperResponse) : Steady (handleHelperRead session path offset res) := by
  have reads := reads_readInside path offset res
  refine steady_inSandbox (reads.weaken fun op reads => ?_)
  cases op <;> first | rfl | exact absurd reads Bool.false_ne_true

/-- A write takes no directory away. -/
theorem steady_handleHelperWrite (session : ClientSession) (path : List UInt8) (offset : Int32)
    (data : List UInt8) (res : HelperResponse) :
    Steady (handleHelperWrite session path offset data res) := by
  have pads : ∀ fd count, Steady (padFile fd count) := by
    intro fd count
    induction count with
    | zero => trivial
    | succ count ih =>
      refine .call rfl fun written => ?_
      cases written with
      | error failure => trivial
      | ok _ => exact ih
  have seeks : ∀ fd size, Steady (seekPadded fd size offset) := by
    intro fd size
    unfold seekPadded
    split
    · refine .call rfl fun sought => ?_
      cases sought with
      | error failure => trivial
      | ok _ =>
        refine .bind (pads fd _) fun padded => ?_
        cases padded with
        | false => trivial
        | true => trivial
    · refine .call rfl fun sought => ?_
      cases sought with
      | error text => trivial
      | ok _ => trivial
  have writes : ∀ fd, Steady (writeLocked fd offset data) := by
    intro fd
    refine .call rfl fun found => ?_
    cases found with
    | error text => trivial
    | ok st =>
      show Steady (if st.type ≠ .regular then pure (Except.error _) else _)
      split
      · trivial
      · refine .bind (seeks fd st.size) fun sought => ?_
        cases sought with
        | error text => trivial
        | ok _ =>
          refine .call rfl fun written => ?_
          cases written with
          | error text => trivial
          | ok count =>
            show Steady (if count.val ≠ data.length then pure (Except.error _) else _)
            split
            · trivial
            · trivial
  refine steady_inSandbox (.call rfl fun opened => ?_)
  cases opened with
  | error text => exact steady_regainAndRespond _
  | ok fd =>
    refine .call rfl fun locked => ?_
    cases locked with
    | error text =>
      exact .call rfl fun _ => .call rfl fun _ => steady_regainAndRespond _
    | ok _ => exact .bind (writes fd) fun _ => .call rfl fun _ => steady_regainAndRespond _

/-- The end of a transfer in the background takes no directory away. -/
theorem steady_endTransfer (fd : Descriptor) : Steady (endTransfer fd) :=
  only_endTransfer fd rfl rfl rfl rfl

/-- A download takes no directory away. -/
theorem steady_handleHelperDownload (session : ClientSession) (path : List UInt8)
    (res : HelperResponse) : Steady (handleHelperDownload session path res) := by
  have streams : ∀ blocks, Steady (streamToServer blocks) := by
    intro blocks
    induction blocks with
    | nil => trivial
    | cons bytes later ih =>
      refine .call rfl fun written => ?_
      cases written with
      | false => trivial
      | true => exact ih
  refine .bind (steady_sandboxUser _ _ _) fun inside => ?_
  cases inside with
  | false => exact .call rfl fun _ => trivial
  | true =>
    refine .call rfl fun opened => ?_
    cases opened with
    | error text => exact .call rfl fun _ => trivial
    | ok fd =>
      refine .call rfl fun locked => ?_
      cases locked with
      | error failure => exact .call rfl fun _ => steady_endTransfer fd
      | ok _ =>
        refine .call rfl fun found => ?_
        simp only []
        split
        · refine .call rfl fun written => ?_
          cases written with
          | false => exact steady_endTransfer fd
          | true => exact .call rfl fun blocks => .bind (streams blocks) fun _ => steady_endTransfer fd
        · exact .call rfl fun _ => steady_endTransfer fd

/-- An upload takes no directory away. -/
theorem steady_handleHelperUpload (session : ClientSession) (path : List UInt8)
    (res : HelperResponse) : Steady (handleHelperUpload session path res) := by
  have streams : ∀ fd blocks, Steady (streamToFile fd blocks) := by
    intro fd blocks
    induction blocks with
    | nil => trivial
    | cons bytes later ih =>
      refine .call rfl fun written => ?_
      cases written with
      | false => trivial
      | true => exact ih
  refine .bind (steady_sandboxUser _ _ _) fun inside => ?_
  cases inside with
  | false => exact .call rfl fun _ => trivial
  | true =>
    refine .call rfl fun opened => ?_
    cases opened with
    | error text =>
      refine .call rfl fun _ => steady_regain fun regained => ?_
      cases regained with
      | false => trivial
      | true => trivial
    | ok fd =>
      refine .call rfl fun locked => ?_
      cases locked with
      | error failure => exact .call rfl fun _ => steady_endTransfer fd
      | ok _ =>
        refine .call rfl fun written => ?_
        cases written with
        | false => exact steady_endTransfer fd
        | true =>
          exact .call rfl fun blocks => .bind (streams fd blocks) fun _ => steady_endTransfer fd

/-- A transfer between users takes no directory away. -/
theorem steady_handleHelperTransfer (root sender filename recv targetPath : List UInt8)
    (res : HelperResponse) :
    Steady (handleHelperTransfer root sender filename recv targetPath res) := by
  unfold handleHelperTransfer
  have copies : ∀ op : HelperOp, op.copies = true → op.steady = true := by
    intro op copies
    cases op <;> first | rfl | exact absurd copies Bool.false_ne_true
  split
  · exact .call rfl fun _ => trivial
  · refine .call rfl fun opened => ?_
    cases opened with
    | error failure => exact .call rfl fun _ => trivial
    | ok srcFd =>
      exact .bind (only_transferLocked copies srcFd recv rfl) fun transferred =>
        .call rfl fun _ => trivial

end Parts

/-- Every request but a `delete` and a `move` takes no directory away. -/
theorem Helper.steady_execute (helper : Helper) (call : HelperCall) (argv : List (List UInt8))
    (res : HelperResponse)
    (other : HelperCommand.ofWord call.cmd ≠ some .delete ∧
      HelperCommand.ofWord call.cmd ≠ some .move) :
    Steady (helper.execute call argv res) := by
  unfold execute
  split
  case h_1 => exact .bind (steady_createSystemUser _ _ _ _) fun _ => .call rfl fun _ => trivial
  case h_2 => exact steady_handleHelperLogin _ _
  case h_3 => exact steady_changeDirectory _ _ _
  case h_4 => exact steady_handleHelperLs _ _ _ _
  case h_5 =>
    split
    · split
      · exact steady_handlerHelperCreateFile _ _ _ _ _
      · trivial
    · exact steady_handlerHelperCreateFile _ _ _ _ _
  case h_6 => exact steady_handleHelperChmod _ _ _ _
  case h_7 asked => exact absurd asked other.1
  case h_8 asked => exact absurd asked other.2
  case h_9 => exact steady_handleHelperRead _ _ _ _
  case h_10 => exact steady_handleHelperWrite _ _ _ _ _
  case h_11 => exact steady_handleHelperDownload _ _ _
  case h_12 => exact steady_handleHelperUpload _ _ _
  case h_13 => exact steady_handleHelperTransfer _ _ _ _ _ _
  case h_14 => trivial
  case h_15 => exact .call rfl fun _ => trivial

section

variable (kernel : HostSystem ω) (host : Host ω)

/-- A call that only reads leaves the tree and the view to what follows. -/
theorem ends_readsCall {α : Type} {op : HelperOp} (reads : op.reads = true)
    {rest : op.Answer → HelperScript α} {post : List HelperEvent → α → Host ω → Prop}
    (goes : ∀ answer files world, (rest answer).Ends (Host.calls kernel) { host with files, world }
      fun events value after => post (⟨op, answer⟩ :: events) value after) :
    (system op >>= rest).Ends (Host.calls kernel) host post := by
  obtain ⟨files, world, same⟩ := Host.calls_reads kernel host op reads
  have called : Host.calls kernel host op =
      ((Host.calls kernel host op).1, { host with files, world }) := Prod.ext rfl same
  exact Script.Ends.call called (goes _ files world)

/-- A call leaves what it does to what follows, whatever it is answered. -/
theorem ends_anyCall {α : Type} {op : HelperOp} {rest : op.Answer → HelperScript α}
    {post : List HelperEvent → α → Host ω → Prop}
    (goes : ∀ answer, (rest answer).Ends (Host.calls kernel) (Host.calls kernel host op).2
      fun events value after => post (⟨op, answer⟩ :: events) value after) :
    (system op >>= rest).Ends (Host.calls kernel) host post :=
  Script.Ends.call rfl (goes _)

/-- Where the sandbox leads, if it is entered. -/
theorem Host.Enters.view_eq {host : Host ω} {root directory : List UInt8} {view : View}
    (enters : host.Enters root directory view) : view = host.view.enter root directory := by
  obtain ⟨top, below⟩ := enters
  have first := FileTree.resolve_of_find (Option.filter_eq_some_iff.mp top).1
  have second := FileTree.resolve_of_find (Option.filter_eq_some_iff.mp below).1
  show view = ⟨host.view.resolve root, View.resolve ⟨host.view.resolve root, _⟩ directory⟩
  rw [first, second]

/-- A command in the sandbox of a session ends as it does there; without it the tree stays. -/
theorem ends_inHome (holds : FileTree → Prop) {session : ClientSession} {res : HelperResponse}
    {refusal : List UInt8} {rest : HelperScript HelperOutcome} (start : holds host.tree)
    (goes : ∀ view world, view = host.view.enter session.homeText session.workdirText →
      rest.Ends (Host.calls kernel) { host with view, world } fun _ _ after => holds after.tree) :
    (inSandbox (sandboxUserToHisHome session) res refusal rest).Ends (Host.calls kernel) host
      fun _ _ after => holds after.tree := by
  apply Script.Ends.bind
  refine (ends_sandboxUser kernel host session session.homeText session.workdirText).weaken
    fun before inside middle ends => ?_
  obtain ⟨⟨view, world, rfl, enters⟩, -⟩ := ends
  cases inside with
  | false => exact ends_readsCall kernel _ rfl fun _ _ _ => Script.ends_pure.mpr start
  | true => exact goes view world (enters rfl).view_eq

/-- Under the lock of a file a move leaves the directories. -/
theorem ends_moveLocked_keeps {path1 path2 content : List UInt8}
    (file : host.tree.node (host.view.resolve path1) = some (.regular content)) :
    (moveLocked path1 path2).Ends (Host.calls kernel) host fun _ _ after =>
      host.KeepsDirectories after := by
  have still : ∀ files world, host.KeepsDirectories { host with files, world } :=
    fun _ _ _ => id
  refine ends_readsCall kernel host rfl fun source files world => ?_
  cases source with
  | error text => exact still files world
  | ok st =>
    refine ends_readsCall kernel _ rfl fun dest files world => ?_
    cases dest with
    | error text => exact still files world
    | ok stDest =>
      show Script.Ends _ _ _ (if stDest.type ≠ .directory then pure (Except.error _) else _)
      split
      · exact still files world
      · refine ends_readsCall kernel _ rfl fun target files world => ?_
        cases target with
        | ok st => exact still files world
        | error failure =>
          -- what is renamed lies where the file has been opened
          let opened : Host ω := { host with files, world }
          have kept : ∀ new, host.KeepsDirectories
              (Host.calls kernel opened (.rename path1 new)).2 := by
            intro new
            refine Host.attempt_keeps _ (still _ _) fun value answer after settled => ?_
            obtain ⟨tree, renamed, same⟩ := Option.map_eq_some_iff.mp settled
            cases same
            obtain ⟨source, -, found, -, -⟩ := FileTree.rename_finds renamed
            have here : host.view.resolve path1 = source := FileTree.resolve_of_find found
            exact FileTree.covers_rename found (here ▸ file) renamed
          refine ends_anyCall kernel opened fun renamed => ?_
          cases renamed with
          | error text => exact kept _
          | ok _ => exact kept _

/-- A move leaves the directories. -/
theorem ends_handleHelperMove (session : ClientSession) (path1 path2 : List UInt8)
    (res : HelperResponse) :
    (handleHelperMove session path1 path2 res).Ends (Host.calls kernel) host fun _ _ after =>
      host.tree.Covers after.tree := by
  refine ends_inHome kernel host host.tree.Covers (fun _ => id) fun view world _ => ?_
  let inHome : Host ω := { host with view, world }
  apply Script.Ends.bind
  refine (ends_lockFile kernel inHome path1 .exclusive).weaken fun _ locked after ends => ?_
  obtain ⟨tree, there, -, found⟩ := ends
  cases locked with
  | error failure =>
    refine (Host.ends_steady kernel after (steady_regainAndRespond _)).weaken fun _ _ last kept => ?_
    rwa [Host.KeepsDirectories, tree] at kept
  | ok lockFd =>
    obtain ⟨-, lies, file⟩ := found
    obtain ⟨content, regular⟩ : ∃ content,
        after.tree.node (after.view.resolve path1) = some (.regular content) := by
      rw [tree, there]
      cases node : inHome.tree.node (inHome.view.resolve path1) with
      | none => exact absurd node lies
      | some node_ =>
        cases node_ with
        | directory => exact absurd node (file rfl)
        | regular content => exact ⟨content, rfl⟩
    apply Script.Ends.bind
    refine (ends_moveLocked_keeps kernel after regular).weaken fun _ moved middle kept => ?_
    apply Script.Ends.bind
    refine (Host.ends_steady kernel middle (steady_unlockFile lockFd)).weaken
      fun _ _ unlocked covers => ?_
    have both := kept.trans covers
    refine (Host.ends_steady kernel unlocked (steady_regainAndRespond _)).weaken
      fun _ _ last more => ?_
    have all := both.trans more
    rwa [tree] at all

/-- Every place on the way is a directory. -/
def Host.WayStands (way : Location) (host : Host ω) : Prop := host.tree.Stands [] way

/-- A deletion leaves every way of directories that does not end where its path leads. -/
theorem ends_handleHelperDelete (session : ClientSession) (path : List UInt8)
    (res : HelperResponse) {way : Location} (stands : host.tree.Stands [] way)
    (apart : (host.view.enter session.homeText session.workdirText).resolve path ≠ way) :
    (handleHelperDelete session path res).Ends (Host.calls kernel) host fun _ _ after =>
      after.tree.Stands [] way := by
  have steady : ∀ {script : HelperScript HelperOutcome} {middle : Host ω}, Steady script →
      middle.tree.Stands [] way → script.Ends (Host.calls kernel) middle fun _ _ after =>
        after.tree.Stands [] way := by
    intro script middle steady stands
    exact (Host.ends_steady kernel middle steady).weaken fun _ _ _ covers =>
      covers.stands stands
  refine ends_inHome kernel host (·.Stands [] way) stands fun view world entered => ?_
  rw [← entered] at apart
  refine ends_readsCall kernel _ rfl fun found files world => ?_
  cases found with
  | error text => exact steady (steady_regainAndRespond _) stands
  | ok st =>
    show Script.Ends _ _ _ (if st.type = .directory then _ else _)
    split
    · let inHome : Host ω := { host with view, files, world }
      have removed : Host.WayStands way (Host.calls kernel inHome (.rmdir path)).2 := by
        refine Host.attempt_keeps _ (show Host.WayStands way { inHome with world := _ } from stands)
          fun value answer after settled => ?_
        obtain ⟨tree, removed, same⟩ := Option.map_eq_some_iff.mp settled
        cases same
        exact FileTree.stands_removeDirectory removed stands apart
      refine ends_anyCall kernel inHome fun result => ?_
      cases result with
      | error text => exact steady (steady_regainAndRespond _) removed
      | ok _ => exact steady (steady_regainAndRespond _) removed
    · refine steady (.bind (steady_lockFile path .exclusive) fun locked => ?_) stands
      cases locked with
      | error failure => exact steady_regainAndRespond _
      | ok lockFd =>
        exact .call rfl fun deleted => .bind (steady_unlockFile lockFd) fun _ =>
          steady_regainAndRespond _

end

/-- Where the path of a deletion leads in the sandbox of its session. -/
def HelperCall.deletes (call : HelperCall) (view : View) : Option Location :=
  match HelperCommand.ofWord call.cmd, call.args with
  | some .delete, some (path :: _) =>
    some ((view.enter call.session.homeText call.session.workdirText).resolve path)
  | _, _ => none

/-- A request leaves every way of directories, unless it is a deletion whose path leads to its
end. -/
theorem Helper.ends_serve (helper : Helper) (call : HelperCall) (kernel : HostSystem ω)
    (host : Host ω) {way : Location} (stands : host.tree.Stands [] way)
    (spares : call.deletes host.view ≠ some way) :
    (helper.serve call).Ends (Host.calls kernel) host fun _ _ after =>
      after.tree.Stands [] way := by
  unfold serve
  cases args : call.args with
  | none => exact stands
  | some argv =>
    show (helper.execute call argv (.blank call.cmd)).Ends _ _ _
    by_cases deletion : HelperCommand.ofWord call.cmd = some .delete
    · unfold execute
      rw [deletion]
      cases argv with
      | nil => exact stands
      | cons path later =>
        apply ends_handleHelperDelete kernel host _ _ _ stands
        intro leads
        apply spares
        unfold HelperCall.deletes
        rw [deletion, args]
        exact congrArg some leads
    · have covers : (helper.execute call argv (.blank call.cmd)).Ends (Host.calls kernel) host
          fun _ _ after => host.tree.Covers after.tree := by
        by_cases moving : HelperCommand.ofWord call.cmd = some .move
        · unfold execute
          rw [moving]
          cases argv with
          | nil => exact fun _ => id
          | cons path1 later =>
            cases later with
            | nil => exact fun _ => id
            | cons path2 later => exact ends_handleHelperMove kernel host _ _ _ _
        · exact Host.ends_steady kernel host (helper.steady_execute call argv _ ⟨deletion, moving⟩)
      exact covers.weaken fun _ _ _ covers => covers.stands stands

end FileServer
