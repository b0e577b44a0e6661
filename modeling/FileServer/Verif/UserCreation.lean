import FileServer.Model.Accounts
import FileServer.Verif.Accounts
import FileServer.Verif.OpenFiles

/-!
# What a failed creation of a user leaves

`CreateSystemUser` on accounts and files. Every step after `adduser` that fails is undone by
`deluser --remove-home`, which also removes a directory that was there before; so a failed creation
leaves everything as it was exactly if nothing lay where the home directory goes.
-/
namespace FileServer

open FileServer.Lib

variable {ω : Type}

namespace Host

/-- An attempt keeps the rest of the system when its success does. -/
theorem world_attempt {α β : Type} (host : Host ω) (granted : Except Failure α)
    (result : α → Option (β × Host ω))
    (keeps : ∀ value answer after, result value = some (answer, after) → after.world = host.world) :
    (host.attempt granted result).2.world = host.world := by
  exact @attempt_keeps ω host α β (fun after => after.world = host.world) granted result rfl keeps

/-- The rest of the system after a call is what its own answer leaves. -/
theorem world_calls (kernel : HostSystem ω) (host : Host ω) (op : HelperOp) :
    (calls kernel host op).2.world = (kernel.answer host.world op).2 := by
  let asked : Host ω := { host with world := (kernel.answer host.world op).2 }
  show (asked.settle (kernel.written host.world) op (kernel.answer host.world op).1).2.world =
    asked.world
  generalize (kernel.answer host.world op).1 = granted
  generalize kernel.written host.world = written
  generalize asked = asked
  clear * -
  have store (fd : Descriptor) (bytes : List UInt8) (after : Host ω)
      (stored : asked.store fd bytes = some after) : after.world = asked.world := by
    unfold Host.store at stored
    simp only [Option.bind_eq_some_iff, Option.map_eq_some_iff] at stored
    obtain ⟨file, -, tree, -, rfl⟩ := stored
    rfl
  cases op with
  | chroot path =>
    unfold settle
    dsimp only
    split
    · dsimp only
      split <;> rfl
    · rfl
  | getcwd =>
    unfold settle
    dsimp only
    split <;> rfl
  | openat directory path flags mode =>
    unfold settle
    dsimp only
    split
    · apply world_attempt
      grind [= Option.map_eq_some_iff]
    · apply world_attempt
      exact fun _ _ _ => nofun
  | readAgain fd limit =>
    unfold settle readAgain
    dsimp only
    split <;> rfl
  | writeAll fd bytes =>
    unfold settle
    dsimp only
    split
    · rename_i after stored
      exact store _ _ _ stored
    · rfl
  | write fd bytes =>
    apply world_attempt
    intro count answer after found
    obtain ⟨after, stored, same⟩ := Option.map_eq_some_iff.mp found
    cases same
    exact store _ _ _ stored
  | _ =>
    first
    | rfl
    | (apply world_attempt
       grind [Host.seek, = Option.map_eq_some_iff])

end Host

/-- The call changes neither the accounts nor the files. -/
def HelperOp.leaves : HelperOp → Bool
  | .adduser .. | .deluser _ => false
  | op => op.reads

namespace AccountEnvironment

variable (env : AccountEnvironment ω) (host : Host (List Account × ω))

/-- The accounts, the files and the directories of the process are the same. -/
structure Unchanged (host after : Host (List Account × ω)) : Prop where
  /-- The files. -/
  tree : after.tree = host.tree
  /-- The directories of the process. -/
  view : after.view = host.view
  /-- The accounts. -/
  accounts : after.world.1 = host.world.1

/-- Two steps that change nothing. -/
theorem Unchanged.trans {host middle after : Host (List Account × ω)}
    (first : Unchanged host middle) (second : Unchanged middle after) : Unchanged host after :=
  ⟨second.tree.trans first.tree, second.view.trans first.view,
    second.accounts.trans first.accounts⟩

/-- Such a call leaves everything as it is. -/
theorem unchanged_of_leaves {op : HelperOp} (leaves : op.leaves = true) :
    Unchanged host (env.hostCalls host op).2 := by
  have plain : env.hostCalls host op = Host.calls env.kernel host op := by
    cases op <;> first | rfl | exact absurd leaves Bool.false_ne_true
  have accounts : (env.calls host.world op).2.1 = host.world.1 := by
    cases op <;> first | rfl | exact absurd leaves Bool.false_ne_true
  have reads : op.reads = true := by
    cases op <;> first | exact leaves | exact absurd leaves Bool.false_ne_true
  obtain ⟨files, world, same⟩ := host.calls_reads env.kernel op reads
  have kept := host.world_calls env.kernel op
  rw [plain]
  rw [same] at kept ⊢
  refine ⟨rfl, rfl, ?_⟩
  rw [kept]
  exact accounts

/-- A script of such calls leaves everything as it is. -/
theorem ends_leaves {α : Type} {script : HelperScript α} (leaves : script.Only (·.leaves = true)) :
    script.Ends env.hostCalls host fun _ _ after => Unchanged host after := by
  refine (leaves.runOn env.hostCalls (Unchanged host) (fun _ _ => True) ?_ ⟨rfl, rfl, rfl⟩).1
  exact fun middle op same leaves => ⟨same.trans (env.unchanged_of_leaves middle leaves), trivial⟩

/-- A script that starts with such a call. -/
theorem ends_call {α : Type} {op : HelperOp} (leaves : op.leaves = true) {rest : op.Answer → HelperScript α}
    {post : List HelperEvent → α → Host (List Account × ω) → Prop}
    (goes : ∀ answer after, Unchanged host after →
      (rest answer).Ends env.hostCalls after fun events value last =>
        post (⟨op, answer⟩ :: events) value last) :
    (FileServer.system op >>= rest).Ends env.hostCalls host post :=
  Script.Ends.call rfl (goes _ _ (env.unchanged_of_leaves host leaves))

/-- `adduser` changes nothing, or adds an account of a name that had none. -/
theorem calls_adduser (homeDir username : List UInt8) :
    (∃ answer after, env.hostCalls host (.adduser homeDir username) = (answer, after) ∧
      answer ≠ .succeeded ∧ Unchanged host after) ∨
    ∃ (account : Account) (world : ω),
      env.hostCalls host (.adduser homeDir username) =
        (.succeeded, { host with world := (host.world.1 ++ [account], world) }) ∧
      findAccount host.world.1 username = none ∧
      account.name = username ∧ account.dir = cString homeDir := by
  obtain ⟨tree, view, files, start, accounts, world⟩ := host
  show (∃ answer after, (_, _) = _ ∧ _) ∨ ∃ (account : Account) (world : ω), (_, _) = _ ∧ _
  unfold kernel calls
  dsimp only
  split
  · split
    · exact Or.inl ⟨_, _, rfl, by simp, rfl, rfl, rfl⟩
    · rename_i free
      rw [Bool.not_eq_true, Option.isSome_eq_false_iff, Option.isNone_iff_eq_none] at free
      exact Or.inr ⟨_, _, rfl, free, rfl, rfl⟩
  · rename_i result after other answered
    exact Or.inl ⟨_, _, rfl, other, rfl, rfl, rfl⟩

/-- `mkdir` changes nothing, or makes a directory where nothing was. -/
theorem calls_mkdir (path : List UInt8) (mode : UInt32) :
    (∃ failure after, env.hostCalls host (.mkdir path mode) = (.error failure, after) ∧
      Unchanged host after) ∨
    ∃ place after, env.hostCalls host (.mkdir path mode) = (.ok (), after) ∧
      after.view = host.view ∧ after.world.1 = host.world.1 ∧
      host.tree.find host.view path = some place ∧ host.tree.node place = none ∧
      after.tree = host.tree.insert place .directory := by
  let granted : Except Failure Unit := (env.kernel.answer host.world (.mkdir path mode)).1
  let asked : Host (List Account × ω) :=
    { host with world := (env.kernel.answer host.world (.mkdir path mode)).2 }
  have called : env.hostCalls host (.mkdir path mode) =
      asked.change granted (host.tree.makeDirectory host.view path) := rfl
  rw [called]
  cases granted with
  | error failure => exact Or.inl ⟨failure, asked, rfl, rfl, rfl, rfl⟩
  | ok _ =>
    cases made : host.tree.makeDirectory host.view path with
    | none => exact Or.inl ⟨refusal, asked, rfl, rfl, rfl, rfl⟩
    | some tree =>
      obtain ⟨place, found, free, rfl⟩ := FileTree.makeDirectory_eq_some.mp made
      exact Or.inr ⟨place, _, rfl, rfl, rfl, found, free, rfl⟩

/-- The user has been added, with the home directory that the helper gives. -/
structure Added (helper : Helper) (username : List UInt8) (host middle : Host (List Account × ω)) :
    Prop where
  /-- The name was free. -/
  free : findAccount host.world.1 username = none
  /-- The directories of the process. -/
  view : middle.view = host.view
  /-- The accounts. -/
  accounts : ∃ account : Account, middle.world.1 = host.world.1 ++ [account] ∧
    account.name = username ∧ account.dir = helper.homeOf username

/-- The accounts and the files are as they were. -/
def RolledBack (host after : Host (List Account × ω)) : Prop :=
  after.world.1 = host.world.1 ∧ after.tree.node = host.tree.node

variable {env host} {helper : Helper} {username : List UInt8} {middle : Host (List Account × ω)}

/-- What does not change accounts leaves the user added. -/
theorem Added.unchanged (added : Added helper username host middle) {after : Host (List Account × ω)}
    (same : Unchanged middle after) : Added helper username host after := by
  refine ⟨added.free, same.view.trans added.view, ?_⟩
  rw [same.accounts]
  exact added.accounts

/-- A new account is the only one of its name. -/
theorem findAccount_append {accounts : List Account} {account : Account}
    (free : findAccount accounts account.name = none) :
    findAccount (accounts ++ [account]) account.name = some account := by
  unfold findAccount at free ⊢
  rw [List.find?_append, free]
  simp

/-- Without a new account the others remain. -/
theorem filter_append {accounts : List Account} {account : Account}
    (free : findAccount accounts account.name = none) :
    (accounts ++ [account]).filter (·.name ≠ account.name) = accounts := by
  rw [List.filter_append, List.filter_eq_self.mpr]
  · simp
  · intro other member
    have apart := List.find?_eq_none.mp free other member
    simpa using apart

/-- `deluser` removes the user added, and what lies at the home directory. -/
theorem calls_deluser (added : Added helper username host middle)
    (deletes : ∀ world, env.deletes world = true) :
    ∃ after, env.hostCalls middle (.deluser username) = ((), after) ∧ after.view = middle.view ∧
      after.world.1 = host.world.1 ∧
      after.tree = middle.tree.removeTree host.view (helper.homeOf username) := by
  obtain ⟨free, view, account, accounts, rfl, home⟩ := added
  refine ⟨_, rfl, ?_⟩
  rw [if_pos (deletes _)]
  refine ⟨rfl, ?_, ?_⟩
  · show (if env.deletes middle.world.2 then middle.world.1.filter (·.name ≠ account.name)
      else middle.world.1) = _
    rw [if_pos (deletes _), accounts]
    exact filter_append free
  · show removeHome middle account.name = _
    unfold removeHome
    rw [accounts, findAccount_append free, view, ← home]

/-- The compensation removes the user and the home directory. -/
theorem ends_undoUser (added : Added helper username host middle)
    (deletes : ∀ world, env.deletes world = true) (lockFd : Descriptor) (text : List UInt8) :
    (undoUser lockFd username text).Ends env.hostCalls middle fun _ result after =>
      result.1 = false ∧ after.world.1 = host.world.1 ∧
        after.tree = middle.tree.removeTree host.view (helper.homeOf username) := by
  obtain ⟨after, called, -, accounts, tree⟩ := calls_deluser added deletes
  refine Script.Ends.call called (Script.Ends.bind ?_)
  have unlocks : (releaseUserCreationLock lockFd).Only (·.leaves = true) :=
    .call rfl fun _ => .call rfl fun _ => trivial
  refine (env.ends_leaves after unlocks).weaken fun _ _ last same => ?_
  refine Script.ends_pure.mpr ⟨rfl, ?_, ?_⟩
  · rw [same.accounts, accounts]
  · rw [same.tree, tree]

/-- The lock is held only of a file that exists. -/
theorem ends_lockFile (path : List UInt8) :
    (lockFile path .exclusive).Ends env.hostCalls host fun _ locked after =>
      Unchanged host after ∧ ∀ fd, locked = .ok fd →
        (host.tree.openFile host.view path ⟨true, false, false, false⟩).isSome = true := by
  let flags : OpenFlags := ⟨.readWrite, false, false, false, false⟩
  have leaves : (HelperOp.openFile path flags 0).leaves = true := rfl
  have same := env.unchanged_of_leaves host leaves
  obtain ⟨failure, world, called⟩ | ⟨fd, place, tree, world, called, -, found⟩ :=
    host.calls_openFile env.kernel path flags 0
  · have called : env.hostCalls host (.openFile path flags 0) = _ := called
    rw [called] at same
    exact Script.Ends.call called (Script.ends_pure.mpr ⟨same, fun _ => nofun⟩)
  · have called : env.hostCalls host (.openFile path flags 0) = _ := called
    rw [called] at same
    refine Script.Ends.call called (env.ends_call _ rfl fun answer after kept => ?_)
    cases answer with
    | error failure =>
      refine env.ends_call _ rfl fun _ last closed => Script.ends_pure.mpr ⟨?_, fun _ => nofun⟩
      exact (same.trans kept).trans closed
    | ok _ =>
      refine Script.ends_pure.mpr ⟨same.trans kept, fun _ _ => ?_⟩
      exact Option.isSome_of_eq_some found

/-- A failed creation is undone where nothing can be lost. -/
theorem ends_createSystemUser (privileges : UInt32)
    (valid : isUsernameValid (some username) = true) (deletes : ∀ world, env.deletes world = true)
    (safe : (host.tree.openFile host.view helper.lockFilePath
        ⟨true, false, false, false⟩).isSome = true →
      findAccount host.world.1 username = none →
        host.tree.Vacant host.view (helper.homeOf username)) :
    (createSystemUser helper.lockFilePath helper.rootDir username privileges).Ends env.hostCalls host
      fun _ result after => result.1 = false → RolledBack host after := by
  have unlocks (fd : Descriptor) : (releaseUserCreationLock fd).Only (·.leaves = true) :=
    .call rfl fun _ => .call rfl fun _ => trivial
  have kept {after : Host (List Account × ω)} (same : Unchanged host after) :
      RolledBack host after := ⟨same.accounts, congrArg FileTree.node same.tree⟩
  have ends_kept (middle : Host (List Account × ω)) (same : Unchanged host middle) (fd : Descriptor)
      (result : Bool × List UInt8) :
      (releaseUserCreationLock fd >>= fun _ => pure result).Ends env.hostCalls middle
        fun _ result after => result.1 = false → RolledBack host after :=
    .bind ((env.ends_leaves middle (unlocks fd)).weaken fun _ _ after later _ =>
      kept (same.trans later))
  have home : formatted absPath (helper.rootDir ++ str "/" ++ username) = helper.homeOf username :=
    helper.formatted_homeOf valid
  have recorded : cString (helper.homeOf username) = helper.homeOf username :=
    cString_of_nulFree (helper.nulFree_homeOf valid)
  unfold createSystemUser acquireUserCreationLock
  rw [home]
  refine .bind ((ends_lockFile helper.lockFilePath).weaken fun _ locked opened both => ?_)
  obtain ⟨same, opens⟩ := both
  cases locked with
  | error failure => exact Script.ends_pure.mpr fun _ => kept same
  | ok lockFd =>
    have safe := safe (opens lockFd rfl)
    refine env.ends_call _ rfl fun found asked asks => ?_
    have asks := same.trans asks
    cases found with
    | some _ => exact ends_kept asked asks lockFd _
    | none =>
      obtain ⟨answer, after, called, failed, still⟩ | ⟨account, world, called, free, rfl, dir⟩ :=
        env.calls_adduser asked (helper.homeOf username) username
      · refine Script.Ends.call called ?_
        cases answer with
        | notForked => exact ends_kept after (asks.trans still) lockFd _
        | failed => exact ends_kept after (asks.trans still) lockFd _
        | succeeded => exact absurd rfl failed
      · refine Script.Ends.call called ?_
        rw [asks.accounts] at free
        have vacant := safe free
        have added : Added helper account.name host
            { asked with world := (asked.world.1 ++ [account], world) } :=
          ⟨free, asks.view, account, by rw [asks.accounts], rfl, dir.trans recorded⟩
        -- without a directory there is nothing to remove but the account
        have ends_undo (middle : Host (List Account × ω)) (text : List UInt8)
            (added : Added helper account.name host middle) (tree : middle.tree = host.tree) :
            (undoUser lockFd account.name text).Ends env.hostCalls middle
              fun _ result after => result.1 = false → RolledBack host after := by
          refine (ends_undoUser added deletes lockFd text).weaken fun _ _ after ends _ => ?_
          refine ⟨ends.2.1, ?_⟩
          rw [ends.2.2, tree]
          exact FileTree.node_removeTree vacant
        refine env.ends_call _ rfl fun pwd known same => ?_
        have added := added.unchanged same
        have placed : known.view = host.view := added.view
        have still : known.tree = host.tree := same.tree.trans asks.tree
        cases pwd with
        | none => exact ends_undo known _ added still
        | some pwd =>
          obtain ⟨failure, after, called, same⟩ |
              ⟨place, after, called, view, accounts, found, free, tree⟩ :=
            env.calls_mkdir known (helper.homeOf account.name) privileges
          · refine Script.Ends.call called ?_
            exact ends_undo after _ (added.unchanged same) (same.tree.trans still)
          · refine Script.Ends.call called (env.ends_call _ rfl fun owned last same => ?_)
            cases owned with
            | ok _ => exact .bind ((env.ends_leaves last (unlocks lockFd)).weaken fun _ _ _ _ => nofun)
            | error failure =>
              have added : Added helper account.name host last := by
                refine ⟨added.free, ?_, ?_⟩
                · rw [same.view, view, added.view]
                · rw [same.accounts, accounts]
                  exact added.accounts
              refine (ends_undoUser added deletes lockFd _).weaken fun _ _ end_ ends _ => ?_
              refine ⟨ends.2.1, ?_⟩
              rw [still, placed] at found
              rw [still] at free
              rw [ends.2.2, same.tree, tree, still]
              exact FileTree.node_removeTree_insert vacant found free

/-- A system that never finds an account, and grants every other call. -/
def forgetful (world : ω) : (op : HelperOp) → op.Answer × ω
  | .getpwnam _ => (none, world)
  | op => ((calmSystem initSharedRegistry op).1, world)

/-- Where no account is found after `adduser`, what lies at the home directory is removed. -/
theorem ends_forgetful (privileges : UInt32) (valid : isUsernameValid (some username) = true)
    (deletes : ∀ world, env.deletes world = true)
    (opens : (host.tree.openFile host.fresh.view helper.lockFilePath
      ⟨true, false, false, false⟩).isSome = true)
    (free : findAccount host.world.1 username = none) :
    (createSystemUser helper.lockFilePath helper.rootDir username privileges).Ends
      { env with system := forgetful }.hostCalls host.fresh fun _ result after =>
        result.1 = false ∧
          after.tree = host.tree.removeTree host.fresh.view (helper.homeOf username) := by
  obtain ⟨⟨place, tree⟩, found⟩ := Option.isSome_iff_exists.mp opens
  obtain ⟨-, -, same⟩ := FileTree.openFile_readWrite.mp found
  subst same
  let locked : Host (List Account × ω) := { host.fresh with files := [(0, ⟨place, 0⟩)] }
  have opened : { env with system := forgetful }.hostCalls host.fresh
      (.openFile helper.lockFilePath ⟨.readWrite, false, false, false, false⟩ 0) =
        (.ok 0, locked) := by
    show host.fresh.openFrom host.fresh.view helper.lockFilePath _ (.ok 0) = _
    refine Host.attempt_ok host.fresh ?_
    have found : host.tree.openFile host.fresh.view helper.lockFilePath
        (OpenFlags.mode ⟨.readWrite, false, false, false, false⟩) = some (place, host.tree) := found
    show Option.map _ (host.tree.openFile host.fresh.view helper.lockFilePath _) = _
    rw [found]
    rfl
  have adds : ({ env with system := forgetful }.hostCalls locked
      (.adduser (helper.homeOf username) username)).1 = .succeeded := by
    show (if (findAccount host.world.1 username).isSome = true then _ else _ :
      ChildResult × List Account × ω).1 = _
    rw [free]
    rfl
  unfold createSystemUser acquireUserCreationLock lockFile
  rw [show formatted absPath (helper.rootDir ++ str "/" ++ username) = helper.homeOf username from
    helper.formatted_homeOf valid]
  refine .bind (Script.Ends.call opened (Script.Ends.call rfl (Script.ends_pure.mpr ?_)))
  refine Script.Ends.call rfl ?_
  obtain ⟨answer, after, called, failed, -⟩ | ⟨account, world, called, free, name, dir⟩ :=
    { env with system := forgetful }.calls_adduser locked (helper.homeOf username) username
  · rw [called] at adds
    exact absurd adds failed
  · refine Script.Ends.call called (Script.Ends.call rfl ?_)
    have added : Added helper username host.fresh
        { locked with world := (host.world.1 ++ [account], world) } :=
      ⟨free, rfl, account, rfl, name, dir.trans (cString_of_nulFree (helper.nulFree_homeOf valid))⟩
    have undone := @ends_undoUser ω { env with system := forgetful } host.fresh helper username _
      added deletes 0 (str "internal server error")
    exact undone.weaken fun _ _ after ends => ⟨ends.1, ends.2.2⟩

end AccountEnvironment

/-- A creation that fails leaves the accounts and the files as they were. -/
def RollsBack (env : AccountEnvironment ω) (helper : Helper) (host : Host (List Account × ω))
    (username : List UInt8) (privileges : UInt32) : Prop :=
  let run := (createSystemUser helper.lockFilePath helper.rootDir username privileges).runOn
    env.hostCalls host.fresh
  run.value.1 = false → AccountEnvironment.RolledBack host run.world

/-- Whatever fails, a failed creation of a user with a valid name is undone exactly, if and only if
nothing lies at the home directory of the user, unless the name is taken or the lock cannot be had. -/
theorem rollsBack_iff (env : AccountEnvironment ω) (deletes : ∀ world, env.deletes world = true)
    (helper : Helper) (host : Host (List Account × ω)) {username : List UInt8}
    (valid : isUsernameValid (some username) = true) (privileges : UInt32) :
    (∀ system, RollsBack { env with system } helper host username privileges) ↔
      ((host.tree.openFile host.fresh.view helper.lockFilePath
          ⟨true, false, false, false⟩).isSome = true →
        findAccount host.world.1 username = none →
          host.tree.Vacant host.fresh.view (helper.homeOf username)) := by
  constructor
  · intro all opens free
    by_contra occupied
    obtain ⟨failed, tree⟩ := AccountEnvironment.ends_forgetful privileges valid deletes opens free
    have back := (all AccountEnvironment.forgetful failed).2
    rw [tree] at back
    exact FileTree.node_removeTree_ne occupied back
  · exact fun safe system =>
      @AccountEnvironment.ends_createSystemUser ω { env with system } host.fresh helper username
        privileges valid deletes safe

/-- The root directory of the files, with the lock file and the socket of the helper. -/
def runningHelper : Host (List Account × SharedRegistry) where
  tree := [⟨[str "srv"], .directory⟩, ⟨[str "srv", str "files"], .directory⟩,
    ⟨[str "srv", str "files", str ".user_creation.lock"], .regular []⟩,
    ⟨[str "srv", str "files", str "tmp"], .directory⟩,
    ⟨[str "srv", str "files", str "tmp", str "helper.sock"], .regular []⟩].toAList
  view := ⟨[], []⟩
  files := []
  start := []
  world := ([], initSharedRegistry)

/-- The helper with its root directory and its lock file. -/
def filesHelper : Helper :=
  ⟨str "/srv/files", str "/srv/files/.user_creation.lock", by decide, by decide⟩

/-- Nothing lies where the home directory of a first user goes. -/
theorem rollsBack_iff_bob : RollsBack calm filesHelper runningHelper (str "bob") 0o750 := by
  have vacant : runningHelper.tree.Vacant runningHelper.fresh.view
      (filesHelper.homeOf (str "bob")) := by
    intro place found below deep inside
    have home : runningHelper.tree.find runningHelper.fresh.view (filesHelper.homeOf (str "bob")) =
        some [str "srv", str "files", str "bob"] := by decide +kernel
    obtain rfl := Option.some.inj (found.symm.trans home)
    unfold FileTree.node
    rw [if_neg deep]
    apply AList.lookup_eq_none.mpr
    have apart : ∀ other ∈ runningHelper.tree.keys,
        ¬ [str "srv", str "files", str "bob"] <+: other := by decide +kernel
    exact fun member => apart below member inside
  exact (rollsBack_iff calm (fun _ => rfl) filesHelper runningHelper (by decide) 0o750).mpr
    (fun _ _ => vacant) calm.system

/-- The name of the directory of the socket is valid, and the failed creation of this user removes the
directory with the socket. -/
theorem not_rollsBack_tmp :
    isUsernameValid (some (str "tmp")) = true ∧
      ¬ RollsBack calm filesHelper runningHelper (str "tmp") 0o750 := by
  refine ⟨by decide, fun back => ?_⟩
  have failed : ((createSystemUser filesHelper.lockFilePath filesHelper.rootDir (str "tmp")
      0o750).runOn calm.hostCalls runningHelper.fresh).value.1 = false := by decide +kernel
  have removed : ((createSystemUser filesHelper.lockFilePath filesHelper.rootDir (str "tmp")
      0o750).runOn calm.hostCalls runningHelper.fresh).world.tree.node
        [str "srv", str "files", str "tmp", str "helper.sock"] = none := by decide +kernel
  have there : runningHelper.tree.node [str "srv", str "files", str "tmp", str "helper.sock"] =
      some (.regular []) := by decide +kernel
  have same := congrFun (back failed).2 [str "srv", str "files", str "tmp", str "helper.sock"]
  exact nomatch (there.symm.trans same.symm).trans removed

end FileServer
