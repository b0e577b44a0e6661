import FileServer.Model.HelperProcesses
import FileServer.Verif.Moves

/-!
# Moves that run side by side

Processes of the helper that serve requests to move files, in any order of their calls. A process looks
whether something has the new path and renames the file in a second call, under a lock of the old path
only. A file is lost exactly when two processes have found the same path free before one of them
renames; in all other orders every file is kept.
-/
namespace FileServer

open FileServer.Lib

namespace Machine

/-- A call that only reads leaves the entries and the directories of the process. -/
theorem same_of_reads (machine : Machine) {op : HelperOp} (reads : op.reads = true) :
    (machine.calls op).2.tree = machine.tree ∧ (machine.calls op).2.view = machine.view := by
  rw [calls_eq]
  obtain ⟨files, world, same⟩ := Host.calls_reads machine.permitting machine op reads
  rw [same]
  exact ⟨rfl, rfl⟩

/-- What other moves may do while a process has a call pending: its directories and its identity are
its own, no directory appears, disappears or changes its attributes, and where the process is about to
put a file nothing appears. -/
structure Disturbed (op : HelperOp) (before after : Machine) : Prop where
  /-- Its directories. -/
  view : after.view = before.view
  /-- Its identity. -/
  user : after.world.user = before.world.user
  /-- The directories on the disk. -/
  directories : after.tree.isDirectory = before.tree.isDirectory
  /-- Their attributes. -/
  attributes : ∀ place, before.tree.isDirectory place = true →
    after.world.attributes place = before.world.attributes place
  /-- The place for a file. -/
  target : ∀ old new, op = .rename old new →
    before.tree.node (before.view.resolve new) = none →
      after.tree.node (before.view.resolve new) = none

namespace Disturbed

variable {op : HelperOp} {first second third : Machine}

/-- Nothing has happened. -/
theorem refl (machine : Machine) : Disturbed op machine machine :=
  ⟨rfl, rfl, rfl, fun _ _ => rfl, fun _ _ _ => id⟩

/-- One thing after the other has happened. -/
theorem trans (one : Disturbed op first second) (other : Disturbed op second third) :
    Disturbed op first third := by
  refine ⟨other.view.trans one.view, other.user.trans one.user,
    other.directories.trans one.directories, fun place here => ?_, fun old new same free => ?_⟩
  · refine (other.attributes place ?_).trans (one.attributes place here)
    rw [one.directories]
    exact here
  · have later := other.target old new same
    rw [one.view] at later
    exact later (one.target old new same free)

/-- The process may look up entries where it could before. -/
theorem searches (disturbed : Disturbed op first second) : second.searches = first.searches := by
  funext place
  unfold Machine.searches
  rw [disturbed.directories]
  cases directory : first.tree.isDirectory place with
  | false => rfl
  | true =>
    unfold may
    rw [disturbed.attributes place directory, disturbed.user]

end Disturbed

/-- The path of a file that the process has locked does not lead to a directory. -/
def Source (path : List UInt8) (machine : Machine) : Prop :=
  machine.tree.isDirectory (machine.view.resolve path) = false

/-- Nothing lies where the path leads, unless it cannot be looked up or be that of a file. -/
def Free (path : List UInt8) (machine : Machine) : Prop :=
  machine.reaches machine.view path = true →
    (machine.view.lookup machine.tree.isDirectory path).isSome = true →
    FileTree.endsOpen path = false → machine.tree.node (machine.view.resolve path) = none

/-- A locked file stays one. -/
theorem Source.disturbed {path : List UInt8} {op : HelperOp} {before after : Machine}
    (source : before.Source path) (disturbed : Disturbed op before after) : after.Source path := by
  unfold Source
  rw [disturbed.view, disturbed.directories]
  exact source

/-- A free path stays free as long as the process is about to rename to it. -/
theorem Free.disturbed {old path : List UInt8} {before after : Machine} (free : before.Free path)
    (disturbed : Disturbed (.rename old path) before after) : after.Free path := by
  intro reaches leads closed
  unfold Machine.reaches at reaches
  rw [disturbed.searches, disturbed.view] at reaches
  rw [disturbed.directories, disturbed.view] at leads
  rw [disturbed.view]
  exact disturbed.target old path rfl (free reaches leads closed)

/-- Where a check finds nothing the path is free. -/
theorem free_of_missing {path : List UInt8} {machine : Machine}
    (missing : ∀ place, machine.Finds path place → machine.tree.node place = none) :
    machine.Free path := by
  intro reaches leads closed
  obtain ⟨place, leads⟩ := Option.isSome_iff_exists.mp leads
  rw [View.resolve_of_lookup leads]
  refine missing place ⟨reaches, ?_⟩
  unfold FileTree.find
  rw [leads, Option.filter_some, closed]
  rfl

/-- A call leaves the disk, or moves a file to where the process wants it and nothing is. -/
def Moves (op : HelperOp) (before after : Machine) : Prop :=
  (after.tree.node = before.tree.node ∧ after.world.attributes = before.world.attributes) ∨
    ∃ old new source content, op = .rename old new ∧
      before.tree.node source = some (.regular content) ∧
      before.tree.node (before.view.resolve new) = none ∧
      after.tree.node = Function.update (Function.update before.tree.node source none)
        (before.view.resolve new) (some (.regular content)) ∧
      after.world.attributes = Function.update before.world.attributes (before.view.resolve new)
        (before.world.attributes source)

namespace Moves

variable {op : HelperOp} {before after : Machine}

/-- No directory appears or disappears. -/
theorem directories (moves : Moves op before after) :
    after.tree.isDirectory = before.tree.isDirectory := by
  funext place
  unfold FileTree.isDirectory
  apply decide_eq_decide.mpr
  obtain ⟨nodes, -⟩ | ⟨old, new, source, content, -, file, free, nodes, -⟩ := moves
  · rw [nodes]
  · rw [nodes, Function.update_apply, Function.update_apply]
    split
    · rename_i there
      simp [there, free]
    · split
      · rename_i there
        simp [there, file]
      · rfl

/-- The directories keep their attributes. -/
theorem attributes (moves : Moves op before after) {place : Location}
    (directory : before.tree.isDirectory place = true) :
    after.world.attributes place = before.world.attributes place := by
  obtain ⟨-, same⟩ | ⟨old, new, source, content, -, file, free, -, changed⟩ := moves
  · rw [same]
  · rw [changed]
    refine Function.update_of_ne ?_ _ _
    rintro rfl
    have there : before.tree.node _ = some .directory := of_decide_eq_true directory
    exact nomatch there.symm.trans free

end Moves

/-- A call that keeps the disk. -/
theorem moves_of_keepsDisk {op : HelperOp} (keeps : op.keepsDisk = true) (machine : Machine) :
    Moves op machine (machine.calls op).2 :=
  Or.inl ⟨congrArg FileTree.node (Host.tree_of_keepsDisk machine.permitting machine keeps),
    machine.attributes_of_keepsDisk machine.permitting keeps⟩

/-- The renaming of a locked file to a free path. -/
theorem moves_rename {old new : List UInt8} {machine : Machine} (source : machine.Source old)
    (free : machine.Free new) : Moves (.rename old new) machine (machine.calls (.rename old new)).2 := by
  obtain ⟨after, renames, done, called⟩ | ⟨-, failure, failed⟩ := machine.calls_rename old new
  · obtain ⟨allowed, -⟩ := renames
    rw [Bool.and_eq_true, Bool.and_eq_true] at allowed
    obtain ⟨from_, to_, found, leads, there⟩ := FileTree.rename_finds done
    obtain rfl := FileTree.resolve_of_find found
    obtain rfl := FileTree.resolve_of_find leads
    cases lies : machine.tree.node (machine.view.resolve old) with
    | none => exact absurd lies there
    | some node =>
      cases node with
      | directory =>
        have directory : machine.tree.isDirectory (machine.view.resolve old) = true :=
          decide_eq_true lies
        exact nomatch directory.symm.trans source
      | regular content =>
        rw [FileTree.rename_regular found leads lies] at done
        split at done
        · cases done
        · rename_i possible
          rw [not_or, Bool.not_eq_true] at possible
          have empty := free allowed.1.2
            (by rw [(Option.filter_eq_some_iff.mp leads).1]; rfl) possible.2
          cases done
          rw [called]
          exact Or.inr ⟨old, new, _, content, rfl, lies, empty,
            FileTree.node_renamed lies possible.1, machine.moved_regular lies⟩
  · rw [failed]
    exact Or.inl ⟨rfl, rfl⟩

/-- A call that only reads leaves a locked file one. -/
theorem Source.kept {path : List UInt8} {machine : Machine} (source : machine.Source path)
    (op : HelperOp) (reads : op.reads = true) : (machine.calls op).2.Source path := by
  obtain ⟨tree, view⟩ := machine.same_of_reads reads
  unfold Source
  rw [tree, view]
  exact source

/-- A file opened for reading and writing is no directory. -/
theorem source_of_open {path : List UInt8} {machine : Machine} {fd : Descriptor}
    (opened : (machine.calls (.openFile path ⟨.readWrite, false, false, false, false⟩ 0)).1 =
      .ok fd) : machine.Source path := by
  let flags : OpenFlags := ⟨.readWrite, false, false, false, false⟩
  obtain ⟨failure, refused⟩ | ⟨other, place, tree, opens, -, found⟩ :=
    machine.openFrom_cases machine.view path flags (machine.grant (.openFile path flags 0))
  · have failed : (machine.calls (.openFile path flags 0)).1 = .error failure :=
      congrArg Prod.fst refused
    exact nomatch opened.symm.trans failed
  · obtain ⟨target, ⟨content, file⟩, -⟩ := FileTree.openFile_readWrite.mp found
    unfold Source
    rw [FileTree.resolve_of_find target]
    exact decide_eq_false (by simp [file])

end Machine

section

variable {process : Type} [DecidableEq process]

namespace HelperProcesses

/-- What the others may do while a call of a process is pending. -/
def Relies (caller : process) (op : HelperOp) (before after : HelperProcesses process) : Prop :=
  Machine.Disturbed op (before.machine caller) (after.machine caller)

/-- What a call of a process does: nothing to the others, and to the disk what a move does. -/
def Guarantees (caller : process) (op : HelperOp) (before after : HelperProcesses process) : Prop :=
  (∀ other, other ≠ caller → after.own other = before.own other) ∧
    Machine.Moves op (before.machine caller) (after.machine caller)

/-- The script of a process is guarded. -/
abbrev Guards {α : Type} (caller : process) (post : α → HelperProcesses process → Prop)
    (shared : HelperProcesses process) (script : HelperScript α) : Prop :=
  script.Guarded (serve caller) (Relies caller) (Guarantees caller) post shared

variable {caller : process} {shared : HelperProcesses process}

/-- A process after its own call. -/
theorem machine_serve (caller : process) (shared : HelperProcesses process) (op : HelperOp) :
    (serve caller shared op).2.machine caller = ((shared.machine caller).calls op).2 := by
  let after := ((shared.machine caller).calls op).2
  have own : (serve caller shared op).2.own caller = after := Function.update_self _ _ _
  show ({ (serve caller shared op).2.own caller with
    tree := after.tree
    world := { ((serve caller shared op).2.own caller).world with
      attributes := after.world.attributes } } : Machine) = after
  rw [own]

/-- A call guarantees what it does to the disk. -/
theorem guarantees_serve {op : HelperOp}
    (moves : Machine.Moves op (shared.machine caller) ((shared.machine caller).calls op).2) :
    Guarantees caller op shared (serve caller shared op).2 := by
  refine ⟨fun other apart => Function.update_of_ne apart _ _, ?_⟩
  rw [machine_serve]
  exact moves

/-- A call that keeps the disk guarantees that. -/
theorem guarantees_of_keepsDisk (shared : HelperProcesses process) (op : HelperOp)
    (keeps : op.keepsDisk = true) : Guarantees caller op shared (serve caller shared op).2 :=
  guarantees_serve (Machine.moves_of_keepsDisk keeps _)

/-- A script of such calls is guarded. -/
theorem guards_of_only {α : Type} {script : HelperScript α}
    (only : script.Only (·.keepsDisk = true)) {post : α → HelperProcesses process → Prop}
    (holds : ∀ value shared, post value shared) : Guards caller post shared script :=
  only.guarded guarantees_of_keepsDisk holds shared

/-- A script that starts with such a call. -/
theorem guards_call {α : Type} {op : HelperOp} (keeps : op.keepsDisk = true)
    {rest : op.Answer → HelperScript α} {post : α → HelperProcesses process → Prop}
    (goes : ∀ later answer, Relies caller op shared later → (serve caller later op).1 = answer →
      Guards caller post (serve caller later op).2 (rest answer)) :
    Guards caller post shared (system op >>= rest) :=
  .call fun later changed => ⟨guarantees_of_keepsDisk later op keeps, goes later _ changed rfl⟩

/-- Where a path led to no directory it does not after a call that only reads. -/
theorem source_serve {path : List UInt8} {waiting : HelperOp} {later : HelperProcesses process}
    (source : (shared.machine caller).Source path) (changed : Relies caller waiting shared later)
    (op : HelperOp) (reads : op.reads = true) :
    ((serve caller later op).2.machine caller).Source path := by
  rw [machine_serve]
  exact (source.disturbed changed).kept op reads

/-- A lock shows that its path does not lead to a directory. -/
theorem guards_lockFile (path : List UInt8) :
    Guards caller (fun locked after => ∀ fd, locked = .ok fd → (after.machine caller).Source path)
      shared (lockFile path .exclusive) := by
  refine guards_call rfl fun later answer _ opened => ?_
  cases answer with
  | error failure => exact fun _ => nofun
  | ok fd =>
    have source : (later.machine caller).Source path := Machine.source_of_open opened
    have kept := source.kept (.openFile path ⟨.readWrite, false, false, false, false⟩ 0) rfl
    rw [← machine_serve] at kept
    refine guards_call rfl fun last answer changed _ => ?_
    cases answer with
    | error failure => exact guards_call rfl fun _ _ _ _ _ => nofun
    | ok _ => exact fun _ _ => source_serve kept changed _ rfl

/-- Under its lock a move only renames a file to a free path. -/
theorem guards_moveLocked {path1 path2 : List UInt8} (source : (shared.machine caller).Source path1)
    {post : Except (List UInt8) Unit → HelperProcesses process → Prop}
    (holds : ∀ value shared, post value shared) :
    Guards caller post shared (moveLocked path1 path2) := by
  refine guards_call rfl fun first answer changed _ => ?_
  have here := source_serve source changed (.stat path1) rfl
  cases answer with
  | error failure => exact holds _ _
  | ok _ =>
    refine guards_call rfl fun second answer changed _ => ?_
    have here := source_serve here changed (.stat path2) rfl
    cases answer with
    | error failure => exact holds _ _
    | ok stDest =>
      show Guards caller post _ (if stDest.type ≠ .directory then pure (Except.error _) else
        system (.stat (moveTarget path1 path2)) >>= _)
      by_cases other : stDest.type ≠ .directory
      · rw [if_pos other]
        exact holds _ _
      · rw [if_neg other]
        refine guards_call rfl fun third answer changed answered => ?_
        cases answer with
        | ok st => exact holds _ _
        | error failure =>
          have here := source_serve here changed (.stat (moveTarget path1 path2)) rfl
          obtain ⟨place, node, st, -, -, reported, -⟩ | ⟨missing, failure, failed⟩ :=
            (third.machine caller).calls_stat (moveTarget path1 path2)
          · exact nomatch (congrArg Prod.fst reported).symm.trans answered
          · have free := Machine.free_of_missing missing
            have same : (serve caller third (.stat (moveTarget path1 path2))).2.machine caller =
                third.machine caller := by rw [machine_serve, failed]
            rw [← same] at free
            refine Script.Guarded.call fun last changed => ⟨?_, ?_⟩
            · exact guarantees_serve
                (Machine.moves_rename (here.disturbed changed) (free.disturbed changed))
            · generalize (serve caller last _).1 = answer
              cases answer with
              | error failure => exact holds _ _
              | ok _ => exact holds _ _

/-- Every process that serves a request to move a file is guarded. -/
theorem guards_handleHelperMove (session : ClientSession) (path1 path2 : List UInt8)
    (res : HelperResponse) :
    Guards caller (fun _ _ => True) shared (handleHelperMove session path1 path2 res) := by
  have responds (res : HelperResponse) (shared : HelperProcesses process) :
      Guards caller (fun _ _ => True) shared (regainAndRespond res) :=
    guards_of_only (only_regainAndRespond res rfl rfl rfl) fun _ _ => trivial
  have enters : (sandboxUserToHisHome session).Only (·.keepsDisk = true) :=
    only_sandboxUser session _ _ (fun _ => rfl) (fun _ => rfl) rfl (fun _ _ => rfl)
      (fun _ => rfl) fun _ => rfl
  unfold handleHelperMove inSandbox
  refine .bind (guards_of_only enters fun inside entered => ?_)
  cases inside with
  | false => exact guards_call rfl fun _ _ _ _ => trivial
  | true =>
    refine .bind ((guards_lockFile path1).weaken fun locked held source => ?_)
    cases locked with
    | error failure => exact responds _ _
    | ok lockFd =>
      refine .bind (guards_moveLocked (source lockFd rfl) fun moved left => ?_)
      have unlocks : (unlockFile lockFd).Only (·.keepsDisk = true) :=
        .call rfl fun _ => .call rfl fun _ => trivial
      exact .bind (guards_of_only unlocks fun _ after => responds _ after)

end HelperProcesses

end

section

variable {process : Type}

/-- The process has found a path free and is about to rename its file to this place. -/
def renamesTo (threads : Threads process (HelperProcesses process) HelperOp HelperOp.Answer
    HelperOutcome) (caller : process) : Option Location :=
  match threads.pending caller with
  | some (.rename _ new) => some ((threads.shared.machine caller).view.resolve new)
  | _ => none

/-- When a process renames its file, no other is about to rename one to the same place. -/
abbrev RenamesApart (threads : Threads process (HelperProcesses process) HelperOp HelperOp.Answer
    HelperOutcome) (caller : process) : Prop :=
  ∀ other, other ≠ caller → renamesTo threads other = none ∨
     renamesTo threads other ≠ renamesTo threads caller

/-- A call of one process is nothing that disturbs the others, when the processes rename apart. -/
theorem compatible_of_apart :
    Threads.Compatible (@HelperProcesses.Relies process) HelperProcesses.Guarantees
      RenamesApart := by
  intro threads caller other op waiting after apart different calls waits guarantees
  obtain ⟨others, moves⟩ := guarantees
  have own : after.own other = threads.shared.own other := others other different
  have view : (after.own other).view = (threads.shared.own other).view := by rw [own]
  have user : (after.own other).world.user = (threads.shared.own other).world.user := by rw [own]
  have directories : after.tree.isDirectory = threads.shared.tree.isDirectory := moves.directories
  have attributes {place : Location} : threads.shared.tree.isDirectory place = true →
    after.attributes place = threads.shared.attributes place := moves.attributes
  refine ⟨view, user, directories,
    fun place => attributes, fun old' new' same empty => ?_⟩
  show after.tree.node _ = none
  obtain ⟨nodes, -⟩ | ⟨old, new, source, content, rfl, -, -, nodes, -⟩ := moves
  · rw [show after.tree.node = threads.shared.tree.node from nodes]
    exact empty
  · subst same
    have elsewhere : (threads.shared.machine other).view.resolve new' ≠
        (threads.shared.machine caller).view.resolve new := by
      have apart := apart other different
      unfold renamesTo at apart
      rw [calls, waits] at apart
      exact fun same => apart.elim nofun fun separate => separate (congrArg some same)
    rw [show after.tree.node = _ from nodes, Function.update_of_ne elsewhere,
      Function.update_apply]
    split
    · rfl
    · exact empty

end

/-- Every file is still there with its content, in a place of its own. -/
def NothingLost (before after : FileTree) : Prop :=
  ∃ place : Location → Location, Set.InjOn place {file | (before.content file).isSome} ∧
    ∀ file content, before.content file = some content → after.content (place file) = some content

/-- At first nothing is lost. -/
theorem nothingLost_refl (tree : FileTree) : NothingLost tree tree :=
  ⟨id, Set.injOn_id _, fun _ _ => id⟩

/-- The move of a file to a place where nothing is loses nothing. -/
theorem NothingLost.moves {op : HelperOp} {start : FileTree} {before after : Machine}
    (kept : NothingLost start before.tree) (moves : Machine.Moves op before after) :
    NothingLost start after.tree := by
  obtain ⟨place, apart, contents⟩ := kept
  obtain ⟨nodes, -⟩ | ⟨old, new, source, content, -, file, free, nodes, -⟩ := moves
  · refine ⟨place, apart, fun file content had => ?_⟩
    unfold FileTree.content
    rw [nodes]
    exact contents file content had
  · let target := before.view.resolve new
    have elsewhere (file : Location) (had : (start.content file).isSome = true) :
        place file ≠ target := by
      intro there
      obtain ⟨content, had⟩ := Option.isSome_iff_exists.mp had
      have found := FileTree.content_eq_some.mp (contents file content had)
      rw [there] at found
      exact nomatch found.symm.trans free
    refine ⟨fun file => if place file = source then target else place file, ?_, ?_⟩
    · intro one had other had' same
      apply apart had had'
      by_cases first : place one = source <;> by_cases second : place other = source
      · exact first.trans second.symm
      · simp only [if_pos first, if_neg second] at same
        exact absurd same.symm (elsewhere other had')
      · simp only [if_neg first, if_pos second] at same
        exact absurd same (elsewhere one had)
      · simpa only [if_neg first, if_neg second] using same
    · intro one bytes had
      have found := FileTree.content_eq_some.mp (contents one bytes had)
      apply FileTree.content_eq_some.mpr
      show after.tree.node (if place one = source then target else place one) = _
      rw [nodes]
      by_cases moved : place one = source
      · rw [moved, file] at found
        rw [if_pos moved, Function.update_self]
        exact found
      · rw [if_neg moved, Function.update_of_ne (elsewhere one (by rw [had]; rfl)),
          Function.update_of_ne moved]
        exact found

/-- Processes that serve requests to move files lose none, in whatever order they make their calls, as
long as none renames its file while another is about to rename one to the same place. -/
theorem nothingLost_of_apart {process : Type} [DecidableEq process] (machine : Machine)
    (requests : process → MoveRequest) {schedule : List process}
    {final : Threads process (HelperProcesses process) HelperOp HelperOp.Answer HelperOutcome}
    (apart : StepsMeet (Threads.next HelperProcesses.serve) RenamesApart (movers machine requests)
      schedule)
    (run : runFrom (Threads.next HelperProcesses.serve) (movers machine requests) schedule =
      some final) :
    NothingLost machine.tree final.shared.tree := by
  have still : ∀ (caller : process) op world, HelperProcesses.Relies caller op world world :=
    fun caller op world => Machine.Disturbed.refl _
  refine Threads.guarded_run still (fun caller op _ _ _ => .trans) compatible_of_apart
    (fun shared => NothingLost machine.tree shared.tree)
    (fun caller op before after guarantees kept => kept.moves guarantees.2)
    (fun caller => HelperProcesses.guards_handleHelperMove _ _ _ _) (nothingLost_refl _) apart run

/-- The home of a user with two files of the same name in two directories, and a third directory. -/
def aliceCopies : Machine :=
  { aliceMachine with
    tree := [⟨[str "srv"], .directory⟩, ⟨[str "srv", str "alice"], .directory⟩,
      ⟨[str "srv", str "alice", str "a"], .directory⟩,
      ⟨[str "srv", str "alice", str "b"], .directory⟩,
      ⟨[str "srv", str "alice", str "docs"], .directory⟩,
      ⟨[str "srv", str "alice", str "a", str "notes"], .regular (str "draft")⟩,
      ⟨[str "srv", str "alice", str "b", str "notes"], .regular (str "final")⟩].toAList
    world := { aliceMachine.world with
      attributes := fun place => if place.length = 4 then ⟨1000, 1000, 0o644⟩
        else ⟨1000, 1000, 0o755⟩ } }

/-- Both files are to be moved into the third directory. -/
def bothNotes (first : Bool) : MoveRequest where
  session := aliceAt []
  path1 := if first then str "a/notes" else str "b/notes"
  path2 := str "docs"

/-- When one request has been served before the other begins, both files are kept. -/
theorem nothingLost_of_apart_notes :
    ∃ final, runFrom (Threads.next HelperProcesses.serve) (movers aliceCopies bothNotes)
        (List.replicate 17 true ++ List.replicate 16 false) = some final ∧
      NothingLost aliceCopies.tree final.shared.tree := by
  have ends : (runFrom (Threads.next HelperProcesses.serve) (movers aliceCopies bothNotes)
      (List.replicate 17 true ++ List.replicate 16 false)).isSome = true := by decide +kernel
  obtain ⟨final, run⟩ := Option.isSome_iff_exists.mp ends
  have apart : StepsMeet (Threads.next HelperProcesses.serve) RenamesApart
      (movers aliceCopies bothNotes) (List.replicate 17 true ++ List.replicate 16 false) := by
    decide +kernel
  exact ⟨final, run, nothingLost_of_apart aliceCopies bothNotes apart run⟩

/-- A file with its content is an entry. -/
theorem mem_entries_of_content {tree : FileTree} {place : Location} {content : List UInt8}
    (file : tree.content place = some content) : Node.regular content ∈ tree.entries.map (·.2) := by
  have there := FileTree.content_eq_some.mp file
  unfold FileTree.node at there
  split at there
  · cases there
  · exact List.mem_map_of_mem (AList.mem_lookup_iff.mp there)

/-- When both requests find the place free before one renames, the second file replaces the first. -/
theorem not_nothingLost_of_checks :
    ¬ ∀ (schedule : List Bool)
      (final : Threads Bool (HelperProcesses Bool) HelperOp HelperOp.Answer HelperOutcome),
      runFrom (Threads.next HelperProcesses.serve) (movers aliceCopies bothNotes) schedule =
        some final → NothingLost aliceCopies.tree final.shared.tree := by
  intro keeps
  let checks : List Bool := List.replicate 11 true ++ List.replicate 11 false
  have ends : (runFrom (Threads.next HelperProcesses.serve) (movers aliceCopies bothNotes)
      (checks ++ [true, false])).map (fun final => decide (Node.regular (str "draft") ∈
        final.shared.tree.entries.map (·.2))) = some false := by decide +kernel
  obtain ⟨final, run, replaced⟩ := Option.map_eq_some_iff.mp ends
  obtain ⟨place, -, contents⟩ := keeps _ final run
  have draft : aliceCopies.tree.content [str "srv", str "alice", str "a", str "notes"] =
      some (str "draft") := by decide +kernel
  exact of_decide_eq_false replaced (mem_entries_of_content (contents _ _ draft))

end FileServer
