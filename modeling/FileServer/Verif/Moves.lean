import FileServer.Verif.Permissions

/-!
# Where a move puts a file

`HandleHelperMove` on a file system with permissions. The new path is put together in an array of
`PATH_MAX` bytes: what does not fit is cut off, and the file gets the name that is left. Otherwise the
path that is looked up before the renaming is the path that is renamed to.
-/
namespace FileServer

open FileServer.Lib

/-- What follows the last slash has no slash. -/
theorem unbroken_baseName (path : List UInt8) : (47 : UInt8) ∉ baseName path := by
  intro member
  have taken := List.mem_takeWhile_imp (List.mem_reverse.mp member)
  simp at taken

/-- A path followed by a slash leads where the path leads. -/
theorem components_append_slash (path : List UInt8) :
    components (path ++ str "/") = components path := by
  show components (path ++ 47 :: []) = _
  rw [components_slash, show components [] = [] from words_nil 47, List.append_nil]

/-- More behind a path does not change where it starts. -/
theorem origin_append (view : View) {path : List UInt8} (filled : path ≠ []) (rest : List UInt8) :
    view.origin (path ++ rest) = view.origin path := by
  unfold View.origin isAbsolute
  rw [List.head?_append_of_ne_nil _ filled]

/-- A name behind a path leads one step on from where the path leads. -/
theorem resolve_append_name (view : View) {path name : List UInt8} (filled : path ≠ [])
    (named : name ≠ []) (unbroken : (47 : UInt8) ∉ name) :
    view.resolve (path ++ str "/" ++ name) = Location.step view.root (view.resolve path) name := by
  unfold View.resolve
  rw [List.append_assoc, origin_append view filled]
  show Location.walk _ _ (components (path ++ 47 :: name)) = _
  rw [components_slash, show components name = [name] from words_single unbroken named,
    Location.walk_append]
  rfl

/-- The path to which a file is moved, as it is put together. -/
def moveTarget (path1 path2 : List UInt8) : List UInt8 :=
  formatted pathMax (path2 ++ str "/" ++ baseName path1)

/-- Where the path fits, nothing is cut off. -/
theorem moveTarget_eq {path1 path2 : List UInt8}
    (fits : path2.length + 1 + (baseName path1).length < 4096) :
    moveTarget path1 path2 = path2 ++ str "/" ++ baseName path1 := by
  refine List.take_of_length_le ?_
  simp only [List.length_append]
  show path2.length + 1 + _ ≤ 4095
  omega

/-- A path that does not fit loses a part of the name, or more. -/
theorem moveTarget_cases {path1 path2 : List UInt8} (short : path2.length < 4096)
    (long : 4096 ≤ path2.length + 1 + (baseName path1).length) :
    moveTarget path1 path2 = path2 ∨ moveTarget path1 path2 = path2 ++ str "/" ∨
      ∃ name, moveTarget path1 path2 = path2 ++ str "/" ++ name ∧ name <+: baseName path1 ∧
        name ≠ [] ∧ name ≠ baseName path1 := by
  have cut : moveTarget path1 path2 = (path2 ++ (str "/" ++ baseName path1)).take 4095 := by
    rw [← List.append_assoc]
    rfl
  rw [List.take_append] at cut
  by_cases whole : path2.length = 4095
  · refine Or.inl (cut.trans ?_)
    rw [List.take_of_length_le (by omega), whole, Nat.sub_self, List.take_zero, List.append_nil]
  rw [List.take_of_length_le (by omega), List.take_append,
    List.take_of_length_le (show (str "/").length ≤ 4095 - path2.length by
      show 1 ≤ _
      omega)] at cut
  rw [← List.append_assoc] at cut
  refine Or.inr ?_
  by_cases none : (baseName path1).take (4095 - path2.length - (str "/").length) = []
  · rw [none, List.append_nil] at cut
    exact Or.inl cut
  · refine Or.inr ⟨_, cut, List.take_prefix _ _, none, fun same => ?_⟩
    have length := congrArg List.length same
    rw [List.length_take] at length
    have one : (str "/").length = 1 := rfl
    omega

/-- A path that has lost a part of the name leads to a directory or to another place. -/
theorem resolve_ne_of_cut (view : View) {path name base : List UInt8} (filled : path ≠ [])
    (unbroken : (47 : UInt8) ∉ base) (front : name <+: base) (named : name ≠ [])
    (lost : name ≠ base) :
    view.resolve (path ++ str "/" ++ name) = view.resolve path ∨
      view.resolve (path ++ str "/" ++ name) ≠ view.resolve (path ++ str "/" ++ base) := by
  have shorter : name.length < base.length :=
    lt_of_le_of_ne front.length_le fun same => lost (front.eq_of_length same)
  have long : 0 < name.length := List.length_pos_iff.mpr named
  have whole : base ≠ [] := by
    rintro rfl
    exact absurd shorter (Nat.not_lt_zero _)
  rw [resolve_append_name view filled named fun member => unbroken (front.subset member),
    resolve_append_name view filled whole unbroken]
  unfold Location.step
  by_cases dot : name = str "."
  · exact Or.inl (if_pos dot)
  · refine Or.inr ?_
    have notDot : base ≠ str "." := by
      rintro rfl
      have one : (str ".").length = 1 := rfl
      omega
    have notDots : base ≠ str ".." := by
      rintro rfl
      obtain ⟨rest, split⟩ := front
      cases name with
      | nil => exact named rfl
      | cons first later =>
        cases later with
        | nil =>
          have head : first = 46 := (List.cons.inj split).1
          exact dot (by rw [head]; rfl)
        | cons second more =>
          have two : (str "..").length = 2 := rfl
          simp only [List.length_cons] at shorter
          omega
    rw [if_neg dot, if_neg notDot, if_neg notDots]
    by_cases dots : name = str ".."
    · rw [if_pos dots]
      intro same
      have length := congrArg List.length same
      rw [List.length_append, List.length_singleton] at length
      split at length
      · omega
      · rw [List.length_dropLast] at length
        omega
    · rw [if_neg dots]
      intro same
      exact lost (List.singleton_inj.mp (List.append_cancel_left same))

/-- A file is at another place, where nothing was before, with its content and its attributes, and
everything else is as it was. -/
structure Moved (before after : Disk) (source target : Location) : Prop where
  /-- Nothing was there. -/
  free : before.node target = none
  /-- The file is there, and is no longer where it was. -/
  entries : ∃ content, before.node source = some (.regular content) ∧
    after.node = Function.update (Function.update before.node source none) target
      (some (.regular content))
  /-- It has kept its attributes. -/
  attributes : after.attributes =
    Function.update before.attributes target (before.attributes source)

/-- A move puts the file under its own name into the directory if it answers with zero, and otherwise
leaves the disk. -/
def MovesExactly (machine : Machine) (session : ClientSession) (path1 path2 : List UInt8)
    (answer : Option HelperResponse) (after : Disk) : Prop :=
  ∀ response, answer = some response →
    (response.status = 0 → ∃ view, machine.Enters session.homeText session.workdirText view ∧
      Moved machine.disk after (view.resolve path1)
        (view.resolve (path2 ++ str "/" ++ baseName path1))) ∧
    (response.status ≠ 0 → after = machine.disk)

namespace Machine

/-- The checks of a move find the directory and nothing at the path put together, and the file can be
renamed to it. -/
structure MoveGoes (machine : Machine) (path1 path2 : List UInt8) : Prop where
  /-- The directory. -/
  directory : ∃ place, machine.Finds path2 place ∧ machine.tree.node place = some .directory
  /-- Nothing at the path. -/
  missing : ∀ place, machine.Finds (moveTarget path1 path2) place → machine.tree.node place = none
  /-- The file can be renamed. -/
  renames : machine.Renames path1 (moveTarget path1 path2)

/-- The process after a file has been renamed. -/
def renamed (machine : Machine) (source target : Location) (content : List UInt8) : Machine :=
  { machine with
    tree := (machine.tree.erase source).insert target (.regular content)
    world := machine.moved source target }

variable {machine : Machine} {path1 path2 : List UInt8}

/-- A file that can be renamed to a path where nothing lies gets to the place that it names. -/
theorem MoveGoes.rename (goes : machine.MoveGoes path1 path2) {source : Location}
    {content : List UInt8} (finds : machine.Finds path1 source)
    (file : machine.tree.node source = some (.regular content)) :
    ∃ target, machine.view.resolve (moveTarget path1 path2) = target ∧
      machine.tree.node target = none ∧
      machine.tree.rename machine.view path1 (moveTarget path1 path2) =
        some ((machine.tree.erase source).insert target (.regular content)) := by
  obtain ⟨allowed, renames⟩ := goes.renames
  rw [Bool.and_eq_true, Bool.and_eq_true] at allowed
  obtain ⟨after, done⟩ := Option.isSome_iff_exists.mp renames
  obtain ⟨source', target, from_, to_, -⟩ := FileTree.rename_finds done
  obtain rfl := Option.some.inj (finds.2.symm.trans from_)
  have free := goes.missing target ⟨allowed.1.2, to_⟩
  rw [FileTree.rename_regular from_ to_ file, free] at done
  refine ⟨target, FileTree.resolve_of_find to_, free, ?_⟩
  rw [FileTree.rename_regular from_ to_ file, free]
  split at done
  · cases done
  · rename_i possible
    exact if_neg possible

/-- Under the lock of its source a move either goes or changes nothing. -/
theorem ends_moveLocked {source : Location} {content : List UInt8}
    (finds : machine.Finds path1 source)
    (file : machine.tree.node source = some (.regular content)) :
    (moveLocked path1 path2).Ends calls machine fun _ result after =>
      match result with
      | .error _ => ¬ machine.MoveGoes path1 path2 ∧ after = machine
      | .ok _ => machine.MoveGoes path1 path2 ∧
          after = machine.renamed source (machine.view.resolve (moveTarget path1 path2)) content := by
  obtain ⟨-, -, st, -, -, reported, -⟩ | ⟨missing, -⟩ := machine.calls_stat path1
  · refine Script.Ends.call reported ?_
    obtain ⟨place, node, stDest, found, lies, reported, type⟩ | ⟨missing, failure, failed⟩ :=
      machine.calls_stat path2
    · refine Script.Ends.call reported ?_
      show Script.Ends _ _ _ (if stDest.type ≠ .directory then pure (Except.error _) else _)
      by_cases directory : stDest.type = .directory
      · rw [if_neg (not_not.mpr directory)]
        have here : machine.tree.node place = some .directory := by rw [lies, type.mp directory]
        show Script.Ends _ _ _ (system (.stat (moveTarget path1 path2)) >>= _)
        obtain ⟨other, there, stCheck, found', lies', reported, -⟩ | ⟨free, failure, failed⟩ :=
          machine.calls_stat (moveTarget path1 path2)
        · refine Script.Ends.call reported (Script.ends_pure.mpr ⟨fun goes => ?_, rfl⟩)
          exact nomatch (goes.missing other found').symm.trans lies'
        · refine Script.Ends.call failed ?_
          show Script.Ends _ _ _ (system (.rename path1 (moveTarget path1 path2)) >>= _)
          obtain ⟨after, renames, done, called⟩ | ⟨refused, failure, failed⟩ :=
            machine.calls_rename path1 (moveTarget path1 path2)
          · have goes : machine.MoveGoes path1 path2 := ⟨⟨place, found, here⟩, free, renames⟩
            obtain ⟨target, named, -, result⟩ := goes.rename finds file
            refine Script.Ends.call called (Script.ends_pure.mpr ⟨goes, ?_⟩)
            rw [named, finds.resolve]
            cases done.symm.trans result
            rfl
          · exact Script.Ends.call failed
              (Script.ends_pure.mpr ⟨fun goes => refused goes.renames, rfl⟩)
      · rw [if_pos directory]
        refine Script.ends_pure.mpr ⟨fun goes => ?_, rfl⟩
        obtain ⟨other, found', here⟩ := goes.directory
        obtain rfl := found.unique found'
        exact directory (type.mpr (Option.some.inj (lies.symm.trans here)))
    · refine Script.Ends.call failed (Script.ends_pure.mpr ⟨fun goes => ?_, rfl⟩)
      obtain ⟨other, found', here⟩ := goes.directory
      exact nomatch (missing other found').symm.trans here
  · exact nomatch (missing source finds).symm.trans file

/-- What is on the disk after a file has been renamed. -/
theorem disk_renamed {source target : Location} {content : List UInt8}
    (file : machine.tree.node source = some (.regular content))
    (free : machine.tree.node target = none) :
    (machine.renamed source target content).disk =
      ⟨Function.update (Function.update machine.tree.node source none) target
          (some (.regular content)),
        Function.update machine.world.attributes target (machine.world.attributes source)⟩ := by
  unfold disk renamed
  rw [moved_regular machine file, FileTree.node_renamed file (by simp [free])]

end Machine

/-- The run of a move by a new process of the helper. -/
def moveRun (machine : Machine) (session : ClientSession) (path1 path2 : List UInt8) :
    Script.Execution HelperOp HelperOp.Answer HelperOutcome Machine :=
  (handleHelperMove session path1 path2 (.blank HelperCommand.move.toWord)).runOn Machine.calls
    machine.fresh

/-- A file renamed to the path put together is moved exactly if nothing was cut off. -/
theorem moved_iff {machine : Machine} {path1 path2 : List UInt8} (short : path2.length < 4096)
    (goes : machine.MoveGoes path1 path2) {source : Location} {content : List UInt8}
    (finds : machine.Finds path1 source)
    (file : machine.tree.node source = some (.regular content)) :
    Moved machine.disk
        (machine.renamed source (machine.view.resolve (moveTarget path1 path2)) content).disk source
        (machine.view.resolve (path2 ++ str "/" ++ baseName path1)) ↔
      path2.length + 1 + (baseName path1).length < 4096 := by
  obtain ⟨target, named, free, -⟩ := goes.rename finds file
  have disk := Machine.disk_renamed file free
  constructor
  · intro moved
    by_contra long
    obtain ⟨place, found, here⟩ := goes.directory
    have filled : path2 ≠ [] := by
      rintro rfl
      cases found.2
    -- where something is cut off, the file is not where it should be
    have other : machine.view.resolve (moveTarget path1 path2) ≠
        machine.view.resolve (path2 ++ str "/" ++ baseName path1) := by
      have apart : machine.view.resolve (moveTarget path1 path2) ≠ machine.view.resolve path2 := by
        rw [found.resolve, named]
        rintro rfl
        exact nomatch free.symm.trans here
      obtain same | same | ⟨name, same, front, left, lost⟩ :=
        moveTarget_cases short (Nat.not_lt.mp long)
      · exact absurd (congrArg _ same) apart
      · refine absurd ?_ apart
        unfold View.resolve
        rw [same, origin_append _ filled, components_append_slash]
      · rw [same] at apart ⊢
        exact (resolve_ne_of_cut machine.view filled (unbroken_baseName path1) front left
          lost).resolve_left apart
    obtain ⟨content', here', left⟩ := moved.entries
    rw [named] at other left
    rw [disk] at left
    have lies := (Function.update_self _ _ _).symm.trans (congrFun left target)
    rw [Function.update_of_ne other] at lies
    by_cases same : target = source
    · subst same
      exact nomatch free.symm.trans file
    · rw [Function.update_of_ne same] at lies
      exact nomatch lies.trans free
  · intro fits
    rw [← moveTarget_eq fits, named, disk]
    exact ⟨free, ⟨content, file, rfl⟩, rfl⟩

/-- The home of a user with a directory beside her file. -/
def aliceDocs : Machine :=
  { aliceMachine with
    tree := [⟨[str "srv"], .directory⟩, ⟨[str "srv", str "alice"], .directory⟩,
      ⟨[str "srv", str "alice", str "docs"], .directory⟩,
      ⟨[str "srv", str "alice", str "notes"], .regular (str "draft")⟩].toAList
    world := { aliceMachine.world with
      attributes := fun place => if place = [str "srv", str "alice", str "notes"]
        then ⟨1000, 1000, 0o644⟩ else ⟨1000, 1000, 0o755⟩ } }

/-- The directory, named with so many slashes that only two letters of the file fit behind them. -/
def manySlashes : List UInt8 := str "docs" ++ List.replicate 4088 47

end FileServer
