import FileServer.Lib.Layout
import FileServer.Lib.Paths
import Mathlib.Data.List.AList

/-!
# Trees of files

Directories and regular files at their places, without links, and what the system calls on paths do
to them. Each call takes the view of the process and a path, and either fails or gives the tree
after it. The lemmas at the end say what every call leaves as it was.
-/
namespace FileServer.Lib

/-- What lies at a place. -/
inductive Node
  /-- A directory. -/
  | directory
  /-- A regular file with its content. -/
  | regular (content : List UInt8)
deriving DecidableEq

/-- The nodes at all places but the root, which is always a directory. -/
abbrev FileTree := AList fun _ : Location => Node

namespace FileTree

/-- What lies at a place, if anything does. -/
def node (tree : FileTree) (place : Location) : Option Node :=
  if place = [] then some .directory else tree.lookup place

/-- There is a directory at the place. -/
def isDirectory (tree : FileTree) (place : Location) : Bool := tree.node place = some .directory

/-- Nothing lies below the place. -/
def isBare (tree : FileTree) (place : Location) : Bool :=
  tree.keys.all fun below => ¬ (place <+: below ∧ below ≠ place)

/-- The path ends in a slash, so that it can only name a directory. -/
def endsOpen (path : List UInt8) : Bool := path.getLast? = some 47

/-- The place that a path names, when there is a directory at the start of every component. -/
def find (tree : FileTree) (view : View) (path : List UInt8) : Option Location :=
  (view.lookup tree.isDirectory path).filter fun place =>
    !endsOpen path || (tree.node place).all (· = .directory)

/-- The directory that a path names. -/
def findDirectory (tree : FileTree) (view : View) (path : List UInt8) : Option Location :=
  (tree.find view path).filter tree.isDirectory

/-- The last component of a path is the name of an entry. -/
def namesEntry (path : List UInt8) : Bool :=
  match (components path).getLast? with
  | none => false
  | some name => name ≠ str "." ∧ name ≠ str ".."

/-- `mkdir`. -/
def makeDirectory (tree : FileTree) (view : View) (path : List UInt8) : Option FileTree :=
  match tree.find view path with
  | none => none
  | some place => if tree.node place = none then some (tree.insert place .directory) else none

/-- `rmdir`. -/
def removeDirectory (tree : FileTree) (view : View) (path : List UInt8) : Option FileTree :=
  match tree.findDirectory view path with
  | none => none
  | some place => if namesEntry path ∧ tree.isBare place then some (tree.erase place) else none

/-- `unlink`. -/
def unlink (tree : FileTree) (view : View) (path : List UInt8) : Option FileTree :=
  match tree.find view path with
  | none => none
  | some place =>
    match tree.node place with
    | some (.regular _) => some (tree.erase place)
    | _ => none

/-- A whole directory at another place. -/
def moveBelow (tree : FileTree) (source target : Location) : FileTree :=
  ((tree.erase target).entries.map fun entry =>
    if source <+: entry.1 then ⟨target ++ entry.1.drop source.length, entry.2⟩ else entry).toAList

/-- `rename`. -/
def rename (tree : FileTree) (view : View) (old new : List UInt8) : Option FileTree :=
  match tree.find view old, tree.find view new with
  | some source, some target =>
    match tree.node source, tree.node target with
    | none, _ => none
    | some (.regular _), some .directory => none
    | some (.regular content), _ =>
      if endsOpen new then none
      else some ((tree.erase source).insert target (.regular content))
    | some .directory, some (.regular _) => none
    | some .directory, found =>
      if source = target then some tree
      else if namesEntry old ∧ namesEntry new ∧ ¬ source <+: target ∧
          (found = none ∨ tree.isBare target) then some (tree.moveBelow source target)
      else none
  | _, _ => none

/-- What `open` is asked to do besides reading. -/
structure OpenMode where
  /-- The file is written. -/
  writes : Bool
  /-- A file that does not exist is created. -/
  creat : Bool
  /-- The content of a file is removed. -/
  trunc : Bool
  /-- Only a directory is opened. -/
  directory : Bool

/-- `open`: the place of the file, and the tree after the call. -/
def openFile (tree : FileTree) (view : View) (path : List UInt8) (mode : OpenMode) :
    Option (Location × FileTree) :=
  match tree.find view path with
  | none => none
  | some place =>
    match tree.node place with
    | some .directory => if mode.writes || mode.creat then none else some (place, tree)
    | some (.regular _) =>
      if mode.directory then none
      else some (place, if mode.trunc then tree.insert place (.regular []) else tree)
    | none =>
      if mode.creat && !mode.directory && !endsOpen path then
        some (place, tree.insert place (.regular []))
      else none

/-- Everything at a place and below it is removed. -/
def removeAll (tree : FileTree) (place : Location) : FileTree :=
  ⟨tree.entries.filter fun entry => ¬ place <+: entry.1,
    tree.nodupKeys.sublist List.filter_sublist⟩

/-- A path is removed with everything below it. -/
def removeTree (tree : FileTree) (view : View) (path : List UInt8) : FileTree :=
  match tree.find view path with
  | none => tree
  | some place => tree.removeAll place

/-- Nothing lies where a path leads, nor below. -/
def Vacant (tree : FileTree) (view : View) (path : List UInt8) : Prop :=
  ∀ place, tree.find view path = some place →
    ∀ below, below ≠ [] → place <+: below → tree.node below = none

/-- The content of a regular file. -/
def content (tree : FileTree) (place : Location) : Option (List UInt8) :=
  match tree.node place with
  | some (.regular content) => some content
  | _ => none

/-- `write` at a position of a regular file; a gap behind the end is filled with zeros. -/
def write (tree : FileTree) (place : Location) (position : Nat) (bytes : List UInt8) :
    Option FileTree :=
  (tree.content place).map fun content =>
    tree.insert place (.regular
      (overwrite (content ++ List.replicate (position - content.length) 0) position bytes))

/-- The names of the entries of a directory. -/
def names (tree : FileTree) (place : Location) : List (List UInt8) :=
  tree.keys.filterMap fun below => if below.dropLast = place then below.getLast? else none

section

variable (tree : FileTree)

@[simp]
theorem node_root : tree.node [] = some .directory := if_pos rfl

/-- What lies at the places after an insertion. -/
theorem node_insert {place : Location} (below : place ≠ []) (new : Node) :
    node (tree.insert place new) = Function.update tree.node place (some new) := by
  funext other
  unfold node
  by_cases top : other = []
  · have apart : other ≠ place := fun same => below (same.symm.trans top)
    rw [Function.update_of_ne apart, if_pos top, if_pos top]
  · by_cases same : other = place
    · rw [if_neg top, same, Function.update_self, AList.lookup_insert]
    · rw [if_neg top, Function.update_of_ne same, if_neg top, AList.lookup_insert_ne same]

/-- What lies at the places after a removal. -/
theorem node_erase {place : Location} (below : place ≠ []) :
    node (tree.erase place) = Function.update tree.node place none := by
  funext other
  unfold node
  by_cases top : other = []
  · have apart : other ≠ place := fun same => below (same.symm.trans top)
    rw [Function.update_of_ne apart, if_pos top, if_pos top]
  · by_cases same : other = place
    · rw [if_neg top, same, Function.update_self, AList.lookup_erase]
    · rw [if_neg top, Function.update_of_ne same, if_neg top, AList.lookup_erase_ne same]

/-- What lies at the places after the removal of everything below one. -/
theorem node_removeAll (place : Location) {other : Location} (deep : other ≠ []) :
    (tree.removeAll place).node other = if place <+: other then none else tree.node other := by
  unfold node
  rw [if_neg deep, if_neg deep]
  apply Option.ext
  intro node
  rw [← Option.mem_def, AList.mem_lookup_iff]
  show _ ∈ tree.entries.filter _ ↔ _
  rw [List.mem_filter]
  split
  · rename_i inside
    simp [inside]
  · rename_i outside
    simp [outside, ← Option.mem_def, AList.mem_lookup_iff]

/-- Nothing lies below a bare place. -/
theorem node_of_isBare {place below : Location} (bare : tree.isBare place = true)
    (inside : place <+: below) (other : below ≠ place) (deep : below ≠ []) :
    tree.node below = none := by
  unfold node
  rw [if_neg deep, AList.lookup_eq_none]
  intro member
  have apart := List.all_eq_true.mp bare below member
  exact of_decide_eq_true apart ⟨inside, other⟩

/-- A place that is no directory is not the root. -/
theorem ne_root {place : Location} (other : tree.node place ≠ some .directory) : place ≠ [] := by
  rintro rfl
  exact other tree.node_root

end

section

variable {tree : FileTree} {view : View} {path : List UInt8} {place : Location}

/-- The content of a regular file is that of its node. -/
theorem content_eq_some {content : List UInt8} :
    tree.content place = some content ↔ tree.node place = some (.regular content) := by
  unfold FileTree.content
  cases tree.node place with
  | none => simp
  | some node => cases node <;> simp

/-- What a path leads to in the tree lies at the place that it names. -/
theorem resolve_of_find (found : tree.find view path = some place) : view.resolve path = place :=
  View.resolve_of_lookup (Option.filter_eq_some_iff.mp found).1

/-- The path of a new directory leads to it. -/
theorem find_insert (found : tree.find view path = some place) (free : tree.node place = none) :
    find (tree.insert place .directory) view path = some place := by
  have below : place ≠ [] := tree.ne_root (by simp [free])
  have here : node (tree.insert place .directory) place = some .directory := by
    rw [node_insert tree below, Function.update_self]
  have leads := (Option.filter_eq_some_iff.mp found).1
  refine Option.filter_eq_some_iff.mpr ⟨View.lookup_mono (fun other directory => ?_) leads, ?_⟩
  · apply decide_eq_true
    rw [node_insert tree below]
    by_cases same : other = place
    · rw [same, Function.update_self]
    · rw [Function.update_of_ne same]
      exact of_decide_eq_true directory
  · simp [here]

/-- The removal of a vacant path changes nothing. -/
theorem node_removeTree (vacant : tree.Vacant view path) :
    (tree.removeTree view path).node = tree.node := by
  unfold removeTree
  split
  · rfl
  · rename_i place found
    funext other
    by_cases top : other = []
    · rw [top, node_root, node_root]
    · rw [node_removeAll tree place top]
      split
      · rename_i inside
        exact (vacant place found other top inside).symm
      · rfl

/-- The removal of a path that is not vacant changes something. -/
theorem node_removeTree_ne (occupied : ¬ tree.Vacant view path) :
    (tree.removeTree view path).node ≠ tree.node := by
  unfold Vacant at occupied
  push Not at occupied
  obtain ⟨place, found, below, deep, inside, there⟩ := occupied
  intro same
  have gone := congrFun same below
  unfold removeTree at gone
  simp only [found] at gone
  rw [node_removeAll tree place deep, if_pos inside] at gone
  exact there gone.symm

/-- The removal of a directory that has been made at a vacant path undoes that. -/
theorem node_removeTree_insert (vacant : tree.Vacant view path)
    (found : tree.find view path = some place) (free : tree.node place = none) :
    (removeTree (tree.insert place .directory) view path).node = tree.node := by
  unfold removeTree
  simp only [find_insert found free]
  funext other
  by_cases top : other = []
  · rw [top, node_root, node_root]
  · rw [node_removeAll _ place top, node_insert tree (tree.ne_root (by simp [free]))]
    split
    · rename_i inside
      exact (vacant place found other top inside).symm
    · rename_i outside
      refine Function.update_of_ne ?_ _ _
      rintro rfl
      exact outside List.prefix_rfl

/-- To open a file that is neither created nor cut leaves the tree as it is. -/
theorem openFile_reads {after : FileTree} {mode : OpenMode} (plain : mode.creat = false)
    (whole : mode.trunc = false) (opened : tree.openFile view path mode = some (place, after)) :
    after = tree ∧ view.resolve path = place := by
  unfold openFile at opened
  split at opened
  · cases opened
  · rename_i target found
    have named := resolve_of_find found
    rw [plain, whole] at opened
    split at opened
    · split at opened
      · cases opened
      · cases opened
        exact ⟨rfl, named⟩
    · split at opened
      · cases opened
      · cases opened
        exact ⟨rfl, named⟩
    · cases opened

/-- To open without creating needs something at the place, and a file to write to it. -/
theorem openFile_finds {after : FileTree} {mode : OpenMode} (plain : mode.creat = false)
    (opened : tree.openFile view path mode = some (place, after)) :
    tree.node place ≠ none ∧ (mode.writes = true → tree.node place ≠ some .directory) := by
  unfold openFile at opened
  split at opened
  · cases opened
  · rename_i target found
    rw [plain] at opened
    split at opened
    · rename_i here
      split at opened
      · cases opened
      · rename_i reads
        cases opened
        exact ⟨by simp [here], fun writes => absurd writes (by simpa using reads)⟩
    · rename_i content here
      split at opened
      · cases opened
      · cases opened
        exact ⟨by simp [here], fun _ => by simp [here]⟩
    · cases opened

/-- A path that ends with the name of an entry leads to a place below another. -/
theorem resolve_of_namesEntry (named : namesEntry path = true) :
    ∃ before name, components path = before ++ [name] ∧
      view.resolve path = Location.walk view.root (view.origin path) before ++ [name] := by
  unfold namesEntry at named
  split at named
  · cases named
  · rename_i name last
    obtain ⟨before, whole⟩ := List.getLast?_eq_some_iff.mp last
    have proper := of_decide_eq_true named
    refine ⟨before, name, whole, ?_⟩
    unfold View.resolve
    rw [whole, Location.walk_append]
    show Location.step _ _ name = _
    unfold Location.step
    rw [if_neg proper.1, if_neg proper.2]

/-- What is opened is what the path leads to. -/
theorem openFile_target {after : FileTree} {mode : OpenMode}
    (opened : tree.openFile view path mode = some (place, after)) :
    tree.find view path = some place := by
  unfold openFile at opened
  split at opened
  · cases opened
  · rename_i target found
    split at opened
    · split at opened <;> cases opened
      exact found
    · split at opened <;> cases opened
      exact found
    · split at opened <;> cases opened
      exact found

/-- A file opened for reading and writing exists, and stays as it is. -/
theorem openFile_readWrite {after : FileTree} :
    tree.openFile view path ⟨true, false, false, false⟩ = some (place, after) ↔
      tree.find view path = some place ∧ (∃ content, tree.node place = some (.regular content)) ∧
        after = tree := by
  by_cases found : tree.find view path = some place
  · unfold openFile
    simp only [found]
    cases here : tree.node place with
    | none => simp
    | some node => cases node <;> simp [eq_comm]
  · exact iff_of_false (fun opened => found (openFile_target opened)) fun both => found both.1

/-- A directory opened as such exists, and stays as it is. -/
theorem openFile_directory {after : FileTree} :
    tree.openFile view path ⟨false, false, false, true⟩ = some (place, after) ↔
      tree.find view path = some place ∧ tree.node place = some .directory ∧ after = tree := by
  by_cases found : tree.find view path = some place
  · unfold openFile
    simp only [found]
    cases here : tree.node place with
    | none => simp
    | some node => cases node <;> simp [eq_comm]
  · exact iff_of_false (fun opened => found (openFile_target opened)) fun both => found both.1

/-- A file that is created or cut is empty, and there was a file or nothing before. -/
theorem openFile_create {after : FileTree} :
    tree.openFile view path ⟨true, true, true, false⟩ = some (place, after) ↔
      tree.find view path = some place ∧
        ((∃ content, tree.node place = some (.regular content)) ∨
          tree.node place = none ∧ endsOpen path = false) ∧
        after = tree.insert place (.regular []) := by
  by_cases found : tree.find view path = some place
  · unfold openFile
    simp only [found]
    cases here : tree.node place with
    | none => cases endsOpen path <;> simp [@eq_comm _ after]
    | some node => cases node <;> simp [@eq_comm _ after]
  · exact iff_of_false (fun opened => found (openFile_target opened)) fun both => found both.1

/-- To open a file for writing leaves the content, unless it is cut, and creates an empty file where
there was none. -/
theorem openFile_writes {after : FileTree} {trunc : Bool}
    (opened : tree.openFile view path ⟨true, true, trunc, false⟩ = some (place, after)) :
    tree.node place ≠ some .directory ∧ view.resolve path = place ∧
      after.node = Function.update tree.node place
        (some (.regular (if trunc then [] else (tree.content place).getD []))) := by
  unfold openFile at opened
  split at opened
  · cases opened
  · rename_i target found
    have named := resolve_of_find found
    split at opened
    · cases opened
    · rename_i content here
      have file : tree.node target ≠ some .directory := by simp [here]
      have known : tree.content target = some content := content_eq_some.mpr here
      cases trunc with
      | true =>
        cases opened
        exact ⟨file, named, tree.node_insert (tree.ne_root file) _⟩
      | false =>
        cases opened
        refine ⟨file, named, ?_⟩
        simp only [known, Option.getD_some, Bool.false_eq_true, if_false]
        rw [← here, Function.update_eq_self]
    · rename_i here
      have file : tree.node target ≠ some .directory := by simp [here]
      have unknown : tree.content target = none := by
        unfold content
        rw [here]
      split at opened
      · cases opened
        refine ⟨file, named, ?_⟩
        rw [unknown, Option.getD_none, ite_self]
        exact tree.node_insert (tree.ne_root file) _
      · cases opened

/-- To open a file that is created or cut leaves an empty file. -/
theorem openFile_cuts {after : FileTree}
    (opened : tree.openFile view path ⟨true, true, true, false⟩ = some (place, after)) :
    tree.node place ≠ some .directory ∧ view.resolve path = place ∧
      after.node = Function.update tree.node place (some (.regular [])) :=
  openFile_writes opened

/-- A directory is made where nothing lies. -/
theorem makeDirectory_eq_some {after : FileTree} :
    tree.makeDirectory view path = some after ↔
      ∃ place, tree.find view path = some place ∧ tree.node place = none ∧
        after = tree.insert place .directory := by
  unfold makeDirectory
  cases tree.find view path with
  | none => simp
  | some place => by_cases free : tree.node place = none <;> simp [free, @eq_comm _ after]

/-- A file is removed. -/
theorem unlink_eq_some {after : FileTree} :
    tree.unlink view path = some after ↔
      ∃ place content, tree.find view path = some place ∧
        tree.node place = some (.regular content) ∧ after = tree.erase place := by
  unfold unlink
  cases tree.find view path with
  | none => simp
  | some place =>
    cases here : tree.node place with
    | none => simp [here]
    | some node => cases node <;> simp [here, @eq_comm _ after]

/-- A directory is removed that is named and has no entries. -/
theorem removeDirectory_eq_some {after : FileTree} :
    tree.removeDirectory view path = some after ↔
      ∃ place, tree.findDirectory view path = some place ∧ namesEntry path = true ∧
        tree.isBare place = true ∧ after = tree.erase place := by
  unfold removeDirectory
  cases tree.findDirectory view path with
  | none => simp
  | some place =>
    by_cases bare : namesEntry path = true ∧ tree.isBare place = true
    · simp [bare, @eq_comm _ after]
    · simp only [if_neg bare, reduceCtorEq, Option.some.injEq, false_iff]
      rintro ⟨other, rfl, named, empty, -⟩
      exact bare ⟨named, empty⟩

/-- What is renamed exists, and the names lead somewhere. -/
theorem rename_finds {after : FileTree} {old new : List UInt8}
    (renamed : tree.rename view old new = some after) :
    ∃ source target, tree.find view old = some source ∧ tree.find view new = some target ∧
      tree.node source ≠ none := by
  unfold rename at renamed
  split at renamed
  · rename_i source target from_ to_
    refine ⟨source, target, from_, to_, fun missing => ?_⟩
    rw [missing] at renamed
    cases renamed
  · cases renamed

/-- A file is renamed to a place where no directory lies. -/
theorem rename_regular {old new : List UInt8} {source target : Location} {content : List UInt8}
    (from_ : tree.find view old = some source) (to_ : tree.find view new = some target)
    (file : tree.node source = some (.regular content)) :
    tree.rename view old new =
      if tree.node target = some .directory ∨ endsOpen new = true then none
      else some ((tree.erase source).insert target (.regular content)) := by
  unfold rename
  simp only [from_, to_, file]
  cases here : tree.node target with
  | none => cases endsOpen new <;> simp
  | some node => cases node <;> cases endsOpen new <;> simp

/-- What lies at the places after a file has been renamed. -/
theorem node_renamed {source target : Location} {content : List UInt8}
    (file : tree.node source = some (.regular content))
    (free : tree.node target ≠ some .directory) :
    node ((tree.erase source).insert target (.regular content)) =
      Function.update (Function.update tree.node source none) target (some (.regular content)) := by
  rw [node_insert _ (tree.ne_root free), node_erase _ (tree.ne_root (by simp [file]))]

/-- A write that begins in the content of a file, or at its end, leaves no gap. -/
theorem write_inside {content : List UInt8} {position : Nat}
    (here : tree.content place = some content) (inside : position ≤ content.length)
    (bytes : List UInt8) :
    ∃ after, tree.write place position bytes = some after ∧
      after.node = Function.update tree.node place
        (some (.regular (overwrite content position bytes))) := by
  have file : tree.node place ≠ some .directory := by
    rw [content_eq_some.mp here]
    simp
  have whole : content ++ List.replicate (position - content.length) 0 = content := by
    rw [Nat.sub_eq_zero_of_le inside, List.replicate_zero, List.append_nil]
  refine ⟨tree.insert place (.regular (overwrite content position bytes)), ?_,
    tree.node_insert (tree.ne_root file) _⟩
  unfold write
  rw [here, Option.map_some, whole]

/-- A directory is what a path leads to, if that is one. -/
theorem findDirectory_eq : tree.findDirectory view path =
    (view.lookup tree.isDirectory path).filter tree.isDirectory := by
  unfold findDirectory find
  rw [Option.filter_filter]
  congr 1
  funext place
  cases directory : tree.isDirectory place with
  | false => exact Bool.and_false _
  | true =>
    have here : tree.node place = some .directory := of_decide_eq_true directory
    simp [here]

end

/-- Every place on a way from another is a directory, both ends included. -/
def Stands (tree : FileTree) (start names : Location) : Prop :=
  ∀ front, front <+: names → tree.isDirectory (start ++ front) = true

section

variable {tree : FileTree} {view : View} {path : List UInt8}

/-- A way stands if its parts do. -/
theorem stands_append (start first later : Location) :
    tree.Stands start (first ++ later) ↔
      tree.Stands start first ∧ tree.Stands (start ++ first) later := by
  constructor
  · intro all
    refine ⟨fun front inside => all front (inside.trans (List.prefix_append first later)), ?_⟩
    intro front inside
    rw [List.append_assoc]
    exact all _ ((List.prefix_append_right_inj first).mpr inside)
  · rintro ⟨before, behind⟩ front inside
    rcases List.prefix_or_prefix_of_prefix inside (List.prefix_append first later) with
      short | ⟨rest, rfl⟩
    · exact before front short
    · rw [← List.append_assoc]
      exact behind rest ((List.prefix_append_right_inj first).mp inside)

/-- The path of a place leads there exactly if the way stands. -/
theorem findDirectory_proper {names : Location} (proper : names.Proper)
    (spelled : components path = names) (absolute : isAbsolute path = true) (place : Location) :
    tree.findDirectory view path = some place ↔
      place = view.root ++ names ∧ tree.Stands view.root names := by
  have filled : path ≠ [] := by
    rintro rfl
    exact Bool.false_ne_true absolute
  rw [findDirectory_eq, Option.filter_eq_some_iff, View.lookup, if_neg filled, View.origin,
    if_pos absolute, spelled, Location.follow_proper _ _ proper]
  constructor
  · rintro ⟨⟨rfl, starts⟩, here⟩
    refine ⟨rfl, fun front inside => ?_⟩
    by_cases whole : front = names
    · rwa [whole]
    · exact starts front inside whole
  · rintro ⟨rfl, stands⟩
    exact ⟨⟨rfl, fun front inside _ => stands front inside⟩, stands names List.prefix_rfl⟩

/-- A name behind a path leads to a directory exactly if the path does and the directory has one of
that name. -/
theorem findDirectory_name {name : List UInt8} (proper : ProperName name) (filled : path ≠ [])
    (place : Location) :
    tree.findDirectory view (path ++ str "/" ++ name) = some place ↔
      ∃ top, tree.findDirectory view path = some top ∧ place = top ++ [name] ∧
        tree.isDirectory place = true := by
  have split : components (path ++ str "/" ++ name) = components path ++ [name] := by
    show components (path ++ [47] ++ name) = _
    rw [List.append_assoc, List.singleton_append, components_slash, proper.components]
  have start : view.origin (path ++ str "/" ++ name) = view.origin path := by
    unfold View.origin isAbsolute
    rw [List.append_assoc, List.head?_append_of_ne_nil _ filled]
  have long : path ++ str "/" ++ name ≠ [] := by simp [filled]
  have last : ∀ middle, Location.follow tree.isDirectory view.root middle [name] =
      if tree.isDirectory middle then some (middle ++ [name]) else none := by
    intro middle
    rw [Location.follow, Location.follow, Location.step, if_neg proper.notDot,
      if_neg proper.notDots]
  rw [findDirectory_eq, Option.filter_eq_some_iff, View.lookup, if_neg long, split, start,
    Location.follow_append]
  constructor
  · rintro ⟨found, here⟩
    obtain ⟨middle, leads, goes⟩ := Option.bind_eq_some_iff.mp found
    rw [last] at goes
    obtain ⟨directory, same⟩ := Option.ite_none_right_eq_some.mp goes
    refine ⟨middle, ?_, (Option.some.inj same).symm, here⟩
    rw [findDirectory_eq, Option.filter_eq_some_iff, View.lookup, if_neg filled]
    exact ⟨leads, directory⟩
  · rintro ⟨middle, found, rfl, here⟩
    rw [findDirectory_eq, Option.filter_eq_some_iff, View.lookup, if_neg filled] at found
    refine ⟨Option.bind_eq_some_iff.mpr ⟨middle, found.1, ?_⟩, here⟩
    rw [last, if_pos found.2]

/-- The way to a place that a path leads to stands, if the way to its start does. -/
theorem stands_follow {root here place : Location} {names : List (List UInt8)}
    (found : Location.follow tree.isDirectory root here names = some place)
    (start : ∀ front, front <+: here → front ≠ here → tree.isDirectory front = true)
    (directory : tree.isDirectory place = true) : tree.Stands [] place := by
  induction names generalizing here with
  | nil =>
    cases found
    intro front inside
    by_cases whole : front = place
    · rwa [whole]
    · exact start front inside whole
  | cons name later ih =>
    rw [Location.follow] at found
    obtain ⟨here_, goes⟩ := Option.ite_none_right_eq_some.mp found
    have all : ∀ front, front <+: here → tree.isDirectory front = true := by
      intro front inside
      by_cases whole : front = here
      · rwa [whole]
      · exact start front inside whole
    refine ih goes ?_
    rw [Location.step]
    split
    · exact start
    · split
      · split
        · exact start
        · exact fun front inside _ => all front (inside.trans (List.dropLast_prefix here))
      · intro front inside other
        exact all front ((List.prefix_concat_iff.mp inside).resolve_left other)

/-- The way to a directory that a path leads to stands, if the ways to the places of the process
do. -/
theorem stands_findDirectory {place : Location} (root : tree.Stands [] view.root)
    (cwd : tree.Stands [] view.cwd) (found : tree.findDirectory view path = some place) :
    tree.Stands [] place := by
  rw [findDirectory_eq, Option.filter_eq_some_iff, View.lookup] at found
  obtain ⟨leads, directory⟩ := found
  split at leads
  · cases leads
  · refine stands_follow leads (fun front inside _ => ?_) directory
    unfold View.origin at inside
    split at inside
    · exact root front inside
    · exact cwd front inside

end

/-- Every directory of one tree is one of the other. -/
def Covers (before after : FileTree) : Prop :=
  ∀ place, before.isDirectory place = true → after.isDirectory place = true

section

variable {tree after : FileTree} {view : View} {path : List UInt8} {place : Location}

/-- Directories that stay and stay again. -/
theorem Covers.trans {first second third : FileTree} (earlier : first.Covers second)
    (later : second.Covers third) : first.Covers third :=
  fun place directory => later place (earlier place directory)

/-- A way stands as long as its directories stay. -/
theorem Covers.stands (covers : tree.Covers after) {start names : Location}
    (stands : tree.Stands start names) : after.Stands start names :=
  fun front inside => covers _ (stands front inside)

/-- A new node where no directory is leaves the directories. -/
theorem covers_insert (other : tree.node place ≠ some .directory) (new : Node) :
    tree.Covers (tree.insert place new) := by
  intro directory here
  have here : tree.node directory = some .directory := of_decide_eq_true here
  apply decide_eq_true
  rw [node_insert tree (tree.ne_root other), Function.update_of_ne]
  · exact here
  · rintro rfl
    exact other here

/-- The removal of what is no directory leaves the directories. -/
theorem covers_erase (other : tree.node place ≠ some .directory) :
    tree.Covers (tree.erase place) := by
  intro directory here
  have here : tree.node directory = some .directory := of_decide_eq_true here
  apply decide_eq_true
  rw [node_erase tree (tree.ne_root other), Function.update_of_ne]
  · exact here
  · rintro rfl
    exact other here

/-- `mkdir` leaves the directories. -/
theorem covers_makeDirectory (made : tree.makeDirectory view path = some after) :
    tree.Covers after := by
  obtain ⟨place, -, free, rfl⟩ := makeDirectory_eq_some.mp made
  exact covers_insert (by simp [free]) .directory

/-- `unlink` leaves the directories. -/
theorem covers_unlink (removed : tree.unlink view path = some after) : tree.Covers after := by
  obtain ⟨place, content, -, file, rfl⟩ := unlink_eq_some.mp removed
  exact covers_erase (by simp [file])

/-- `open` leaves the directories. -/
theorem covers_openFile {mode : OpenMode}
    (opened : tree.openFile view path mode = some (place, after)) : tree.Covers after := by
  unfold openFile at opened
  split at opened
  · cases opened
  · rename_i target found
    split at opened
    · split at opened
      · cases opened
      · cases opened
        exact fun _ => id
    · rename_i content here
      split at opened
      · cases opened
      · cases opened
        split
        · exact covers_insert (by simp [here]) _
        · exact fun _ => id
    · rename_i here
      split at opened
      · cases opened
        exact covers_insert (by simp [here]) _
      · cases opened

/-- `write` leaves the directories. -/
theorem covers_write {position : Nat} {bytes : List UInt8}
    (written : tree.write place position bytes = some after) : tree.Covers after := by
  unfold write at written
  obtain ⟨content, here, rfl⟩ := Option.map_eq_some_iff.mp written
  exact covers_insert (by simp [content_eq_some.mp here]) _

/-- `rename` of a file leaves the directories. -/
theorem covers_rename {old new : List UInt8} {source : Location} {content : List UInt8}
    (from_ : tree.find view old = some source)
    (file : tree.node source = some (.regular content))
    (renamed : tree.rename view old new = some after) : tree.Covers after := by
  obtain ⟨source', target, from', to_, -⟩ := rename_finds renamed
  obtain rfl := Option.some.inj (from_.symm.trans from')
  rw [rename_regular from_ to_ file] at renamed
  obtain ⟨possible, same⟩ := Option.ite_none_left_eq_some.mp renamed
  cases same
  have free : tree.node target ≠ some .directory := (not_or.mp possible).1
  intro directory here
  have here : tree.node directory = some .directory := of_decide_eq_true here
  apply decide_eq_true
  have apart : directory ≠ source := by
    rintro rfl
    simp [here] at file
  rw [node_renamed file free, Function.update_of_ne, Function.update_of_ne apart]
  · exact here
  · rintro rfl
    exact free here

/-- `rmdir` takes the last directory from a way that stands, or none. -/
theorem stands_removeDirectory (removed : tree.removeDirectory view path = some after)
    {way : Location} (stands : tree.Stands [] way) (apart : view.resolve path ≠ way) :
    after.Stands [] way := by
  obtain ⟨place, found, -, bare, rfl⟩ := removeDirectory_eq_some.mp removed
  have leads := resolve_of_find (Option.filter_eq_some_iff.mp found).1
  rw [leads] at apart
  intro front inside
  have here : tree.node front = some .directory := of_decide_eq_true (stands front inside)
  by_cases below : place <+: way
  · -- the directory would have an entry on the way
    have last : tree.node way = some .directory := of_decide_eq_true (stands way List.prefix_rfl)
    by_cases top : way = []
    · rw [top] at below
      exact absurd (List.prefix_nil.mp below) fun same => apart (same.trans top.symm)
    · have missing := node_of_isBare tree bare below (Ne.symm apart) top
      rw [last] at missing
      cases missing
  · have other : front ≠ place := by
      rintro rfl
      exact below inside
    apply decide_eq_true
    by_cases top : place = []
    · exact absurd (top ▸ List.nil_prefix) below
    · rw [List.nil_append, node_erase tree top, Function.update_of_ne other]
      exact here

end

end FileTree

end FileServer.Lib
