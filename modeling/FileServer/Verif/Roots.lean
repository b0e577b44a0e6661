import FileServer.Verif.Workdirs

/-!
# Two roots for one path

A listing follows its path from the directory of the session under the root directory of the server, a
change of directory under the home of the user. Both lead to the same place exactly for the relative
paths that never go up from the home; for all others the root directory of the server takes the place
of the home.
-/
namespace FileServer

open FileServer.Lib

variable {ω : Type}

/-- The path never goes up from the home of a session in the given place below it. -/
def StaysHome (workdir : Location) (path : List UInt8) : Prop :=
  isAbsolute path = false ∧ Location.climbs [] workdir (components path) = false

instance (workdir : Location) (path : List UInt8) : Decidable (StaysHome workdir path) :=
  inferInstanceAs (Decidable (_ ∧ _))

section

variable (top : Location) (name : List UInt8) (workdir : Location) {path : List UInt8}

/-- A path climbs from a place below the home as it does from the same place below the root. -/
theorem climbs_home (names : List (List UInt8)) :
    Location.climbs (top ++ [name]) (top ++ [name] ++ workdir) names =
      Location.climbs [] workdir names := by
  have same := Location.climbs_behind (top ++ [name]) (List.nil_prefix (l := workdir)) names
  rwa [List.append_nil] at same

/-- A path that stays in the home leads to the same directory under both roots. -/
theorem findDirectory_staysHome (tree : FileTree) (stays : StaysHome workdir path) :
    tree.findDirectory ⟨top, top ++ [name] ++ workdir⟩ path =
      tree.findDirectory ⟨top ++ [name], top ++ [name] ++ workdir⟩ path := by
  have relative : ∀ view : View, view.origin path = view.cwd := by
    intro view
    unfold View.origin
    rw [stays.1, if_neg Bool.false_ne_true]
  have same := Location.follow_of_climbs (List.prefix_append top [name])
    (List.prefix_append (top ++ [name]) workdir)
    ((climbs_home top name workdir (components path)).trans stays.2) tree.isDirectory
  rw [FileTree.findDirectory_eq, FileTree.findDirectory_eq]
  unfold View.lookup
  rw [relative, relative, same]

/-- Any other path leads to one place below each root, the same for both. -/
theorem resolve_leaves (leaves : ¬ StaysHome workdir path) :
    ∃ below, View.resolve ⟨top, top ++ [name] ++ workdir⟩ path = top ++ below ∧
      View.resolve ⟨top ++ [name], top ++ [name] ++ workdir⟩ path = top ++ [name] ++ below := by
  unfold View.resolve View.origin
  by_cases absolute : isAbsolute path = true
  · have behind : ∀ start : Location, Location.walk start start (components path) =
        start ++ Location.walk [] [] (components path) := by
      intro start
      have same := Location.walk_behind start (List.prefix_rfl (l := [])) (components path)
      rwa [List.append_nil] at same
    rw [if_pos absolute, if_pos absolute]
    exact ⟨_, behind top, behind (top ++ [name])⟩
  · rw [if_neg absolute, if_neg absolute]
    have rises : Location.climbs (top ++ [name]) (top ++ [name] ++ workdir) (components path) =
        true := by
      rw [climbs_home]
      by_contra stays
      exact leaves ⟨Bool.not_eq_true _ ▸ absolute, Bool.not_eq_true _ ▸ stays⟩
    obtain ⟨below, home, root⟩ :=
      Location.walk_above (List.prefix_append (top ++ [name]) workdir) rises
    exact ⟨below, root, home⟩

end

section

variable {helper : Helper} {host : Host ω} {session : ClientSession} {name : List UInt8}
  {workdir : Location}

/-- The path of a session as a listing puts it together, uncut. -/
theorem formatted_workdir (valid : isUsernameValid (some name) = true) :
    formatted 2056 (str "/" ++ name ++ session.workdirText) =
      str "/" ++ name ++ session.workdirText := by
  have short := (isUsernameValid_iff.mp valid).2.1
  have text : session.workdirText.length ≤ 1024 := by
    have cut := (List.takeWhile_sublist (fun byte : UInt8 => byte != 0)
      (l := session.workdir.bytes)).length_le
    rw [session.workdir.length_bytes] at cut
    exact cut
  refine List.take_of_length_le ?_
  rw [List.length_append, List.length_append]
  have slash : (str "/").length = 1 := rfl
  have bound : name.length ≤ 20 := short
  omega

/-- A valid name is one that a directory can carry. -/
theorem properName_of_valid (valid : isUsernameValid (some name) = true) : ProperName name := by
  obtain ⟨filled, -, letters⟩ := isUsernameValid_iff.mp valid
  refine ⟨filled, fun member => ?_, ?_, ?_⟩
  · exact absurd (letters 47 member) (by decide)
  · rintro rfl
    exact absurd (letters 46 (by decide)) (by decide)
  · rintro rfl
    exact absurd (letters 46 (by decide)) (by decide)

/-- That path spells the name of the home and the way on from there. -/
theorem components_workdir (inside : session.Workdir workdir) (proper : ProperName name) :
    components (str "/" ++ name ++ session.workdirText) = name :: workdir := by
  obtain ⟨rest, spelled⟩ : ∃ rest, workdir.render = 47 :: rest := by
    have absolute := workdir.isAbsolute_render
    unfold isAbsolute at absolute
    exact List.head?_eq_some_iff.mp (of_decide_eq_true absolute)
  have behind : ∀ text : List UInt8, components (47 :: text) = components text := by
    intro text
    exact words_delimiter 47 text
  have way : components rest = workdir := by
    rw [← behind, ← spelled]
    exact inside.proper.components
  rw [inside.text, spelled, components_slash, way]
  show components (47 :: name) ++ workdir = _
  rw [behind, proper.components]
  rfl

/-- The root directory is found, and from there the home and the way to the directory of the session
stand. -/
structure HomeReached (helper : Helper) (host : Host ω) (name : List UInt8) (workdir top : Location) :
    Prop where
  /-- The root directory. -/
  root : host.tree.findDirectory host.view helper.rootDir = some top
  /-- The way. -/
  stands : host.tree.Stands top (name :: workdir)

/-- The sandbox of a listing is entered exactly there. -/
theorem enters_root_iff (valid : isUsernameValid (some name) = true)
    (named : session.usernameText = name) (inside : session.Workdir workdir) (view : View) :
    host.Enters helper.rootDir
        (formatted 2056 (str "/" ++ session.usernameText ++ session.workdirText)) view ↔
      ∃ top, HomeReached helper host name workdir top ∧ view = ⟨top, top ++ [name] ++ workdir⟩ := by
  have proper : Location.Proper (name :: workdir) := by
    intro part member
    rcases List.mem_cons.mp member with rfl | later
    · exact properName_of_valid valid
    · exact inside.proper part later
  unfold Host.Enters
  rw [named, formatted_workdir valid, FileTree.findDirectory_proper proper
    (components_workdir inside (properName_of_valid valid)) (by rfl)]
  constructor
  · rintro ⟨root, place, stands⟩
    refine ⟨view.root, ⟨root, stands⟩, congrArg (View.mk view.root) ?_⟩
    rw [place, List.append_assoc]
    rfl
  · rintro ⟨top, ⟨root, stands⟩, rfl⟩
    refine ⟨root, ?_, stands⟩
    rw [List.append_assoc]
    rfl

/-- The sandbox of a change of directory is entered exactly there as well. -/
theorem enters_home_iff (rooted : helper.rootDir ≠ [])
    (valid : isUsernameValid (some name) = true) (home : session.homeText = helper.homeOf name)
    (inside : session.Workdir workdir) (view : View) :
    host.Enters session.homeText session.workdirText view ↔
      ∃ top, HomeReached helper host name workdir top ∧
        view = ⟨top ++ [name], top ++ [name] ++ workdir⟩ := by
  unfold Host.Enters
  rw [home, inside.text, FileTree.findDirectory_proper inside.proper inside.proper.components
    workdir.isAbsolute_render]
  unfold Helper.homeOf
  rw [FileTree.findDirectory_name (properName_of_valid valid) rooted]
  have way : ∀ top : Location, host.tree.isDirectory top = true →
      (host.tree.Stands top (name :: workdir) ↔
        host.tree.isDirectory (top ++ [name]) = true ∧ host.tree.Stands (top ++ [name]) workdir) := by
    intro top directory
    rw [show name :: workdir = [name] ++ workdir from rfl, FileTree.stands_append]
    refine and_congr_left fun _ => ⟨fun stands => stands [name] List.prefix_rfl, fun here => ?_⟩
    intro front inside
    rcases List.prefix_cons_iff.mp inside with rfl | ⟨rest, rfl, nothing⟩
    · rwa [List.append_nil]
    · rwa [List.prefix_nil.mp nothing]
  constructor
  · rintro ⟨⟨top, root, place, here⟩, second, stands⟩
    rw [place] at here second stands
    have directory := (Option.filter_eq_some_iff.mp root).2
    exact ⟨top, ⟨root, (way top directory).mpr ⟨here, stands⟩⟩, congrArg₂ View.mk place second⟩
  · rintro ⟨top, ⟨root, stands⟩, rfl⟩
    have directory := (Option.filter_eq_some_iff.mp root).2
    obtain ⟨here, below⟩ := (way top directory).mp stands
    exact ⟨⟨top, root, rfl, here⟩, rfl, below⟩

end

section

variable (helper : Helper) (kernel : HostSystem ω) (host : Host ω) (session : ClientSession)
  (path : List UInt8) (place : Location)

/-- A `ls` of the session reads the directory at the place. -/
def ListsAt : Prop :=
  let served := (helper.serve (HelperRequest.plain .ls [path] (some session)).call).runOn
    (Host.calls kernel) host.fresh
  (∃ names, ⟨.opendir path, .ok names⟩ ∈ served.events) ∧
    host.tree.findDirectory served.world.view path = some place

/-- A `cd` of the session enters the directory at the place. -/
def ComesTo : Prop :=
  let served := (helper.serve (HelperRequest.plain .cd [path] (some session)).call).runOn
    (Host.calls kernel) host.fresh
  (∃ cwd, ⟨.getcwd, cwd⟩ ∈ served.events) ∧ served.world.view.cwd = place

variable {kernel}

/-- A listing reads where its sandbox and its path lead. -/
theorem listsAt_iff (grants : kernel.Grants) :
    ListsAt helper kernel host session path place ↔
      ∃ view, host.fresh.Enters helper.rootDir
          (formatted 2056 (str "/" ++ session.usernameText ++ session.workdirText)) view ∧
        host.tree.findDirectory view path = some place := by
  have ends := ends_handleHelperLs kernel host.fresh session path helper.rootDir
    (.blank HelperCommand.ls.toWord)
  constructor
  · rintro ⟨⟨names, opened⟩, found⟩
    exact ⟨_, (ends.opened names opened).1, found⟩
  · rintro ⟨view, enters, found⟩
    obtain ⟨names, opened⟩ := ends.opens grants view place enters found
    have same := (ends.opened names opened).1.unique enters
    exact ⟨⟨names, opened⟩, same ▸ found⟩

/-- A change of directory asks where it is if its sandbox and its path lead somewhere. -/
theorem asks_changeDirectory (grants : kernel.Grants) (res : HelperResponse) {view : View}
    (enters : host.Enters session.homeText session.workdirText view)
    (found : host.tree.findDirectory view path = some place) :
    (changeDirectory session path res).Ends (Host.calls kernel) host fun events _ _ =>
      ∃ cwd, ⟨.getcwd, cwd⟩ ∈ events := by
  apply Script.Ends.bind
  refine (ends_sandboxUser kernel host session session.homeText session.workdirText).weaken
    fun before inside middle ends => ?_
  obtain ⟨⟨entered, first, rfl, leads⟩, granted⟩ := ends
  obtain rfl := granted grants ⟨view, enters⟩
  obtain rfl := (leads rfl).unique enters
  let inHome : Host ω := { host with view := entered, world := first }
  obtain ⟨failure, second, -, none⟩ | ⟨here, second, -, moved⟩ := inHome.calls_chdir kernel path
  · exact absurd ((none grants).symm.trans found) (by simp)
  · refine Script.Ends.call moved (ends_anyCall kernel _ fun cwd => ?_)
    have asked : ∀ later : List HelperEvent, ∃ other, (⟨.getcwd, other⟩ : HelperEvent) ∈
        before ++ ⟨.chdir path, .ok ()⟩ :: ⟨.getcwd, cwd⟩ :: later := by
      intro later
      exact ⟨cwd, List.mem_append_right _ (List.mem_cons_of_mem _ List.mem_cons_self)⟩
    cases cwd with
    | none => exact asked _
    | some newcwd => exact asked _

/-- A change of directory enters where its sandbox and its path lead. -/
theorem comesTo_iff (grants : kernel.Grants) :
    ComesTo helper kernel host session path place ↔
      ∃ view, host.fresh.Enters session.homeText session.workdirText view ∧
        host.tree.findDirectory view path = some place := by
  have failed : (HelperResponse.blank HelperCommand.cd.toWord).status ≠ 0 := by decide
  have ends := ends_changeDirectory kernel host.fresh session path failed
  constructor
  · rintro ⟨⟨cwd, asked⟩, here⟩
    obtain ⟨view, enters, -, found⟩ := ends.entered cwd asked
    exact ⟨view, enters, found.trans (congrArg some here)⟩
  · rintro ⟨view, enters, found⟩
    obtain ⟨cwd, asked⟩ := asks_changeDirectory host.fresh session path place grants
      (.blank HelperCommand.cd.toWord) enters found
    refine ⟨⟨cwd, asked⟩, ?_⟩
    obtain ⟨other, enters', -, found'⟩ := ends.entered cwd asked
    rw [enters'.unique enters] at found'
    exact Option.some.inj (found'.symm.trans found)

end

section

variable {ε : Type} {helper : Helper} {kernel : HostSystem ω} {rest : Surroundings ε}
  {pids : Nat → UInt32}

end

/-- Who is logged in for a client, and where. -/
def whoseHome (run : FileRun UInt32 SharedRegistry) (who : Nat) :
    Option (ClientState × List UInt8 × List UInt8 × List UInt8) :=
  (run.clients who).map fun state =>
    (state.session.state, state.session.usernameText, state.session.homeText,
      state.session.workdirText)

end FileServer
