import FileServer.Lib.CString

/-!
# Paths

Names in a tree of directories without symbolic links. A path is cut at its slashes into
components, which a process follows from its root or from its current directory: a dot stays, two
dots go up, though never above the root of the process, and a name goes down. `View.resolve` is the
place that a path names; `View.lookup` also asks for a directory wherever a component starts from.
-/
namespace FileServer.Lib

/-- A place in the tree: the names on the way down to it. -/
abbrev Location := List (List UInt8)

/-- The components of a path. -/
def components (path : List UInt8) : List (List UInt8) := words 47 path

/-- The path starts at the root of the process. -/
def isAbsolute (path : List UInt8) : Bool := path.head? = some 47

/-- A name that a directory can give to one of its entries. -/
structure ProperName (name : List UInt8) : Prop where
  /-- It is not empty. -/
  filled : name ≠ []
  /-- It has no slash. -/
  unbroken : (47 : UInt8) ∉ name
  /-- It is not the name for the directory itself. -/
  notDot : name ≠ str "."
  /-- It is not the name for the directory above. -/
  notDots : name ≠ str ".."

namespace Location

/-- Every name on the way is one that a directory can give. -/
def Proper (location : Location) : Prop := ∀ name ∈ location, ProperName name

/-- The absolute path of a place. -/
def render (location : Location) : List UInt8 :=
  if location = [] then str "/" else location.flatMap fun name => 47 :: name

/-- One component, followed from a place by a process with the given root. -/
def step (root here : Location) (name : List UInt8) : Location :=
  if name = str "." then here
  else if name = str ".." then if here = root then here else here.dropLast
  else here ++ [name]

/-- The components of a path one after the other. -/
def walk (root here : Location) (names : List (List UInt8)) : Location :=
  names.foldl (step root) here

/-- A component would go up from the root of the process. -/
def climbs (root : Location) : Location → List (List UInt8) → Bool
  | _, [] => false
  | here, name :: later =>
    (name = str ".." ∧ here = root) || climbs root (step root here name) later

/-- The same where every component must start from a directory. -/
def follow (isDirectory : Location → Bool) (root : Location) :
    Location → List (List UInt8) → Option Location
  | here, [] => some here
  | here, name :: later =>
    if isDirectory here then follow isDirectory root (step root here name) later else none

end Location

/-- The root and the current directory of a process. -/
structure View where
  /-- Where absolute paths start. -/
  root : Location
  /-- Where relative paths start. -/
  cwd : Location
deriving DecidableEq

namespace View

/-- A process with the root of the system. -/
def system : View := ⟨[], []⟩

/-- Where a path starts. -/
def origin (view : View) (path : List UInt8) : Location :=
  if isAbsolute path then view.root else view.cwd

/-- The place that a path names. -/
def resolve (view : View) (path : List UInt8) : Location :=
  Location.walk view.root (view.origin path) (components path)

/-- The place that a path names, if there is a directory at the start of each component. The empty
path names nothing. -/
def lookup (isDirectory : Location → Bool) (view : View) (path : List UInt8) : Option Location :=
  if path = [] then none
  else Location.follow isDirectory view.root (view.origin path) (components path)

/-- A process with another root, and then in another directory. -/
def enter (view : View) (root directory : List UInt8) : View :=
  let top := view.resolve root
  ⟨top, View.resolve ⟨top, view.cwd⟩ directory⟩

end View

/-- A slash separates the components before it from those after it. -/
theorem components_slash (before after : List UInt8) :
    components (before ++ 47 :: after) = components before ++ components after :=
  words_append_delimiter 47 before after

/-- A name is its own component. -/
theorem ProperName.components {name : List UInt8} (proper : ProperName name) :
    components name = [name] :=
  words_single proper.unbroken proper.filled

/-- The components of the path of a place are the names on the way. -/
theorem Location.Proper.components {location : Location} (proper : location.Proper) :
    components location.render = location := by
  unfold render
  split
  · rename_i empty
    subst empty
    rfl
  · clear * - proper
    induction location with
    | nil => exact words_nil 47
    | cons name later ih =>
      have split : (name :: later).flatMap (fun name => 47 :: name) =
          47 :: (name ++ later.flatMap fun name => 47 :: name) := by simp
      have here := proper name List.mem_cons_self
      have rest := ih fun other member => proper other (List.mem_cons_of_mem name member)
      rw [split]
      unfold Lib.components
      rw [words_delimiter]
      cases later with
      | nil =>
        rw [List.flatMap_nil, List.append_nil]
        exact here.components
      | cons next more =>
        have tail : (next :: more).flatMap (fun name => 47 :: name) =
            47 :: (next ++ more.flatMap fun name => 47 :: name) := by simp
        rw [tail] at rest ⊢
        unfold Lib.components at rest
        rw [words_delimiter] at rest
        rw [words_append_delimiter, rest]
        exact congrArg (· ++ _) here.components

/-- The path of a place starts with a slash. -/
theorem Location.isAbsolute_render (location : Location) :
    isAbsolute location.render = true := by
  unfold render
  cases location with
  | nil => rfl
  | cons name later => simp [isAbsolute]

/-- The path of a place goes on being absolute with anything behind it. -/
theorem Location.isAbsolute_render_append (location : Location) (rest : List UInt8) :
    isAbsolute (location.render ++ rest) = true := by
  have absolute := location.isAbsolute_render
  unfold isAbsolute at absolute ⊢
  rw [List.head?_append, of_decide_eq_true absolute]
  rfl

/-- A component is a part of the path; it is not empty and has no slash. -/
theorem sound_of_mem_components {path name : List UInt8} (member : name ∈ components path) :
    name <:+: path ∧ name ≠ [] ∧ (47 : UInt8) ∉ name := by
  by_cases broken : (47 : UInt8) ∈ path
  · obtain ⟨before, after, rfl⟩ := List.append_of_mem broken
    rw [components_slash, List.mem_append] at member
    cases member with
    | inl first =>
      obtain ⟨inside, sound⟩ := sound_of_mem_components first
      exact ⟨inside.trans (List.prefix_append before (47 :: after)).isInfix, sound⟩
    | inr last =>
      obtain ⟨inside, sound⟩ := sound_of_mem_components last
      have behind : after <:+ before ++ 47 :: after := ⟨before ++ [47], by simp⟩
      exact ⟨inside.trans behind.isInfix, sound⟩
  · by_cases empty : path = []
    · subst empty
      exact absurd member (by simp [components])
    · have whole : components path = [path] := words_single broken empty
      rw [whole, List.mem_singleton] at member
      subst member
      exact ⟨List.infix_rfl, empty, broken⟩
termination_by path.length
decreasing_by
  all_goals
    subst path
    rw [List.length_append, List.length_cons]
    omega

/-- A component is a part of the path. -/
theorem infix_of_mem_components {path name : List UInt8} (member : name ∈ components path) :
    name <:+: path :=
  (sound_of_mem_components member).1

/-- The last byte of a path ends the last component, unless it is a slash. -/
theorem components_append_byte (front : List UInt8) : ∃ before last, ∀ byte, byte ≠ 47 →
    components (front ++ [byte]) = before ++ [last ++ [byte]] := by
  have single : ∀ (last : List UInt8) (byte : UInt8), (47 : UInt8) ∉ last → byte ≠ 47 →
      components (last ++ [byte]) = [last ++ [byte]] := by
    intro last byte unbroken other
    apply words_single
    · simpa using ⟨unbroken, other.symm⟩
    · simp
  by_cases broken : (47 : UInt8) ∈ front
  · -- the last slash is the first one from behind
    obtain ⟨behind, ahead, split, unbroken⟩ :=
      List.eq_append_cons_of_mem (List.mem_reverse.mpr broken)
    have whole : front = ahead.reverse ++ 47 :: behind.reverse := by
      rw [← List.reverse_reverse front, split]
      simp
    refine ⟨components ahead.reverse, behind.reverse, fun byte other => ?_⟩
    rw [whole, List.append_assoc, List.cons_append, components_slash,
      single _ byte (by simpa using unbroken) other]
  · exact ⟨[], front, fun byte other => single front byte broken other⟩

namespace Location

variable {root here : Location}

/-- One walk after the other. -/
theorem walk_append (root here : Location) (first later : List (List UInt8)) :
    walk root here (first ++ later) = walk root (walk root here first) later := by
  unfold walk
  exact List.foldl_append

/-- A walk that never goes up ends below its start, behind the names that it goes through. -/
theorem walk_downward (root here : Location) {names : List (List UInt8)}
    (down : str ".." ∉ names) :
    walk root here names = here ++ names.filter fun name => name ≠ str "." := by
  induction names generalizing here with
  | nil => exact (List.append_nil here).symm
  | cons name later ih =>
    have forward : name ≠ str ".." := fun same => down (same ▸ List.mem_cons_self)
    have rest : str ".." ∉ later := fun member => down (List.mem_cons_of_mem name member)
    have goes : walk root here (name :: later) = walk root (step root here name) later := rfl
    rw [goes, ih _ rest]
    unfold step
    by_cases stays : name = str "."
    · simp [stays]
    · simp [stays, forward]

/-- The way to a place, followed from another. -/
theorem walk_proper (root here : Location) {names : Location} (proper : names.Proper) :
    walk root here names = here ++ names := by
  have down : str ".." ∉ names := fun member => (proper _ member).notDots rfl
  have kept : (names.filter fun name => name ≠ str ".") = names := by
    apply List.filter_eq_self.mpr
    intro name member
    exact decide_eq_true (proper name member).notDot
  rw [walk_downward root here down, kept]

/-- The path of a place, followed from the root of the system, leads there. -/
theorem Proper.resolve {location : Location} (proper : location.Proper) {view : View} :
    view.resolve location.render = view.root ++ location := by
  unfold View.resolve View.origin
  rw [location.isAbsolute_render, if_pos rfl, proper.components, walk_proper _ _ proper]

/-- Where a path can be followed, it leads to the place that it names. -/
theorem walk_of_follow {isDirectory : Location → Bool} {names : List (List UInt8)} {place : Location}
    (found : follow isDirectory root here names = some place) : walk root here names = place := by
  induction names generalizing here with
  | nil => exact Option.some.inj found
  | cons name later ih =>
    unfold follow at found
    by_cases starts : isDirectory here = true
    · rw [if_pos starts] at found
      exact ih found
    · rw [if_neg starts] at found
      cases found

end Location

/-- Where a path can be followed, it leads to the place that it names. -/
theorem View.resolve_of_lookup {isDirectory : Location → Bool} {view : View} {path : List UInt8}
    {place : Location} (found : view.lookup isDirectory path = some place) :
    view.resolve path = place := by
  unfold View.lookup at found
  by_cases empty : path = []
  · rw [if_pos empty] at found
    cases found
  · rw [if_neg empty] at found
    exact Location.walk_of_follow found

/-- With more directories a path still leads where it did. -/
theorem Location.follow_mono {isDirectory other : Location → Bool}
    (covers : ∀ place, isDirectory place = true → other place = true) {root here place : Location}
    {names : List (List UInt8)} (found : follow isDirectory root here names = some place) :
    follow other root here names = some place := by
  induction names generalizing here with
  | nil => exact found
  | cons name later ih =>
    unfold follow at found ⊢
    split at found
    · rename_i directory
      rw [if_pos (covers here directory)]
      exact ih found
    · cases found

/-- The same from the root or the current directory of a process. -/
theorem View.lookup_mono {isDirectory other : Location → Bool}
    (covers : ∀ place, isDirectory place = true → other place = true) {view : View}
    {path : List UInt8} {place : Location} (found : view.lookup isDirectory path = some place) :
    view.lookup other path = some place := by
  unfold View.lookup at found ⊢
  split at found
  · cases found
  · rename_i filled
    rw [if_neg filled]
    exact Location.follow_mono covers found

namespace Location

variable {root here : Location}

/-- A component keeps to proper names. -/
theorem Proper.step (proper : here.Proper) {name : List UInt8} (filled : name ≠ [])
    (unbroken : (47 : UInt8) ∉ name) : (step root here name).Proper := by
  unfold Location.step
  split
  · exact proper
  · next other =>
    split
    · split
      · exact proper
      · exact fun part member => proper part (List.dropLast_subset here member)
    · next forward =>
      intro part member
      rcases List.mem_append.mp member with earlier | last
      · exact proper part earlier
      · rw [List.mem_singleton.mp last]
        exact ⟨filled, unbroken, other, forward⟩

/-- A path keeps to proper names. -/
theorem Proper.walk (proper : here.Proper) {names : List (List UInt8)}
    (sound : ∀ name ∈ names, name ≠ [] ∧ (47 : UInt8) ∉ name) : (walk root here names).Proper := by
  induction names generalizing here with
  | nil => exact proper
  | cons name later ih =>
    have first := sound name List.mem_cons_self
    exact ih (proper.step first.1 first.2) fun other member =>
      sound other (List.mem_cons_of_mem _ member)

/-- A component does not lead above the root. -/
theorem prefix_step (inside : root <+: here) (name : List UInt8) : root <+: step root here name := by
  unfold step
  split
  · exact inside
  · split
    · split
      · exact inside
      · next apart =>
        obtain ⟨below, rfl⟩ := inside
        have filled : below ≠ [] := fun empty => apart (by rw [empty, List.append_nil])
        rw [List.dropLast_append_of_ne_nil filled]
        exact List.prefix_append root _
    · exact inside.trans (List.prefix_append here _)

/-- Under another root a component leads to the same place below it. -/
theorem step_behind (top : Location) (inside : root <+: here) (name : List UInt8) :
    step (top ++ root) (top ++ here) name = top ++ step root here name := by
  unfold step
  split
  · rfl
  · split
    · by_cases same : here = root
      · rw [if_pos same, if_pos (by rw [same])]
      · have apart : top ++ here ≠ top ++ root := fun both => same (List.append_cancel_left both)
        have filled : here ≠ [] := by
          rintro rfl
          exact same (List.prefix_nil.mp inside).symm
        rw [if_neg same, if_neg apart, List.dropLast_append_of_ne_nil filled]
    · exact List.append_assoc top here [name]

/-- Under another root a path climbs as before. -/
theorem climbs_behind (top : Location) (inside : root <+: here) (names : List (List UInt8)) :
    climbs (top ++ root) (top ++ here) names = climbs root here names := by
  induction names generalizing here with
  | nil => rfl
  | cons name later ih =>
    unfold climbs
    rw [step_behind top inside name, ih (prefix_step inside name)]
    simp only [List.append_cancel_left_eq]

/-- What does not climb above a root is followed as from a root above it. -/
theorem follow_of_climbs {top : Location} (above : top <+: root) (inside : root <+: here)
    {names : List (List UInt8)} (stays : climbs root here names = false)
    (isDirectory : Location → Bool) :
    follow isDirectory top here names = follow isDirectory root here names := by
  induction names generalizing here with
  | nil => rfl
  | cons name later ih =>
    unfold climbs at stays
    obtain ⟨below, rest⟩ := Bool.or_eq_false_iff.mp stays
    have same : step top here name = step root here name := by
      unfold step
      split
      · rfl
      · split
        · next up =>
          have apart : here ≠ root := fun both => of_decide_eq_false below ⟨up, both⟩
          have higher : here ≠ top := by
            rintro rfl
            exact apart (above.eq_of_length_le inside.length_le)
          rw [if_neg apart, if_neg higher]
        · rfl
    unfold follow
    rw [same, ih (prefix_step inside name) rest]

/-- One path followed after the other. -/
theorem follow_append (isDirectory : Location → Bool) (root here : Location)
    (first later : List (List UInt8)) :
    follow isDirectory root here (first ++ later) =
      (follow isDirectory root here first).bind fun middle =>
        follow isDirectory root middle later := by
  induction first generalizing here with
  | nil => rfl
  | cons name rest ih =>
    rw [List.cons_append, follow, follow]
    split
    · exact ih _
    · rfl

/-- Under another root a path leads to the same place below it. -/
theorem walk_behind (top : Location) (inside : root <+: here) (names : List (List UInt8)) :
    walk (top ++ root) (top ++ here) names = top ++ walk root here names := by
  induction names generalizing here with
  | nil => rfl
  | cons name later ih =>
    show walk (top ++ root) (step (top ++ root) (top ++ here) name) later = _
    rw [step_behind top inside name]
    exact ih (prefix_step inside name)

/-- What does not climb above a root leads where it leads from a root above it. -/
theorem walk_of_climbs {top : Location} (above : top <+: root) (inside : root <+: here)
    {names : List (List UInt8)} (stays : climbs root here names = false) :
    walk top here names = walk root here names := by
  -- a walk is a path that is followed where everything is a directory
  have whole : ∀ (start place : Location), follow (fun _ => true) start place names =
      some (walk start place names) := by
    clear * -
    intro start place
    induction names generalizing place with
    | nil => rfl
    | cons name later ih =>
      unfold follow
      rw [if_pos rfl]
      exact ih _
  have same := follow_of_climbs above inside stays fun _ => true
  rw [whole, whole] at same
  exact Option.some.inj same

/-- A path that climbs above a root does so for the first time at some component. -/
theorem exists_climb {names : List (List UInt8)} (rises : climbs root here names = true) :
    ∃ before later, names = before ++ str ".." :: later ∧ climbs root here before = false ∧
      walk root here before = root := by
  induction names generalizing here with
  | nil => cases rises
  | cons name later ih =>
    by_cases now : name = str ".." ∧ here = root
    · refine ⟨[], later, ?_, rfl, now.2⟩
      rw [now.1]
      rfl
    · unfold climbs at rises
      rw [decide_eq_false now, Bool.false_or] at rises
      obtain ⟨before, rest, split, stays, leads⟩ := ih rises
      refine ⟨name :: before, rest, ?_, ?_, leads⟩
      · rw [split]
        rfl
      · unfold climbs
        rw [decide_eq_false now, Bool.false_or]
        exact stays

/-- Once a path has climbed above a directory, the root above takes the place of that directory for
the rest of it. -/
theorem walk_above {top : Location} {name : List UInt8} {names : List (List UInt8)}
    (inside : top ++ [name] <+: here) (rises : climbs (top ++ [name]) here names = true) :
    ∃ below, walk (top ++ [name]) here names = top ++ [name] ++ below ∧
      walk top here names = top ++ below := by
  obtain ⟨before, later, rfl, stays, leads⟩ := exists_climb rises
  have above : top <+: top ++ [name] := List.prefix_append top [name]
  have higher : walk top here before = top ++ [name] := by
    rw [walk_of_climbs above inside stays, leads]
  have apart : top ++ [name] ≠ top := by simp
  have up : step top (top ++ [name]) (str "..") = top := by
    rw [step, if_neg (by decide), if_pos rfl, if_neg apart, List.dropLast_concat]
  have clamped : step (top ++ [name]) (top ++ [name]) (str "..") = top ++ [name] := by
    rw [step, if_neg (by decide), if_pos rfl, if_pos rfl]
  -- from here on both walks do the same below their roots
  have behind : ∀ start : Location, walk start start later = start ++ walk [] [] later := by
    intro start
    have same := walk_behind start (List.prefix_rfl (l := [])) later
    rwa [List.append_nil] at same
  refine ⟨walk [] [] later, ?_, ?_⟩
  · rw [walk_append, leads]
    show walk _ (step _ _ _) later = _
    rw [clamped, behind]
  · rw [walk_append, higher]
    show walk _ (step _ _ _) later = _
    rw [up, behind]

/-- The way to a place can be followed where every component starts from a directory. -/
theorem follow_proper (root here : Location) {names : Location} (proper : names.Proper)
    (isDirectory : Location → Bool) (place : Location) :
    follow isDirectory root here names = some place ↔ place = here ++ names ∧
      ∀ front, front <+: names → front ≠ names → isDirectory (here ++ front) = true := by
  induction names generalizing here with
  | nil =>
    rw [follow, Option.some.injEq, List.append_nil, eq_comm]
    refine (and_iff_left fun front inside other => ?_).symm
    exact absurd (List.prefix_nil.mp inside) other
  | cons name later ih =>
    have first := proper name List.mem_cons_self
    have rest : Proper later := fun other member => proper other (List.mem_cons_of_mem _ member)
    have down : step root here name = here ++ [name] := by
      rw [step, if_neg first.notDot, if_neg first.notDots]
    unfold follow
    by_cases starts : isDirectory here = true
    · rw [if_pos starts, down, ih _ rest, List.append_assoc]
      refine and_congr_right fun _ => ⟨fun all front inside other => ?_, fun all front inside other => ?_⟩
      · cases front with
        | nil => rwa [List.append_nil]
        | cons head more =>
          obtain ⟨same, tail⟩ := List.cons_prefix_cons.mp inside
          subst same
          have below := all more tail fun whole => other (by rw [whole])
          rwa [List.append_assoc] at below
      · have below := all (name :: front) (List.cons_prefix_cons.mpr ⟨rfl, inside⟩)
          fun same => other (List.cons.inj same).2
        rwa [List.append_assoc]
    · rw [if_neg starts]
      refine iff_of_false nofun fun stands => ?_
      have start := stands.2 [] List.nil_prefix (List.cons_ne_nil name later).symm
      rw [List.append_nil] at start
      exact starts start

end Location

end FileServer.Lib
