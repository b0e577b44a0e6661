import FileServer.Model.FileRun
import FileServer.Verif.Accounts
import FileServer.Verif.Directories
import FileServer.Verif.SessionGate

/-!
# The directory of a session

A session keeps its directory as a path, which every command of the helper follows again on the disk as
it has become. The path is that of a place below the home; a `cd /` goes through exactly where every
directory on the way to that place stands, and nothing but a `delete` that names the place itself takes
one of them away.
-/
namespace FileServer

open FileServer.Lib

variable {ω : Type}

/-- The home directory of a session is the place, with a path that its array has room for. -/
structure ClientSession.Home (session : ClientSession) (home : Location) : Prop where
  /-- It is a place. -/
  proper : home.Proper
  /-- Its path. -/
  text : session.homeText = home.render
  /-- The path is terminated in its array. -/
  short : session.homeText.length < absPath

/-- The directory of a session is the place below its home. -/
structure ClientSession.Workdir (session : ClientSession) (workdir : Location) : Prop where
  /-- It is a place. -/
  proper : workdir.Proper
  /-- Its path below the home. -/
  text : session.workdirText = workdir.render

/-- The path of the root. -/
theorem render_nil : Location.render [] = str "/" := if_pos rfl

/-- A session spells one directory only. -/
theorem ClientSession.Workdir.unique {session : ClientSession} {first second : Location}
    (one : session.Workdir first) (other : session.Workdir second) : first = second := by
  rw [← one.proper.components, ← one.text, other.text, other.proper.components]

/-- The home of a session with the same array is the same. -/
theorem ClientSession.Home.keep {session after : ClientSession} {home : Location}
    (at_ : session.Home home) (same : after.home = session.home) : after.Home home := by
  have text : after.homeText = session.homeText := by
    unfold homeText
    rw [same]
    by_cases ended : (0 : UInt8) ∈ session.home.bytes
    · rw [cString_append_of_mem ended, cString_append_of_mem ended]
    · -- without a terminator the path is longer than the array
      have short := at_.short
      unfold homeText at short
      rw [cString_append ended, List.length_append, session.home.length_bytes] at short
      omega
  exact ⟨at_.proper, text.trans at_.text, text ▸ at_.short⟩

/-- The sandbox of a session is entered exactly where the way to its directory stands. -/
theorem enters_iff {host : Host ω} (root : host.view.root = []) {session : ClientSession}
    {home workdir : Location} (inHome : session.Home home) (inside : session.Workdir workdir)
    (view : View) :
    host.Enters session.homeText session.workdirText view ↔
      view = ⟨home, home ++ workdir⟩ ∧ host.tree.Stands [] (home ++ workdir) := by
  have absolute : ∀ place : Location, isAbsolute place.render = true :=
    Location.isAbsolute_render
  unfold Host.Enters
  rw [inHome.text, inside.text,
    FileTree.findDirectory_proper inHome.proper inHome.proper.components (absolute home),
    FileTree.findDirectory_proper inside.proper inside.proper.components (absolute workdir),
    root, FileTree.stands_append, List.nil_append]
  constructor
  · rintro ⟨⟨first, stands⟩, second, below⟩
    rw [first] at second below
    exact ⟨congrArg₂ View.mk first second, stands, below⟩
  · rintro ⟨rfl, stands, below⟩
    exact ⟨⟨rfl, stands⟩, rfl, below⟩

/-- The response to a change of directory carries the path. -/
theorem cdCwd_changed (res : HelperResponse) {cwd : List UInt8} (clean : NulFree cwd)
    (short : cwd.length < absPath) : (res.changed cwd).cdCwd = cwd := by
  have inside : 0 + (cwd ++ [0]).length ≤ res.data.bytes.length := by
    have room : cwd.length < 1024 := short
    rw [res.data.length_bytes, List.length_append, List.length_singleton]
    omega
  have length := (length_overwrite inside).trans res.data.length_bytes
  have stored : (res.changed cwd).data.bytes =
      cwd ++ 0 :: res.data.bytes.drop (cwd.length + 1) := by
    unfold HelperResponse.changed
    rw [CharArray.ofBytes_of_le length.ge, List.take_of_length_le length.le]
    simp [overwrite]
  unfold HelperResponse.cdCwd
  rw [stored, cString_terminated clean]

/-- A session that is told of a change of directory keeps the path. -/
theorem workdirText_changed (session : ClientSession) (res : HelperResponse) {cwd : List UInt8}
    (clean : NulFree cwd) (short : cwd.length < absPath) :
    (session.changeDirectory (res.changed cwd)).workdirText = cwd := by
  show cString (CharArray.strncpy absPath (res.changed cwd).cdCwd).bytes = cwd
  rw [cdCwd_changed res clean short]
  simpa using CharArray.cString_strncpy clean short []

/-- A session that has logged in is in its home. -/
theorem ClientSession.workdir_login (session : ClientSession) (res : HelperResponse)
    (username : List UInt8) : (session.login res username).Workdir [] := by
  refine ⟨fun name member => absurd member List.not_mem_nil, ?_⟩
  have clean : NulFree (str "/") := by decide
  have stored := CharArray.cString_snprintf session.workdir clean (by decide) []
  rw [List.append_nil] at stored
  exact stored

/-- A response that has been written whole is the one that arrives. -/
def Told (events : List HelperEvent) : Prop :=
  ∀ res, ⟨.writeResponse res, true⟩ ∈ events → AccountEnvironment.response events = some res

/-- What comes before the response does not matter if it sends nothing. -/
theorem Told.behind {before after : List HelperEvent}
    (silent : ∀ event ∈ before, event.1.toServer = false) (told : Told after) :
    Told (before ++ after) := by
  intro res member
  rw [response_behind silent]
  rcases List.mem_append.mp member with earlier | later
  · exact absurd (silent _ earlier) Bool.true_eq_false.mp
  · exact told res later

/-- A single response arrives if it has been written whole. -/
theorem told_single (res : HelperResponse) (sent : Bool) : Told [⟨.writeResponse res, sent⟩] := by
  intro other member
  obtain same := List.mem_singleton.mp member
  cases same
  rfl

/-- Most commands end with the only response. -/
theorem told_regainAndRespond (res : HelperResponse) :
    (regainAndRespond res).Every fun events _ => Told events := by
  have quiet : regainRoot.Only Silent := only_regainRoot rfl rfl
  refine (Script.every_bind _ _).mpr (quiet.every.weaken fun before regained silent => ?_)
  cases regained with
  | false => exact Told.behind silent fun res member => absurd member List.not_mem_nil
  | true => exact fun sent => Told.behind silent (told_single res sent)

/-- A change of directory sends one response at most. -/
theorem told_changeDirectory (session : ClientSession) (path : List UInt8)
    (res : HelperResponse) : (changeDirectory session path res).Every fun events _ => Told events := by
  have silent := (silent_sandboxUser session session.homeText session.workdirText).every
  have ahead : ∀ {event : HelperEvent} {later : List HelperEvent}, event.1.toServer = false →
      Told later → Told (event :: later) := by
    intro event later quiet told
    have alone : ∀ other ∈ [event], other.1.toServer = false := by simpa using quiet
    exact Told.behind alone told
  refine (Script.every_bind _ _).mpr (silent.weaken fun before inside quiet => ?_)
  cases inside with
  | false => exact fun sent => Told.behind quiet (told_single _ sent)
  | true =>
    rintro (failure | _)
    · refine (told_regainAndRespond _).weaken fun later _ told => ?_
      exact Told.behind quiet (ahead rfl told)
    · rintro (_ | cwd)
      · refine (told_regainAndRespond _).weaken fun later _ told => ?_
        exact Told.behind quiet (ahead rfl (ahead rfl told))
      · refine (told_regainAndRespond _).weaken fun later _ told => ?_
        exact Told.behind quiet (ahead rfl (ahead rfl told))

section

variable (kernel : HostSystem ω) {host : Host ω} {session : ClientSession} {workdir : Location}
  (inside : session.Workdir workdir) (path : List UInt8)
include inside

/-- A change of directory that succeeds leads from the directory of the session to another place below
its home, which the session spells from then on. -/
theorem changed_of_success {res : HelperResponse}
    (answered : AccountEnvironment.response ((changeDirectory session path
      (.blank HelperCommand.cd.toWord)).runOn (Host.calls kernel) host).events = some res)
    (success : res.status = 0) :
    ∃ top below, host.Enters session.homeText session.workdirText ⟨top, top ++ workdir⟩ ∧
      host.tree.findDirectory ⟨top, top ++ workdir⟩ path = some (top ++ below) ∧
      (session.changeDirectory res).Workdir below := by
  have failed : (HelperResponse.blank HelperCommand.cd.toWord).status ≠ 0 := by decide
  have ends := ends_changeDirectory kernel host session path failed
  obtain ⟨cwd, asked, below_, spelled, same⟩ := ends.answered _ _ (mem_of_response answered) success
  obtain ⟨⟨top, here⟩, enters, root, leads⟩ := ends.entered _ asked
  dsimp only at root
  -- the path of the session leads to a place below the root
  have start : here = top ++ workdir := by
    have second := enters.2
    rw [inside.text, FileTree.findDirectory_proper inside.proper inside.proper.components
      workdir.isAbsolute_render] at second
    exact second.1
  subst start
  rw [root] at below_
  obtain ⟨below, there⟩ := below_
  rw [← there] at leads
  refine ⟨top, below, enters, leads, ?_, ?_⟩
  · have named := FileTree.resolve_of_find (Option.filter_eq_some_iff.mp leads).1
    -- what is walked through lies below the root
    have walked : ∀ from_ : Location, from_.Proper →
        Location.walk top (top ++ from_) (components path) = top ++ below →
          Location.Proper below := by
      intro from_ proper whole
      have same := Location.walk_behind top (List.nil_prefix (l := from_)) (components path)
      rw [List.append_nil, whole] at same
      rw [List.append_cancel_left same]
      exact proper.walk fun name member => (sound_of_mem_components member).2
    unfold View.resolve View.origin at named
    split at named
    · apply walked [] fun name member => absurd member List.not_mem_nil
      rwa [List.append_nil]
    · exact walked workdir inside.proper named
  · rw [same, workdirText_changed session _ cwd.property.1 cwd.property.2, spelled]
    unfold Host.spelled
    rw [root, ← there, List.drop_left]

end

/-- A `cd /` of the session is answered with success and brings it to its home. -/
def ReturnsHome (helper : Helper) (kernel : HostSystem ω) (host : Host ω)
    (session : ClientSession) : Prop :=
  ∃ res, AccountEnvironment.response ((helper.serve
      (HelperRequest.plain .cd [str "/"] (some session)).call).runOn (Host.calls kernel)
        host.fresh).events = some res ∧
    res.status = 0 ∧ (session.changeDirectory res).workdirText = str "/"

/-- A `cd /` goes through exactly where the way to the directory of the session stands, unless the
system refuses a call. -/
theorem returnsHome_iff (helper : Helper) {kernel : HostSystem ω} (grants : kernel.Grants)
    (host : Host ω) {session : ClientSession} {home workdir : Location}
    (inHome : session.Home home) (inside : session.Workdir workdir) :
    ReturnsHome helper kernel host session ↔ host.tree.Stands [] (home ++ workdir) := by
  have none : Location.Proper [] := fun name member => absurd member List.not_mem_nil
  have failed : (HelperResponse.blank HelperCommand.cd.toWord).status ≠ 0 := by decide
  have ends := ends_changeDirectory kernel host.fresh session (str "/") failed
  have entered : ∀ view, host.fresh.Enters session.homeText session.workdirText view ↔
      view = ⟨home, home ++ workdir⟩ ∧ host.tree.Stands [] (home ++ workdir) :=
    enters_iff rfl inHome inside
  have top : ∀ place, host.tree.findDirectory ⟨home, home ++ workdir⟩ (str "/") = some place ↔
      place = home ∧ host.tree.Stands home [] := by
    intro place
    have same : host.tree.findDirectory ⟨home, home ++ workdir⟩ (str "/") = some place ↔
        place = home ++ [] ∧ host.tree.Stands home [] :=
      FileTree.findDirectory_proper none (by decide) (by decide) place
    rwa [List.append_nil] at same
  show (∃ res, AccountEnvironment.response ((changeDirectory session (str "/")
      (.blank HelperCommand.cd.toWord)).runOn (Host.calls kernel) host.fresh).events = some res ∧ _) ↔
    _
  constructor
  · rintro ⟨res, answered, success, -⟩
    obtain ⟨cwd, asked, -⟩ := ends.answered _ _ (mem_of_response answered) success
    obtain ⟨view, enters, -⟩ := ends.entered _ asked
    exact ((entered view).mp enters).2
  · intro stands
    have enters := (entered _).mpr ⟨rfl, stands⟩
    have here : host.tree.Stands home [] := by
      intro front inside
      rw [List.prefix_nil.mp inside, List.append_nil]
      exact stands home (List.prefix_append home workdir)
    have spelled : Host.spelled ⟨home, home⟩ = str "/" := by
      unfold Host.spelled
      rw [List.drop_length]
      exact render_nil
    obtain ⟨res, sent, success⟩ := ends.succeeds grants _ home enters ((top home).mpr ⟨rfl, here⟩)
      List.prefix_rfl (by rw [spelled]; decide) (by rw [spelled]; decide)
    have answered := ((told_changeDirectory session (str "/") _).runOn (Host.calls kernel)
      host.fresh) res sent
    obtain ⟨root, below, enters', leads, text⟩ := changed_of_success kernel inside (str "/") answered
      success
    obtain rfl : root = home := congrArg View.root (enters'.unique enters)
    obtain rfl := List.append_right_eq_self.mp ((top _).mp leads).1
    exact ⟨res, answered, success, text.text.trans render_nil⟩

/-- The request that a handler has sent, if the call is one. -/
def requestOf : HandlerEvent → Option HelperRequest
  | ⟨.sendHelperRequest request, _⟩ => some request
  | _ => none

section

variable {ε : Type} (helper : Helper) (kernel : HostSystem ω) (rest : Surroundings ε)

/-- Only a request reaches the disk. -/
theorem serveOnDisk_other {op : HandlerOp} (other : ∀ request, op ≠ .sendHelperRequest request)
    (state : Host ω × ε) : (serveOnDisk helper kernel rest state op).2.1 = state.1 := by
  cases op with
  | sendHelperRequest request => exact absurd rfl (other request)
  | _ => rfl

/-- A request is served by a new process of the helper, whose response is the one that arrives, unless
it is not sent. -/
theorem serveOnDisk_request (request : HelperRequest) (state : Host ω × ε) :
    let served := (helper.serve request.call).runOn (Host.calls kernel) state.1.fresh
    let answer := serveOnDisk helper kernel rest state (.sendHelperRequest request)
    (answer.2.1 = served.world ∨ answer.2.1 = state.1) ∧
      ∀ res, answer.1 = .answered res →
        AccountEnvironment.response served.events = some res ∧ answer.2.1 = served.world := by
  obtain ⟨host, world⟩ := state
  let connection := (rest world (.sendHelperRequest request)).1
  let served := (helper.serve request.call).runOn (Host.calls kernel) host.fresh
  refine ⟨connection.world_carry served host, fun res same => ?_⟩
  have answered : (connection.carry served host).1 = .answered res := same
  exact HelperAnswer.answered_carry answered

/-- No request deletes the end of a way. -/
def SpareWay (view : View) (way : Location) (events : List HandlerEvent) : Prop :=
  ∀ request ∈ events.filterMap requestOf, request.call.deletes view ≠ some way

/-- Earlier calls and the last one spare a way if all of them do. -/
theorem spareWay_append {view : View} {way : Location} {events : List HandlerEvent}
    {event : HandlerEvent} : SpareWay view way (events ++ [event]) ↔
      SpareWay view way events ∧ SpareWay view way [event] := by
  unfold SpareWay
  rw [List.filterMap_append]
  exact List.forall_mem_append

/-- What the calls of a pass leave on the disk of a way that no request deletes. -/
structure Spared (way : Location) (before : Host ω) (events : List HandlerEvent) (after : Host ω) :
    Prop where
  /-- The helper is started in the same directory. -/
  start : after.start = before.start
  /-- The way goes on standing. -/
  stands : SpareWay before.fresh.view way events → before.tree.Stands [] way →
    after.tree.Stands [] way

/-- The calls of a helper that was started in the same directory. -/
theorem view_fresh {host before : Host ω} (start : host.start = before.start) :
    host.fresh.view = before.fresh.view := by
  show (⟨[], host.start⟩ : View) = ⟨[], before.start⟩
  rw [start]

/-- A call leaves a way that it does not delete. -/
theorem stands_serveOnDisk (op : HandlerOp) {way : Location} {state : Host ω × ε}
    (spares : SpareWay state.1.fresh.view way [⟨op, (serveOnDisk helper kernel rest state op).1⟩])
    (stands : state.1.tree.Stands [] way) :
    (serveOnDisk helper kernel rest state op).2.1.tree.Stands [] way := by
  by_cases asks : ∃ request, op = .sendHelperRequest request
  · obtain ⟨request, rfl⟩ := asks
    rcases (serveOnDisk_request helper kernel rest request state).1 with served | unsent
    · rw [served]
      exact helper.ends_serve request.call kernel state.1.fresh stands
        (spares request (List.mem_singleton.mpr rfl))
    · rw [unsent]
      exact stands
  · rw [serveOnDisk_other helper kernel rest (fun request same => asks ⟨request, same⟩) state]
    exact stands

/-- A call leaves the directory in which the helper is started. -/
theorem start_serveOnDisk (op : HandlerOp) (state : Host ω × ε) :
    (serveOnDisk helper kernel rest state op).2.1.start = state.1.start := by
  by_cases asks : ∃ request, op = .sendHelperRequest request
  · obtain ⟨request, rfl⟩ := asks
    rcases (serveOnDisk_request helper kernel rest request state).1 with served | unsent
    · rw [served]
      exact Host.start_runOn kernel state.1.fresh _
    · rw [unsent]
  · rw [serveOnDisk_other helper kernel rest (fun request same => asks ⟨request, same⟩) state]

/-- A session that is told of a change of directory spells a place below its home, and the way there
stands. -/
theorem changed_serveOnDisk {session : ClientSession} {workdir : Location}
    (inside : session.Workdir workdir) {op : HandlerOp} {state : Host ω × ε} {path : List UInt8}
    {res : HelperResponse}
    (event : cdEvent session path (.answered res) = ⟨op, (serveOnDisk helper kernel rest state op).1⟩)
    (success : res.status = 0) :
    ∃ below, (session.changeDirectory res).Workdir below ∧ ∀ home, session.Home home →
      (serveOnDisk helper kernel rest state op).2.1.tree.Stands [] (home ++ below) := by
  obtain ⟨rfl, answer⟩ := Sigma.mk.inj event
  obtain ⟨-, answers⟩ := serveOnDisk_request helper kernel rest
    (.plain .cd [path] (some session)) state
  obtain ⟨answered, disk⟩ := answers res (eq_of_heq answer).symm
  obtain ⟨top, below, enters, leads, spells⟩ := changed_of_success kernel inside path answered success
  refine ⟨below, spells, fun home inHome => ?_⟩
  obtain ⟨same, stands⟩ := (enters_iff (show state.1.fresh.view.root = [] from rfl) inHome inside
    _).mp enters
  obtain rfl : top = home := congrArg View.root same
  rw [disk]
  refine FileTree.Covers.stands (Host.ends_steady kernel state.1.fresh
    (steady_changeDirectory session path _)) (FileTree.stands_findDirectory ?_ stands leads)
  exact ((FileTree.stands_append [] top workdir).mp stands).1

/-- What the calls of a pass have done of changes of the directory of its session. -/
structure Changed (session : ClientSession) (before : Host ω) (events : List HandlerEvent)
    (after : Host ω) : Prop where
  /-- The helper is started in the same directory. -/
  start : after.start = before.start
  /-- A change that has succeeded leads to a place below the home, and the way there stands unless a
  request deletes it. -/
  leads : ∀ path res, cdEvent session path (.answered res) ∈ events → res.status = 0 →
    ∃ below, (session.changeDirectory res).Workdir below ∧ ∀ home, session.Home home →
      SpareWay before.fresh.view (home ++ below) events → after.tree.Stands [] (home ++ below)

section

variable (pids : Nat → UInt32) (run : FileRun ω ε) (client : Nat) (input : ClientInput)
  (state : HandlerState)

/-- A pass leaves a way that no request deletes. -/
theorem spared_passed (way : Location) :
    let pass := run.passed helper kernel rest pids client input state
    Spared way run.host pass.events pass.world.1 := by
  refine (Script.only_true (clientPass (pids client) state input)).runOn_history
    (serveOnDisk helper kernel rest)
    (fun events world => Spared way run.host events world.1) ?_ ⟨rfl, fun _ => id⟩
  intro events world op spared _
  refine ⟨(start_serveOnDisk helper kernel rest op world).trans spared.start, fun spares stands => ?_⟩
  obtain ⟨earlier, last⟩ := spareWay_append.mp spares
  rw [← view_fresh spared.start] at last
  exact stands_serveOnDisk helper kernel rest op last (spared.stands earlier stands)

/-- A pass leads its session along ways that stand. -/
theorem changed_passed {workdir : Location} (inside : state.session.Workdir workdir) :
    let pass := run.passed helper kernel rest pids client input state
    Changed state.session run.host pass.events pass.world.1 := by
  refine (Script.only_true (clientPass (pids client) state input)).runOn_history
    (serveOnDisk helper kernel rest)
    (fun events world => Changed state.session run.host events world.1) ?_ ⟨rfl, by simp⟩
  intro events world op changed _
  refine ⟨(start_serveOnDisk helper kernel rest op world).trans changed.start,
    fun path res member success => ?_⟩
  rcases List.mem_append.mp member with earlier | last
  · obtain ⟨below, spells, stands⟩ := changed.leads path res earlier success
    refine ⟨below, spells, fun home inHome spares => ?_⟩
    obtain ⟨before, now⟩ := spareWay_append.mp spares
    rw [← view_fresh changed.start] at now
    exact stands_serveOnDisk helper kernel rest op now (stands home inHome before)
  · obtain ⟨below, spells, stands⟩ := changed_serveOnDisk helper kernel rest inside
      (List.mem_singleton.mp last) success
    exact ⟨below, spells, fun home inHome _ => stands home inHome⟩

end

section

variable (pids : Nat → UInt32)

/-- The step serves no deletion of the directory in which it leaves the session of a client. -/
def FileRun.SparesWorkdir (who : Nat) (run : FileRun ω ε) (step : FileStep) : Prop :=
  ∀ client input pass, step = .pass client input → run.clients client = some pass →
    ∀ after state, run.next helper kernel rest pids step = some after →
      after.clients who = some state →
      SpareWay run.host.fresh.view
        (components state.session.homeText ++ components state.session.workdirText)
        (run.passed helper kernel rest pids client input pass).events

/-- A session that has logged in is in its home or in a place below it, to which the way stands if
deletions have spared it. -/
def FileRun.Settled (spared : Prop) (who : Nat) (run : FileRun ω ε) : Prop :=
  ∀ state, run.clients who = some state → state.session.state = .loggedIn →
    ∃ workdir, state.session.Workdir workdir ∧ ∀ home, state.session.Home home →
      spared → workdir ≠ [] → run.host.tree.Stands [] (home ++ workdir)

variable {helper kernel rest pids}

/-- The end of the way that a pass has to spare. -/
theorem ClientSession.Home.way {session : ClientSession} {home workdir : Location}
    (inHome : session.Home home) (inside : session.Workdir workdir) :
    components session.homeText ++ components session.workdirText = home ++ workdir := by
  rw [inHome.text, inside.text, inHome.proper.components, inside.proper.components]

/-- A pass of the session itself. -/
theorem settled_own {spared : Prop} {who : Nat} {run : FileRun ω ε}
    (settled : run.Settled spared who) {input : ClientInput} {state final : HandlerState}
    (alive : run.clients who = some state)
    (left : (run.passed helper kernel rest pids who input state).value = some final)
    (spares : spared → SpareWay run.host.fresh.view
      (components final.session.homeText ++ components final.session.workdirText)
      (run.passed helper kernel rest pids who input state).events)
    (loggedIn : final.session.state = .loggedIn) :
    ∃ workdir, final.session.Workdir workdir ∧ ∀ home, final.session.Home home →
      spared → workdir ≠ [] →
        (run.passed helper kernel rest pids who input state).world.1.tree.Stands []
          (home ++ workdir) := by
  have pass := (passes_clientPass (pids who) state input).runOn (serveOnDisk helper kernel rest)
    (run.host, run.world) final left
  by_cases before : state.session.state = .loggedIn
  · obtain ⟨workdir, inside, stands⟩ := settled state alive before
    have same := (pass.identity before).home.symm
    rcases pass.workdir before with kept | ⟨path, res, event, success, changed⟩
    · have inside_ : final.session.Workdir workdir := by
        refine ⟨inside.proper, ?_⟩
        rw [← inside.text]
        exact congrArg (cString ·.bytes) kept
      refine ⟨workdir, inside_, fun home inHome yes below => ?_⟩
      apply (spared_passed helper kernel rest pids run who input state (home ++ workdir)).stands
      · rw [← inHome.way inside_]
        exact spares yes
      · exact stands home (inHome.keep same) yes below
    · obtain ⟨below, spells, leads⟩ := (changed_passed helper kernel rest pids run who input state
        inside).leads path res event success
      have inside_ : final.session.Workdir below := by
        refine ⟨spells.proper, ?_⟩
        rw [← spells.text]
        exact congrArg (cString ·.bytes) changed
      refine ⟨below, inside_, fun home inHome yes _ => leads home (inHome.keep same) ?_⟩
      rw [← inHome.way inside_]
      exact spares yes
  · rcases pass.login before with same | ⟨username, res, -, -, same⟩
    · exact absurd (same ▸ loggedIn) before
    · refine ⟨[], ?_, fun _ _ _ empty => absurd rfl empty⟩
      rw [same]
      exact state.session.workdir_login res username

/-- Every step leaves the session settled. -/
theorem FileRun.Settled.next {spared : Prop} {who : Nat} {run after : FileRun ω ε} {step : FileStep}
    (settled : run.Settled spared who)
    (spares : spared → run.SparesWorkdir helper kernel rest pids who step)
    (stepped : run.next helper kernel rest pids step = some after) : after.Settled spared who := by
  cases step with
  | transfer upload path session =>
    obtain rfl := Option.some.inj stepped
    intro state alive loggedIn
    obtain ⟨workdir, inside, stands⟩ := settled state alive loggedIn
    refine ⟨workdir, inside, fun home inHome yes below => ?_⟩
    have harmless : (transferRequest upload path session).call.deletes run.host.fresh.view = none := by
      cases upload <;> rfl
    refine helper.ends_serve _ kernel run.host.fresh (stands home inHome yes below) ?_
    rw [harmless]
    exact Option.some_ne_none _ |>.symm
  | pass client input =>
    obtain ⟨pass, ready, same⟩ := Option.map_eq_some_iff.mp stepped
    intro state alive loggedIn
    have kept := fun yes : spared => spares yes client input pass rfl ready after state stepped alive
    subst same
    have now : Function.update run.clients client
        (run.passed helper kernel rest pids client input pass).value who = some state := alive
    by_cases own : who = client
    · subst own
      have left : (run.passed helper kernel rest pids who input pass).value = some state := by
        rwa [Function.update_self] at now
      exact settled_own settled ready left kept loggedIn
    · have same : run.clients who = some state := by
        rwa [Function.update_of_ne own] at now
      obtain ⟨workdir, inside, stands⟩ := settled state same loggedIn
      refine ⟨workdir, inside, fun home inHome yes below => ?_⟩
      apply (spared_passed helper kernel rest pids run client input pass (home ++ workdir)).stands
      · rw [← inHome.way inside]
        exact kept yes
      · exact stands home inHome yes below

/-- Before the first pass nobody has logged in. -/
theorem FileRun.settled_start (spared : Prop) (who : Nat) (host : Host ω) (behind : Nat → UInt8)
    (world : ε) : (start host behind world).Settled spared who := by
  intro state alive loggedIn
  cases alive
  cases loggedIn

/-- In every run, a session that has logged in spells a place below its home. -/
theorem FileRun.workdir_of_run {host : Host ω} {behind : Nat → UInt8} {world : ε} {who : Nat}
    {schedule : List FileStep} {run : FileRun ω ε} {state : HandlerState}
    (reached : runFrom (FileRun.next helper kernel rest pids) (.start host behind world) schedule =
      some run)
    (alive : run.clients who = some state) (loggedIn : state.session.state = .loggedIn) :
    ∃ workdir, state.session.Workdir workdir := by
  have settled : run.Settled False who :=
    run_invariant (FileRun.Settled False who)
      (fun _ _ _ settled stepped => settled.next (fun no => no.elim) stepped)
      (settled_start False who host behind world) reached
  obtain ⟨workdir, inside, -⟩ := settled state alive loggedIn
  exact ⟨workdir, inside⟩

end

end

/-- The home of the user is a path. -/
theorem clean_aliceHome : (0 : UInt8) ∉ str "/srv/alice" := by decide

/-- A system that grants every call and knows one user. -/
def aliceKernel : HostSystem UInt32 where
  answer world op :=
    match op with
    | .getpwnam _ => (some ⟨str "alice", 1000, 1000, str "/srv/alice", clean_aliceHome⟩, world + 1)
    | .getcwd => (some rootPath, world + 1)
    | op => obliging.answer world op
  written _ := 0

/-- It grants the calls about which the tree decides. -/
theorem grants_alice : aliceKernel.Grants := by
  intro world op
  cases op <;> first | trivial | exact rfl | exact ⟨_, rfl⟩ | exact Option.some_ne_none _

/-- The home of the user with an empty directory. -/
def aliceDisk : Host UInt32 where
  tree := [⟨[str "srv"], .directory⟩, ⟨[str "srv", str "alice"], .directory⟩,
    ⟨[str "srv", str "alice", str "docs"], .directory⟩].toAList
  view := ⟨[], []⟩
  files := []
  start := []
  world := 3

/-- A command that a client sends. -/
def typed (text : List UInt8) : Received :=
  (⟨.cmdreq, 0, UInt32.ofNat (text.length + 1), 0, .zero 3⟩, text ++ [0])

/-- Two sessions of the user; one is in the directory that the other deletes. -/
def docsDeleted : List FileStep :=
  [.pass 0 (.message (typed (str "login alice")) (by decide)),
    .pass 0 (.message (typed (str "cd docs")) (by decide)),
    .pass 1 (.message (typed (str "login alice")) (by decide)),
    .pass 1 (.message (typed (str "delete docs")) (by decide))]

/-- What is left of that run of the session that has not deleted anything. -/
def leftOf (run : FileRun UInt32 SharedRegistry) (who : Nat) :
    Option (ClientState × List UInt8 × List UInt8 × List Bool) :=
  (run.clients who).map fun state =>
    (state.session.state, state.session.homeText, state.session.workdirText,
      [run.host.tree.isDirectory [], run.host.tree.isDirectory [str "srv"],
        run.host.tree.isDirectory [str "srv", str "alice"],
        run.host.tree.isDirectory [str "srv", str "alice", str "docs"]])

end FileServer
