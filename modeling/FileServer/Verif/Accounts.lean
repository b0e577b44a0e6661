import FileServer.Model.Accounts
import FileServer.Verif.SessionGate
import FileServer.Verif.Tokenize

/-!
# Accounts that can log in

A login takes the home directory from the database of accounts, a creation of a user puts one
below the root directory there. Sessions are confined to that directory exactly when the
database had no other account with a valid name from the start.
-/
namespace FileServer

open FileServer.Lib

/-- Every account with a valid name has the home directory that the helper gives out. -/
def OwnAccounts (helper : Helper) (accounts : List Account) : Prop :=
  ∀ name, isUsernameValid (some name) = true →
    ∀ account, findAccount accounts name = some account → account.dir = helper.homeOf name

/-- A new user is given the home directory of the helper. -/
def GivesHome (helper : Helper) (op : HelperOp) : Prop :=
  ∀ homeDir username, op = .adduser homeDir username →
    homeDir = formatted absPath (helper.homeOf username)

/-- The home directory of a valid name is short. -/
theorem Helper.length_homeOf (helper : Helper) {name : List UInt8}
    (valid : isUsernameValid (some name) = true) : (helper.homeOf name).length < 85 := by
  have root := helper.short
  have name_ := (isUsernameValid_iff.mp valid).2.1
  have slash : (str "/").length = 1 := by decide
  have limit : maxUsernameLen = 20 := rfl
  simp only [homeOf, List.length_append]
  omega

/-- The home directory of a valid name is a string. -/
theorem Helper.nulFree_homeOf (helper : Helper) {name : List UInt8}
    (valid : isUsernameValid (some name) = true) : NulFree (helper.homeOf name) := by
  intro member
  rcases List.mem_append.mp member with root | last
  · rcases List.mem_append.mp root with root | slash
    · exact helper.clean root
    · revert slash
      decide
  · exact nulFree_of_isUsernameValid valid last

/-- The home directory of a valid name is not cut. -/
theorem Helper.formatted_homeOf (helper : Helper) {name : List UInt8}
    (valid : isUsernameValid (some name) = true) :
    formatted absPath (helper.homeOf name) = helper.homeOf name := by
  have short := helper.length_homeOf valid
  have limit : absPath = 1024 := rfl
  rw [formatted, List.take_of_length_le (by omega)]

/-- An account added has the home directory it is given, one removed or found has its own. -/
theorem own_calls {ω : Type} (env : AccountEnvironment ω) {helper : Helper}
    (state : List Account × ω) {op : HelperOp} (own : OwnAccounts helper state.1)
    (gives : GivesHome helper op) : OwnAccounts helper (env.calls state op).2.1 := by
  obtain ⟨accounts, world⟩ := state
  cases op with
  | adduser homeDir username =>
    simp only [AccountEnvironment.calls]
    split
    · split
      · exact own
      · intro name valid account found
        simp only [findAccount, List.find?_append, Option.or_eq_some_iff] at found
        rcases found with old | ⟨-, new⟩
        · exact own name valid account old
        · simp only [List.find?_cons, List.find?_nil] at new
          split at new
          · rename_i same
            cases new
            rw [decide_eq_true_eq] at same
            subst same
            show cString homeDir = helper.homeOf username
            rw [gives homeDir username rfl, helper.formatted_homeOf valid,
              cString_of_nulFree (helper.nulFree_homeOf valid)]
          · cases new
    · exact own
  | deluser username =>
    simp only [AccountEnvironment.calls]
    split
    · intro name valid account found
      refine own name valid account ?_
      rw [findAccount, List.find?_filter] at found
      rw [findAccount, ← found]
      -- what is left under the name are all the accounts of that name
      have name_ := List.find?_some found
      simp only [decide_eq_true_eq] at name_
      congr 1
      funext other
      by_cases same : other.name = name
      · simp [same, ← name_.2, name_.1]
      · simp [same]
    · exact own
  | _ => exact own

section Helpers

variable {helper : Helper} {α : Type}

/-- A call that adds no user comes first. -/
theorem gives_then {op : HelperOp} {rest : op.Answer → HelperScript α}
    (other : ∀ homeDir username, op ≠ .adduser homeDir username)
    (goes : ∀ answer, (rest answer).Only (GivesHome helper)) :
    (system op >>= rest).Only (GivesHome helper) :=
  Script.Only.bind ((Script.only_perform op).mpr fun homeDir username same =>
    absurd same (other homeDir username)) goes

/-- Taking a lock adds no user. -/
theorem gives_lockFile (path : List UInt8) (type : LockType) :
    (lockFile path type).Only (GivesHome helper) := by
  refine gives_then (by simp) fun opened => ?_
  cases opened with
  | error failure => trivial
  | ok fd =>
    refine gives_then (by simp) fun locked => ?_
    cases locked with
    | error failure => exact gives_then (by simp) fun _ => trivial
    | ok _ => trivial

/-- Giving up a lock adds no user. -/
theorem gives_unlockFile (fd : Descriptor) : (unlockFile fd).Only (GivesHome helper) :=
  gives_then (by simp) fun _ => gives_then (by simp) fun _ => trivial

/-- What undoes the creation of a user adds none. -/
theorem gives_undoUser (lockFd : Descriptor) (username text : List UInt8) :
    (undoUser lockFd username text).Only (GivesHome helper) :=
  gives_then (by simp) fun _ => Script.Only.bind (gives_unlockFile lockFd) fun _ => trivial

/-- A user is created with the home directory of the helper. -/
theorem gives_createSystemUser (lockFilePath username : List UInt8) (privileges : UInt32) :
    (createSystemUser lockFilePath helper.rootDir username privileges).Only
      (GivesHome helper) := by
  have ending : ∀ fd (result : Bool × List UInt8),
      (releaseUserCreationLock fd >>= fun _ => pure result).Only (GivesHome helper) :=
    fun fd _ => Script.Only.bind (gives_unlockFile fd) fun _ => trivial
  refine Script.Only.bind (gives_lockFile _ _) fun locked => ?_
  cases locked with
  | error failure => trivial
  | ok lockFd =>
    refine gives_then (by simp) fun taken => ?_
    cases taken with
    | some account => exact ending _ _
    | none =>
      have given : GivesHome helper
          (.adduser (formatted absPath (helper.rootDir ++ str "/" ++ username)) username) := by
        rintro homeDir other ⟨⟩
        rfl
      refine Script.Only.bind ((Script.only_perform _).mpr given) fun result => ?_
      cases result with
      | notForked => exact ending _ _
      | failed => exact ending _ _
      | succeeded =>
        refine gives_then (by simp) fun found => ?_
        cases found with
        | none => exact gives_undoUser _ _ _
        | some pwd =>
          refine gives_then (by simp) fun made => ?_
          cases made with
          | error failure => exact gives_undoUser _ _ _
          | ok _ =>
            refine gives_then (by simp) fun owned => ?_
            cases owned with
            | error failure => exact gives_undoUser _ _ _
            | ok _ => exact ending _ _

/-- The helper creates a user, or looks one up, with the home directory it gives out. -/
theorem gives_serve {call : HelperCall}
    (cmd : HelperCommand.ofWord call.cmd = some .createUser ∨
      HelperCommand.ofWord call.cmd = some .login) : (helper.serve call).Only (GivesHome helper) := by
  have responding : ∀ res, (system (.writeResponse res) >>= fun _ =>
      pure HelperOutcome.returned).Only (GivesHome helper) :=
    fun res => gives_then (by simp) fun _ => trivial
  rw [Helper.serve]
  split
  · trivial
  rename_i argv args
  rcases cmd with create | login
  · simp only [Helper.execute, create]
    match argv with
    | username :: privileges :: _ =>
      exact Script.Only.bind (gives_createSystemUser _ _ _) fun result => responding _
    | [_] | [] => trivial
  · simp only [Helper.execute, login, handleHelperLogin]
    cases argv.head? with
    | none => exact responding _
    | some username =>
      refine gives_then (by simp) fun found => ?_
      cases found with
      | none => exact responding _
      | some pw => exact responding _

end Helpers

/-- A response that arrives has been written. -/
theorem mem_of_response {events : List HelperEvent} {res : HelperResponse}
    (arrived : AccountEnvironment.response events = some res) :
    ⟨.writeResponse res, true⟩ ∈ events := by
  obtain ⟨⟨op, answer⟩, member, sent⟩ := List.exists_of_findSome?_eq_some arrived
  cases op with
  | writeResponse written =>
    cases answer with
    | true =>
      cases sent
      exact member
    | false => cases sent
  | _ => cases sent

/-- A successful response to a login is that of the account looked up first. -/
theorem every_handleHelperLogin (name : List UInt8) (blank : HelperResponse)
    (unset : blank.status ≠ 0) :
    (handleHelperLogin (some name) blank).Every fun events _ => ∀ res,
      ⟨.writeResponse res, true⟩ ∈ events → res.status = 0 → ∃ account,
        events.head? = some ⟨.getpwnam name, some account⟩ ∧ res = blank.login account := by
  rintro (_ | account) written res member success
  · simp only [List.mem_cons, List.not_mem_nil, or_false, reduceCtorEq, false_or,
      Sigma.mk.injEq, HelperOp.writeResponse.injEq, false_and] at member
    obtain ⟨rfl, -⟩ := member
    exact absurd success unset
  · simp only [List.mem_cons, List.not_mem_nil, or_false, reduceCtorEq, false_or,
      Sigma.mk.injEq, HelperOp.writeResponse.injEq, false_and] at member
    exact ⟨account, rfl, member.1⟩

/-- The response to a login is that of the account found. -/
theorem response_login {ω : Type} (env : AccountEnvironment ω) (helper : Helper)
    (name : List UInt8) (state : List Account × ω) {res : HelperResponse}
    (answered : AccountEnvironment.response
      ((helper.serve (HelperRequest.plain .login [name] none).call).runOn env.calls
        state).events = some res) (success : res.status = 0) :
    ∃ account, findAccount state.1 name = some account ∧
      res = (HelperResponse.blank HelperCommand.login.toWord).login account := by
  obtain ⟨accounts, world⟩ := state
  have execution : helper.serve (HelperRequest.plain .login [name] none).call =
      handleHelperLogin (some name) (.blank HelperCommand.login.toWord) := rfl
  rw [execution] at answered
  have every := every_handleHelperLogin name (.blank HelperCommand.login.toWord) (by decide)
  obtain ⟨account, first, same⟩ := every.runOn env.calls (accounts, world) res
    (mem_of_response answered) success
  refine ⟨account, ?_, same⟩
  have lookup : (env.calls (accounts, world) (.getpwnam name)).1 = some account := by
    simpa [handleHelperLogin] using first
  simp only [AccountEnvironment.calls, Option.bind_eq_some_iff] at lookup
  obtain ⟨-, -, found⟩ := lookup
  exact found

/-- The home directory in a response is that of the account, as much of it as there is room
for. -/
theorem loginHome_login (response : HelperResponse) (pw : Account) :
    (response.login pw).loginHome = cString (CharArray.strncpy 4096 pw.dir).bytes := by
  have size : (Layout.word32.encode pw.uid ++ Layout.word32.encode pw.gid ++
      (CharArray.strncpy 4096 pw.dir).bytes).length = 4104 := by
    simp only [List.length_append, Layout.length_encode, CharArray.length_bytes]
    rfl
  have front : (Layout.word32.encode pw.uid ++ Layout.word32.encode pw.gid).length = 8 := by
    simp only [List.length_append, Layout.length_encode]
    rfl
  rw [HelperResponse.loginHome, HelperResponse.login]
  simp only
  rw [CharArray.ofBytes_of_le size.ge]
  rw [List.take_of_length_le size.le, List.drop_left' front]

/-- A successful login with a valid name brings the home directory that the helper gives out. -/
def BringsHome (helper : Helper) (event : HandlerEvent) : Prop :=
  ∀ username res, event = loginEvent username (.answered res) →
    isUsernameValid (some username) = true → res.status = 0 →
      res.loginHome = helper.homeOf username

/-- Calls of the handlers keep the accounts own ones, whose home directories logins bring. -/
theorem own_serve {ω : Type} (env : AccountEnvironment ω) {helper : Helper}
    (state : List Account × ω) (op : HandlerOp) (own : OwnAccounts helper state.1) :
    OwnAccounts helper (env.serve helper state op).2.1 ∧
      BringsHome helper ⟨op, (env.serve helper state op).1⟩ := by
  obtain ⟨accounts, world⟩ := state
  by_cases served : ∃ cmd argv session, op = .sendHelperRequest (.plain cmd argv session) ∧
      (cmd = .createUser ∨ cmd = .login)
  · obtain ⟨cmd, argv, session, rfl, either⟩ := served
    have word : HelperCommand.ofWord (HelperRequest.plain cmd argv session).call.cmd =
          some .createUser ∨
        HelperCommand.ofWord (HelperRequest.plain cmd argv session).call.cmd = some .login := by
      rcases either with rfl | rfl
      · exact .inl rfl
      · exact .inr rfl
    simp only [AccountEnvironment.serve, either, ↓reduceIte]
    have kept := Script.Only.runOn env.calls (gives_serve word)
      (fun state => OwnAccounts helper state.1) (fun _ _ => True)
      (fun state op own gives => ⟨own_calls env state own gives, trivial⟩)
      (show OwnAccounts helper (accounts,
        (env.server world (.sendHelperRequest (.plain cmd argv session))).2).1 from own)
    refine ⟨?_, fun username res same valid success => ?_⟩
    · rcases HelperAnswer.world_carry (env.server world (.sendHelperRequest (.plain cmd argv session))).1
        ((helper.serve (HelperRequest.plain cmd argv session).call).runOn env.calls (accounts,
          (env.server world (.sendHelperRequest (.plain cmd argv session))).2)) (accounts,
          (env.server world (.sendHelperRequest (.plain cmd argv session))).2) with world_ | world_
      · rw [world_]
        exact kept.1
      · rw [world_]
        exact own
    · obtain ⟨request, answer⟩ := Sigma.mk.inj same
      cases request
      obtain ⟨arrived, -⟩ := HelperAnswer.answered_carry (eq_of_heq answer)
      obtain ⟨account, found, rfl⟩ := response_login env helper username _ arrived success
      have short := helper.length_homeOf valid
      have whole := CharArray.cString_strncpy (n := 4096) (helper.nulFree_homeOf valid) (by omega) []
      rw [List.append_nil] at whole
      rw [loginHome_login, own username valid account found, whole]
  · have aside : env.serve helper (accounts, world) op =
        ((env.server world op).1, accounts, (env.server world op).2) := by
      cases op with
      | sendHelperRequest request =>
        cases request with
        | plain cmd argv session =>
          have other : ¬ (cmd = .createUser ∨ cmd = .login) :=
            fun either => served ⟨cmd, argv, session, rfl, either⟩
          simp only [AccountEnvironment.serve, other, ↓reduceIte]
        | readWrite => rfl
      | _ => rfl
    rw [aside]
    exact ⟨own, fun username res same =>
      absurd ⟨.login, [username], none, congrArg Sigma.fst same, .inr rfl⟩ served⟩

/-- The name a session was given at login. -/
def ClientSession.loginName (session : ClientSession) : List UInt8 :=
  cString session.username.bytes

/-- A session logged in is at home: name and home directory are those of a valid user of this
helper. -/
def AtHome (helper : Helper) (session : ClientSession) : Prop :=
  session.state = .loggedIn → ∃ name, isUsernameValid (some name) = true ∧
    session.username = .strncpy maxUsernameLen name ∧
      session.home = .strncpy absPath (helper.homeOf name)

/-- A valid name is read back from the session, even when it leaves no terminator. -/
theorem cString_username {name : List UInt8} (valid : isUsernameValid (some name) = true) :
    cString (CharArray.strncpy maxUsernameLen name).bytes = name := by
  obtain ⟨-, short, -⟩ := isUsernameValid_iff.mp valid
  have clean := nulFree_of_isUsernameValid valid
  rcases Nat.lt_or_eq_of_le short with less | full
  · simpa using CharArray.cString_strncpy clean less []
  · have bytes : (CharArray.strncpy maxUsernameLen name).bytes = name := by
      rw [CharArray.strncpy, CharArray.ofBytes_of_le full.ge, List.take_of_length_le full.le]
    rw [bytes, cString_of_nulFree clean]

/-- The session of a user at home has the home directory of its name. -/
theorem AtHome.homeText {helper : Helper} {session : ClientSession}
    (home : AtHome helper session) (loggedIn : session.state = .loggedIn) :
    session.homeText = helper.homeOf session.loginName := by
  obtain ⟨name, valid, username, dir⟩ := home loggedIn
  have short := helper.length_homeOf valid
  have limit : absPath = 1024 := rfl
  rw [ClientSession.homeText, ClientSession.loginName, username, dir, cString_username valid]
  exact CharArray.cString_strncpy (helper.nulFree_homeOf valid) (by omega) _

/-- A login is asked for with a valid name. -/
theorem only_validLogin (pid : UInt32) (state : HandlerState) (input : ClientInput) :
    (clientPass pid state input).Only fun op => ∀ username,
      op = .sendHelperRequest (.plain .login [username] none) →
        isUsernameValid (some username) = true :=
  HandlerCall.only_clientPass fun call _ _ op made username same => by
    subst same
    cases made with
    | login _ _ valid => exact valid

/-- A pass leaves its session at home when the accounts are own ones. -/
theorem atHome_clientPass {ω : Type} (env : AccountEnvironment ω) {helper : Helper}
    (accounts : List Account) (world : ω) (pid : UInt32) {state : HandlerState}
    (input : ClientInput) (own : OwnAccounts helper accounts)
    (home : AtHome helper state.session) :
    let pass := (clientPass pid state input).runOn (env.serve helper) (accounts, world)
    OwnAccounts helper pass.world.1 ∧
      ∀ final, pass.value = some final → AtHome helper final.session := by
  have run := Script.Only.runOn (env.serve helper) (only_validLogin pid state input)
    (fun state => OwnAccounts helper state.1)
    (fun op answer => BringsHome helper ⟨op, answer⟩ ∧ ∀ username,
      op = .sendHelperRequest (.plain .login [username] none) →
        isUsernameValid (some username) = true)
    (fun state op own valid =>
      ⟨(own_serve env state op own).1, (own_serve env state op own).2, valid⟩)
    (show OwnAccounts helper (accounts, world).1 from own)
  have passes := (passes_clientPass pid state input).runOn (env.serve helper) (accounts, world)
  refine ⟨run.1, fun final left loggedIn => ?_⟩
  have pass := passes final left
  by_cases before : state.session.state = .loggedIn
  · have same := pass.identity before
    obtain ⟨name, valid, username, dir⟩ := home before
    exact ⟨name, valid, same.username.trans username, same.home.trans dir⟩
  · rcases pass.login before with same | ⟨username, res, asked, success, after⟩
    · rw [same] at loggedIn
      exact absurd loggedIn before
    · obtain ⟨brings, asks⟩ := run.2 _ asked
      have valid := asks username rfl
      refine ⟨username, valid, ?_, ?_⟩
      · rw [after]
        rfl
      · rw [after, ← brings username res rfl valid success]
        rfl

/-- In every run the sessions that are logged in have the home directory of their name below the
root directory. -/
def OnlyOwnLogins (helper : Helper) (accounts : List Account) : Prop :=
  ∀ {ω : Type} (env : AccountEnvironment ω) pids behind world schedule run,
    runFrom (AccountRun.next helper env pids) (.start accounts behind world) schedule =
        some run →
      ∀ client state, run.clients client = some state → state.session.state = .loggedIn →
        state.session.homeText = helper.homeOf state.session.loginName

/-- With own accounts only, every run keeps all sessions at home. -/
theorem atHome_run {ω : Type} (env : AccountEnvironment ω) {helper : Helper}
    {pids : Nat → UInt32} {start run : AccountRun ω} {schedule : List (Nat × ClientInput)}
    (own : OwnAccounts helper start.accounts)
    (home : ∀ client state, start.clients client = some state → AtHome helper state.session)
    (reached : runFrom (AccountRun.next helper env pids) start schedule = some run) :
    ∀ client state, run.clients client = some state → AtHome helper state.session := by
  have kept := run_invariant
    (fun run : AccountRun ω => OwnAccounts helper run.accounts ∧
      ∀ client state, run.clients client = some state → AtHome helper state.session)
    (fun run input after holds step => by
      obtain ⟨state, alive, rfl⟩ := Option.map_eq_some_iff.mp step
      obtain ⟨own, left⟩ := atHome_clientPass env run.accounts run.world (pids input.1) input.2
        holds.1 (holds.2 input.1 state alive)
      refine ⟨own, fun client final is_ => ?_⟩
      have is_ : Function.update run.clients input.1 _ client = some final := is_
      by_cases same : client = input.1
      · subst same
        rw [Function.update_self] at is_
        exact left final is_
      · rw [Function.update_of_ne same] at is_
        exact holds.2 client final is_)
    ⟨own, home⟩ reached
  exact kept.2

/-- An environment in which no call fails. -/
def calmSystem (registry : SharedRegistry) (op : HelperOp) : op.Answer × SharedRegistry :=
  (match op with
    | .getpwnam name => some ⟨name, 0, 0, [], List.not_mem_nil⟩
    | .adduser .. => .succeeded
    | .deluser _ | .closedir | .close _ | .clearLock _ => ()
    | .getuid => 0
    | .initgroups .. | .setegid _ | .seteuid _ | .chroot _ | .fchown .. => true
    | .chdir _ | .mkdir .. | .rmdir _ | .unlink _ | .rename .. | .chmod .. | .chown .. => .ok ()
    | .getcwd => none
    | .stat _ | .fstat _ => .ok ⟨.regular, 0, 0⟩
    | .opendir _ => .ok []
    | .openFile .. | .openat .. => .ok 0
    | .setLock .. | .seekSet .. | .seekEnd _ => .ok ()
    | .read _ limit => .ok (noBytes limit)
    | .readAgain .. | .readServer _ => []
    | .write _ bytes => .ok (allBytes bytes)
    | .writeAll .. | .writeResponse _ | .writeServer _ => true, registry)

/-- The accounts in an environment in which no call fails. -/
def calm : AccountEnvironment SharedRegistry :=
  ⟨calmSystem, fun _ => true, fun _ => (0, 0), alone fun _ => 0⟩

/-- The message of a client for a login. -/
def loginMessage (name : List UInt8) : Received :=
  (⟨.cmdreq, 0, UInt32.ofNat (name.length + 7), 0, .zero 3⟩, str "login " ++ name ++ [0])

/-- The first argument `login` selects its handler. -/
theorem dispatchCommands_login {call : HandlerCall} {later : List (List UInt8)}
    (args : call.args = str "login" :: later) : dispatchCommands call = handleLogin call := by
  have selected : commands.find? (·.1 = str "login") = some (str "login", handleLogin) := rfl
  rw [dispatchCommands, args]
  simp only [selected]

/-- A login that the helper answers with success leaves the session of the answer. -/
theorem runOn_handleLogin {ω : Type} (serve : Surroundings ω) (world : ω) {call : HandlerCall}
    {name : List UInt8} (args : call.args = [str "login", name])
    (fresh : call.session.state ≠ .loggedIn) (valid : isUsernameValid (some name) = true)
    {res : HelperResponse} {after : ω} (connects : serve world .connectToHelper = (true, after))
    (answers : (serve after (.sendHelperRequest (.plain .login [name] none))).1 =
      .answered res)
    (success : res.status = 0) :
    ((handleLogin call).runOn serve world).value = some (call.session.login res name) := by
  rw [handleLogin, if_neg fresh, args]
  simp only [valid, ↓reduceIte, HandlerCall.askHelper, Script.runOn_bind, Script.runOn_perform,
    connects, answers, HelperAnswer.status, success, HelperAnswer.res, HandlerCall.reply,
    Script.runOn_pure]

/-- The helper answers a login with the account of the name. -/
theorem serve_login_calm (helper : Helper) {accounts : List Account} {name : List UInt8}
    {account : Account} (found : findAccount accounts name = some account)
    (registry : SharedRegistry) :
    (calm.serve helper (accounts, registry)
      (.sendHelperRequest (.plain .login [name] none))).1 =
        .answered ((HelperResponse.blank HelperCommand.login.toWord).login account) := by
  have execution : helper.serve (HelperRequest.plain .login [name] none).call =
      handleHelperLogin (some name) (.blank HelperCommand.login.toWord) := rfl
  have lookup : ∀ registry, calm.calls (accounts, registry) (.getpwnam name) =
      (some account, accounts, registry) := by
    intro registry
    rw [← found]
    rfl
  simp only [AccountEnvironment.serve, reduceCtorEq, or_true, ↓reduceIte, execution,
    handleHelperLogin, Script.runOn_bind, Script.runOn_perform, lookup]
  rfl

/-- The arguments of a message are the words of its text. -/
theorem args_messageCall (pid : UInt32) (session : ClientSession) (behind : Nat → UInt8)
    (message : Received) :
    (messageCall pid session behind message).args =
      (words 32 (cString message.2)).take maxArgs := by
  rw [← cString_append_zero]
  exact tokenizeLoop_words maxArgs ⟨message.2 ++ [0], 0⟩

/-- The words of the message for a login. -/
theorem words_loginMessage {name : List UInt8} (valid : isUsernameValid (some name) = true) :
    words 32 (cString (loginMessage name).2) = [str "login", name] := by
  obtain ⟨filled, -, letters⟩ := isUsernameValid_iff.mp valid
  have unbroken : (32 : UInt8) ∉ name := fun member => absurd (letters 32 member) (by decide)
  have clean : NulFree (str "login " ++ name) := by
    intro member
    rcases List.mem_append.mp member with first | last
    · revert first
      decide
    · exact nulFree_of_isUsernameValid valid last
  have split : str "login " ++ name = str "login" ++ 32 :: name := rfl
  rw [loginMessage, cString_terminated clean, split, words_append_delimiter,
    words_single (by decide) (by decide), words_single unbroken filled]
  rfl

/-- A message handled without a signal before it leaves the state it is handled to. -/
theorem value_message {ω : Type} {serve : Surroundings ω} {world : ω} {pid : UInt32}
    {state final : HandlerState} {message : Received} (announced : message.Announced)
    (quiet : serve world .signalReceived = (false, world))
    (left : ((handleMessage pid state message).runOn serve world).value = .next final) :
    ((clientPass pid state (.message message announced)).runOn serve world).value =
      some final := by
  simp only [clientPass, noticeSignal, handleInput, Script.runOn_bind, Script.runOn_perform,
    quiet, Bool.false_eq_true, ↓reduceIte, Script.runOn_pure, left]

/-- A run of one pass of a client. -/
theorem runFrom_single {ω : Type} (helper : Helper) (env : AccountEnvironment ω)
    (pids : Nat → UInt32) (run : AccountRun ω) (client : Nat) (input : ClientInput)
    {state : HandlerState} (alive : run.clients client = some state) :
    ∃ after, runFrom (AccountRun.next helper env pids) run [(client, input)] = some after ∧
      after.clients client = ((clientPass (pids client) state input).runOn (env.serve helper)
        (run.accounts, run.world)).value := by
  simp only [runFrom, AccountRun.next, alive, Option.map_some, Option.bind_some,
    Option.some.injEq, exists_eq_left']
  rw [Function.update_self]

/-- In that environment a user with a valid name and an account can log in. -/
theorem login_calm (helper : Helper) {accounts : List Account} {name : List UInt8}
    (valid : isUsernameValid (some name) = true) {account : Account}
    (found : findAccount accounts name = some account) :
    ∃ schedule run state,
      runFrom (AccountRun.next helper calm fun _ => 0)
        (.start accounts (fun _ => 0) initSharedRegistry) schedule = some run ∧
      run.clients 0 = some state ∧
      state.session = ClientSession.zero.login
        ((HelperResponse.blank HelperCommand.login.toWord).login account) name := by
  have short := (isUsernameValid_iff.mp valid).2.1
  have limit : maxUsernameLen = 20 := rfl
  have size : (UInt32.ofNat (name.length + 7)).toNat = name.length + 7 := by
    rw [UInt32.toNat_ofNat']
    omega
  have announced : (loginMessage name).Announced := by
    have front : (str "login ").length = 6 := by decide
    simp only [Received.Announced, loginMessage, size, List.length_append, front,
      List.length_singleton]
    omega
  have filled : (loginMessage name).1.payloadLength ≠ 0 := by
    intro zero
    have := congrArg UInt32.toNat zero
    rw [loginMessage, size] at this
    simp at this
  have room : ¬ payloadSize (loginMessage name).1 ≤ (loginMessage name).1.payloadLength := by
    rw [UInt32.not_le, UInt32.lt_iff_toNat_lt, payloadSize, UInt32.toNat_add, loginMessage, size,
      UInt32.toNat_one]
    omega
  have given : ∀ size, calm.serve helper (accounts, initSharedRegistry) (.malloc size) =
      (some fun _ => 0, accounts, initSharedRegistry) := fun _ => rfl
  have connects : calm.serve helper (accounts, initSharedRegistry) .connectToHelper =
      (true, accounts, initSharedRegistry) := rfl
  have quiet : calm.serve helper (accounts, initSharedRegistry) .signalReceived =
      (false, accounts, initSharedRegistry) := rfl
  have handled := (runOn_handleMessage (calm.serve helper) (accounts, initSharedRegistry) 0
    ⟨.zero, none, fun _ => 0⟩ filled room (congrArg Prod.fst (given _))).2
  have args : (messageCall 0 ClientSession.zero (fun _ => 0) (loginMessage name)).args =
      [str "login", name] := by
    have few : [str "login", name].length ≤ maxArgs := by simp [maxArgs]
    rw [args_messageCall, words_loginMessage valid, List.take_of_length_le few]
  have fresh : ClientSession.zero.state ≠ .loggedIn := by decide
  have value := runOn_handleLogin (calm.serve helper) (accounts, initSharedRegistry) args fresh
    valid connects (serve_login_calm helper found initSharedRegistry) rfl
  simp only [dispatchCommands_login args, given, value] at handled
  have passed := value_message announced quiet handled
  obtain ⟨run, reached, left⟩ := runFrom_single helper calm (fun _ => 0)
    (.start accounts (fun _ => 0) initSharedRegistry) 0
    (.message (loginMessage name) announced) rfl
  refine ⟨_, run, _, reached, left.trans passed, ?_⟩
  rfl

/-- A session that is at home after a login got its home directory from an own account. -/
theorem dir_of_login (helper : Helper) {name : List UInt8}
    (valid : isUsernameValid (some name) = true) {account : Account} {session : ClientSession}
    (session_ : session = ClientSession.zero.login
      ((HelperResponse.blank HelperCommand.login.toWord).login account) name)
    (home : session.homeText = helper.homeOf session.loginName) :
    account.dir = helper.homeOf name := by
  have short := helper.length_homeOf valid
  have limit : absPath = 1024 := rfl
  rw [session_, ClientSession.loginName, ClientSession.login, cString_username valid] at home
  have arrived : HelperResponse.loginHome _ = helper.homeOf name :=
    CharArray.eq_of_cString_strncpy (cString_nulFree _) (by omega) home
  rw [loginHome_login, ← List.append_nil (CharArray.strncpy 4096 account.dir).bytes] at arrived
  exact CharArray.eq_of_cString_strncpy account.clean (by omega) arrived

/-- Every session of every run is in its own directory below the root directory exactly when
every account with a valid name was so from the start. -/
theorem onlyOwnLogins_iff (helper : Helper) (accounts : List Account) :
    OnlyOwnLogins helper accounts ↔ OwnAccounts helper accounts := by
  constructor
  · intro only name valid account found
    obtain ⟨schedule, run, state, reached, alive, session⟩ := login_calm helper valid found
    have loggedIn : state.session.state = .loggedIn := by rw [session]; rfl
    have home := only calm (fun _ => 0) (fun _ => 0) initSharedRegistry schedule run reached 0
      state alive loggedIn
    exact dir_of_login helper valid session home
  · intro own ω env pids behind world schedule run reached client state alive loggedIn
    have fresh : ∀ client state,
        (AccountRun.start accounts behind world).clients client = some state →
          AtHome helper state.session := by
      rintro _ _ ⟨⟩ before
      cases before
    exact (atHome_run env own fresh reached client state alive).homeText loggedIn

/-- With an account of the system such as `root`, a session is in a directory of that account. -/
theorem not_onlyOwnLogins_root :
    ¬ OnlyOwnLogins ⟨str "/srv/files", str "/srv/files/.lock", by decide, by decide⟩
      [⟨str "root", 0, 0, str "/root", by decide⟩] := by
  intro only
  have valid : isUsernameValid (some (str "root")) = true := by decide
  obtain ⟨schedule, run, state, reached, alive, session⟩ := login_calm
    ⟨str "/srv/files", str "/srv/files/.lock", by decide, by decide⟩ valid
    (show findAccount [⟨str "root", 0, 0, str "/root", by decide⟩] (str "root") =
      some ⟨str "root", 0, 0, str "/root", by decide⟩ from rfl)
  have loggedIn : state.session.state = .loggedIn := by rw [session]; rfl
  have home := only calm (fun _ => 0) (fun _ => 0) initSharedRegistry schedule run reached 0
    state alive loggedIn
  have dir := dir_of_login _ valid session home
  revert dir
  decide

end FileServer
