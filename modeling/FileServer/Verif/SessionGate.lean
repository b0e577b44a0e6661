import FileServer.Verif.Handlers

/-!
# The session gate

Before login a handler sends no request but the creation of a user and the login, and changes
no transfer. A login fixes who the session is for the rest of the run; after it only a change
of directory touches the session, and only the directory.
-/
namespace FileServer

open FileServer.Lib

/-- Everything a login fixes is the same. -/
structure SameIdentity (before after : ClientSession) : Prop where
  /-- The session is still logged in. -/
  state : after.state = before.state
  /-- The user number. -/
  uid : after.uid = before.uid
  /-- The group number. -/
  gid : after.gid = before.gid
  /-- The home directory. -/
  home : after.home = before.home
  /-- The name. -/
  username : after.username = before.username

/-- A login request with its answer. -/
def loginEvent (username : List UInt8) (answer : HelperAnswer) : HandlerEvent :=
  ⟨.sendHelperRequest (.plain .login [username] none), answer⟩

/-- A change of directory with its answer. -/
def cdEvent (session : ClientSession) (path : List UInt8) (answer : HelperAnswer) :
    HandlerEvent :=
  ⟨.sendHelperRequest (.plain .cd [path] (some session)), answer⟩

/-- What one pass of the loop does to the session, by the calls made in it. -/
structure SessionPass (before : ClientSession) (events : List HandlerEvent)
    (after : ClientSession) : Prop where
  /-- After login the identity is fixed. -/
  identity : before.state = .loggedIn → SameIdentity before after
  /-- Before login the session stays as it is, or is that of a successful login. -/
  login : before.state ≠ .loggedIn → after = before ∨
    ∃ username res, loginEvent username (.answered res) ∈ events ∧ res.status = 0 ∧
      after = before.login res username
  /-- After login the directory stays as it is, or is that of a successful change. -/
  workdir : before.state = .loggedIn → after.workdir = before.workdir ∨
    ∃ path res, cdEvent before path (.answered res) ∈ events ∧ res.status = 0 ∧
      after.workdir = .strncpy absPath res.cdCwd
  /-- A failed login changes nothing. -/
  refused : ∀ username answer, loginEvent username answer ∈ events → answer.status ≠ 0 →
    after = before

/-- A call is permitted to a session: requests other than the creation of a user and the login,
and sections that change a transfer, only after login; and the session passed is this one. -/
structure Permitted (session : ClientSession) (op : HandlerOp) : Prop where
  /-- Requests that need a login. -/
  request : ∀ request, op = .sendHelperRequest request → request.cmd ≠ .createUser →
    request.cmd ≠ .login → session.state = .loggedIn
  /-- Sections that need a login. -/
  transfers : ∀ entered registry, op = .enter entered → session.state ≠ .loggedIn →
    (entered.apply registry).2.pending = registry.pending
  /-- The session passed. -/
  session : ∀ request passed, op = .sendHelperRequest request → request.session = some passed →
    passed = session

/-- What a handler calls is permitted to its session. -/
theorem HandlerCall.Makes.permitted {call : HandlerCall} {op : HandlerOp} (made : call.Makes op) :
    Permitted call.session op := by
  constructor
  · rintro request rfl other fresh
    cases made with
    | createUser => exact absurd rfl other
    | login => exact absurd rfl fresh
    | plain loggedIn | read _ loggedIn | write _ loggedIn | background _ loggedIn
    | transfer _ loggedIn => exact loggedIn
  · rintro entered registry rfl early
    by_cases changes : entered.changesTransfers = true
    · exact absurd (made changes) early
    · exact (CriticalSection.apply_pending (by simpa using changes) registry).1
  · rintro request passed rfl carried
    cases made with
    | createUser | login | transfer => cases carried
    | plain | read | write | background => exact (Option.some.inj carried).symm

namespace SessionPass

variable {session before after : ClientSession} {events : List HandlerEvent}

/-- Nothing happens to the session. -/
theorem same : SessionPass session events session where
  identity _ := ⟨rfl, rfl, rfl, rfl, rfl⟩
  login _ := .inl rfl
  workdir _ := .inl rfl
  refused _ _ _ _ := rfl

/-- What happens before and after a pass without requests does not matter. -/
theorem around (pass : SessionPass before events after) (front back : List HandlerEvent)
    (quiet : ∀ event ∈ front ++ back, ∀ request, event.1 ≠ .sendHelperRequest request) :
    SessionPass before (front ++ events ++ back) after where
  identity := pass.identity
  login early := (pass.login early).imp_right fun ⟨username, res, asked, more⟩ =>
    ⟨username, res, by simp [asked], more⟩
  workdir late := (pass.workdir late).imp_right fun ⟨path, res, asked, more⟩ =>
    ⟨path, res, by simp [asked], more⟩
  refused username answer asked := by
    refine pass.refused username answer ?_
    rcases List.mem_append.mp asked with early | late
    · rcases List.mem_append.mp early with first | inside
      · exact absurd rfl (quiet _ (List.mem_append_left _ first) _)
      · exact inside
    · exact absurd rfl (quiet _ (List.mem_append_right _ late) _)

end SessionPass

namespace HandlerCall

variable {call : HandlerCall}

/-- What a command does to the session. -/
def Passes (call : HandlerCall) (script : HandlerScript (Option ClientSession)) : Prop :=
  script.Every fun events after => ∀ final, after = some final →
    SessionPass call.session events final

/-- A command that keeps the session does nothing to it. -/
theorem Keeps.passes {script : HandlerScript (Option ClientSession)} (keeps : call.Keeps script) :
    call.Passes script := by
  refine keeps.every.weaken fun events after same final left => ?_
  rw [same final left]
  exact .same

/-- A condition on what follows a request is one on the whole. -/
theorem every_askHelper {post : List HandlerEvent → Option ClientSession → Prop}
    {unreachable : List UInt8} {request : HelperRequest}
    {goOn : HelperAnswer → HandlerScript (Option ClientSession)}
    (refused : (call.reply (-1) unreachable).Every fun events after =>
      post (⟨.connectToHelper, false⟩ :: events) after)
    (asked : ∀ answer, (goOn answer).Every fun events after =>
      post (⟨.connectToHelper, true⟩ :: ⟨.sendHelperRequest request, answer⟩ :: events) after) :
    (call.askHelper unreachable request goOn).Every post := by
  intro connected
  cases connected with
  | false => exact refused
  | true => exact asked

/-- What `login` does to the session. -/
theorem passes_handleLogin : call.Passes (handleLogin call) := by
  rw [handleLogin]
  split
  · exact (keeps_reply _ _).passes
  rename_i fresh
  split
  · rename_i username args
    split
    · refine every_askHelper ?_ fun answer => ?_
      · refine (keeps_reply _ _).every.weaken fun events after same final left => ?_
        rw [same final left]
        exact .same
      · split
        · rename_i success
          rintro ⟨⟩ ⟨⟩ final left
          cases left
          cases answer with
          | failed res | unsent res => cases success
          | answered res =>
            refine ⟨fun late => absurd late fresh, fun _ => .inr ⟨username, res, ?_, success, rfl⟩,
              fun late => absurd late fresh, ?_⟩
            · simp [loginEvent]
            · intro other answer asked failure
              obtain ⟨-, rfl⟩ : other = username ∧ answer = .answered res := by
                simpa [loginEvent] using asked
              exact absurd success failure
        · refine (keeps_reply _ _).every.weaken fun events after same final left => ?_
          rw [same final left]
          exact .same
    · exact (keeps_reply _ _).passes
  · exact (keeps_reply _ _).passes

/-- What `cd` does to the session. -/
theorem passes_handleCd : call.Passes (handleCd call) := by
  rw [handleCd, loggedIn]
  split
  · exact (keeps_reply _ _).passes
  rename_i loggedIn
  rw [ne_eq, not_not] at loggedIn
  split
  · rename_i path args
    refine every_askHelper ?_ fun answer => ?_
    · refine (keeps_reply _ _).every.weaken fun events after same final left => ?_
      rw [same final left]
      exact .same
    · split
      · rename_i success
        rintro ⟨⟩ final left
        cases left
        cases answer with
        | failed res | unsent res => cases success
        | answered res =>
          refine ⟨fun _ => ⟨rfl, rfl, rfl, rfl, rfl⟩, fun early => absurd loggedIn early,
            fun _ => .inr ⟨path, res, ?_, success, rfl⟩, ?_⟩
          · simp [cdEvent]
          · intro other answer asked
            simp [loginEvent] at asked
      · refine (keeps_reply _ _).every.weaken fun events after same final left => ?_
        rw [same final left]
        exact .same
  · exact (keeps_reply _ _).passes

/-- What any command does to the session. -/
theorem passes_dispatchCommands : call.Passes (dispatchCommands call) := by
  rw [dispatchCommands]
  split
  · exact (keeps_reply _ _).passes
  split
  · rename_i found
    have listed := List.mem_of_find?_eq_some found
    simp only [commands, List.mem_cons, List.not_mem_nil, or_false, Prod.mk.injEq] at listed
    obtain ⟨ls, create, chmod, delete, move, read, write⟩ := @keeps_relayed call
    obtain ⟨download, upload⟩ := @keeps_background call
    obtain ⟨offer, accept, reject⟩ := @keeps_transfers call
    rcases listed with ⟨-, rfl⟩ | ⟨-, rfl⟩ | ⟨-, rfl⟩ | ⟨-, rfl⟩ | ⟨-, rfl⟩ | ⟨-, rfl⟩ |
      ⟨-, rfl⟩ | ⟨-, rfl⟩ | ⟨-, rfl⟩ | ⟨-, rfl⟩ | ⟨-, rfl⟩ | ⟨-, rfl⟩ | ⟨-, rfl⟩ | ⟨-, rfl⟩ |
      ⟨-, rfl⟩
    exacts [keeps_handleCreateUser.passes, passes_handleLogin, ls.passes, passes_handleCd,
      create.passes, chmod.passes, delete.passes, move.passes, read.passes, write.passes,
      download.passes, upload.passes, offer.passes, accept.passes, reject.passes]
  · exact (keeps_reply _ _).passes

end HandlerCall

/-- What a pass of the loop does to the session. -/
theorem passes_clientPass (pid : UInt32) (state : HandlerState) (input : ClientInput) :
    (clientPass pid state input).Every fun events after => ∀ final, after = some final →
      SessionPass state.session events final.session := by
  have dispatching : ∀ behind hdr payload, (dispatchPayload pid { state with behind } hdr
      payload).Every fun events outcome => ∀ final, outcome = .next final →
        SessionPass state.session events final.session := by
    intro behind hdr payload
    rw [dispatchPayload]
    split
    · rintro final ⟨⟩
    · rw [Script.every_bind]
      refine HandlerCall.passes_dispatchCommands.weaken fun events session pass => ?_
      cases session with
      | none => rintro final ⟨⟩
      | some session =>
        rintro final ⟨⟩
        rw [List.append_nil]
        exact pass session rfl
  have receiving : ∀ message, (handleMessage pid state message).Every fun events outcome =>
      ∀ final, outcome = .next final → SessionPass state.session events final.session := by
    intro message
    rw [handleMessage]
    split
    · exact dispatching state.behind _ _
    · rintro (_ | behind)
      · rintro final ⟨⟩
      · change Script.Every _ (if _ then _ else _)
        split
        · rintro final ⟨⟩
        · refine (dispatching behind _ _).weaken fun events outcome pass final left => ?_
          simpa using (pass final left).around [⟨.malloc (payloadSize message.1), some behind⟩] []
            (by simp)
  have closing : ∀ post : List HandlerEvent → HandlerState → Prop,
      (closeClient pid state.session >>= fun _ => pure none).Every fun events after =>
        ∀ final, after = some final → post events final := by
    intro post
    have ended : (closeClient pid state.session >>= fun _ => pure none).Returns
        fun after : Option HandlerState => after = none := Script.Returns.bind fun _ => rfl
    refine ended.every.weaken fun events after gone final left => ?_
    rw [gone] at left
    cases left
  have handling : (handleInput pid state input).Every fun events after => ∀ final,
      after = some final → SessionPass state.session events final.session := by
    cases input with
    | interrupted =>
      rintro final ⟨⟩
      exact .same
    | closed => exact closing _
    | message received announced =>
      rw [handleInput, Script.every_bind]
      refine (receiving received).weaken fun events outcome pass => ?_
      cases outcome with
      | next state =>
        rintro final ⟨⟩
        rw [List.append_nil]
        exact pass state rfl
      | leave => exact closing _
      | gone => rintro final ⟨⟩
  have noticing : (noticeSignal state.session).Only
      fun op => ∀ request, op ≠ .sendHelperRequest request := by
    refine Script.Only.bind (by simp) fun signal => ?_
    cases signal with
    | false => trivial
    | true => exact HandlerCall.only_checkForNotifications (by simp) (by simp)
  rw [clientPass, Script.every_bind]
  refine noticing.every.weaken fun front _ quiet =>
    handling.weaken fun events after pass final left => ?_
  simpa using (pass final left).around front [] (by simpa using quiet)

/-- What two changes leave the same is left by both. -/
theorem SameIdentity.trans {first second third : ClientSession} (left : SameIdentity first second)
    (right : SameIdentity second third) : SameIdentity first third :=
  ⟨right.state.trans left.state, right.uid.trans left.uid, right.gid.trans left.gid,
    right.home.trans left.home, right.username.trans left.username⟩

namespace ClientRun

variable {ω : Type} {pid : UInt32} {serve : Surroundings ω}

/-- A pass adds its calls to the log and does to the session what they explain. -/
theorem next_pass {run after : ClientRun ω} {input : ClientInput} {state : HandlerState}
    (alive : run.state = some state) (step : run.next pid serve input = some after) :
    ∃ events, after.log = run.log ++ events.map (fun event => (state.session, event)) ∧
      (∀ event ∈ events, Permitted state.session event.1) ∧
      ∀ final, after.state = some final → SessionPass state.session events final.session := by
  simp only [next, alive, Option.map_some, Option.some.injEq] at step
  subst step
  refine ⟨_, rfl, ?_, ?_⟩
  · have only : (clientPass pid state input).Only (Permitted state.session) :=
      HandlerCall.only_clientPass fun call same _ op made => same ▸ made.permitted
    exact only.every.runOn serve run.world
  · exact (passes_clientPass pid state input).runOn serve run.world

/-- A process that has ended makes no further pass. -/
theorem alive_of_next {run after : ClientRun ω} {input : ClientInput}
    (step : run.next pid serve input = some after) : ∃ state, run.state = some state := by
  obtain ⟨state, alive, -⟩ := Option.map_eq_some_iff.mp step
  exact ⟨state, alive⟩

/-- In a run from the login on, the identity is fixed. -/
theorem identity_fixed {run final : ClientRun ω} {inputs : List ClientInput}
    {state : HandlerState} (alive : run.state = some state)
    (loggedIn : state.session.state = .loggedIn)
    (reached : runFrom (next pid serve) run inputs = some final) :
    ∀ last, final.state = some last → SameIdentity state.session last.session := by
  refine run_invariant (fun run : ClientRun ω => ∀ last, run.state = some last →
    SameIdentity state.session last.session) ?_ ?_ reached
  · intro middle input after same step last left
    obtain ⟨before, still⟩ := alive_of_next step
    obtain ⟨events, -, -, pass⟩ := next_pass still step
    have kept := same before still
    exact kept.trans ((pass last left).identity (kept.state.trans loggedIn))
  · intro last left
    obtain rfl := Option.some.inj (alive.symm.trans left)
    exact ⟨rfl, rfl, rfl, rfl, rfl⟩

/-- In every run, whatever the client sends and however its surroundings answer, each call is
permitted to the session of its command; from a login on the identity of the session is fixed;
and every pass does to the session only what its successful login or change of directory
explains. -/
theorem permitted_and_fixed (pid : UInt32) (serve : Surroundings ω) (behind : Nat → UInt8)
    (world : ω) (inputs : List ClientInput) {run : ClientRun ω}
    (reached : runFrom (next pid serve) (start behind world) inputs = some run) :
    (∀ session event, (session, event) ∈ run.log → Permitted session event.1) ∧
      (∀ state, run.state = some state → state.session.state = .loggedIn →
        ∀ later final last, runFrom (next pid serve) run later = some final →
          final.state = some last → SameIdentity state.session last.session) ∧
      ∀ state input after, run.state = some state → run.next pid serve input = some after →
        ∃ events, after.log = run.log ++ events.map (fun event => (state.session, event)) ∧
          ∀ last, after.state = some last → SessionPass state.session events last.session := by
  refine ⟨?_, ?_, ?_⟩
  · refine run_invariant (fun run : ClientRun ω => ∀ session event, (session, event) ∈ run.log →
      Permitted session event.1) ?_ (fun _ _ member => absurd member List.not_mem_nil) reached
    intro before input after logged step session event member
    obtain ⟨state, alive⟩ := alive_of_next step
    obtain ⟨events, more, permitted, -⟩ := next_pass alive step
    rw [more, List.mem_append] at member
    rcases member with early | new
    · exact logged session event early
    · obtain ⟨_, made, same⟩ := List.mem_map.mp new
      cases same
      exact permitted _ made
  · intro state alive loggedIn later final last goes left
    exact identity_fixed alive loggedIn goes last left
  · intro state input after alive step
    obtain ⟨events, more, -, pass⟩ := next_pass alive step
    exact ⟨events, more, pass⟩

/-- The message a client sends for a login. -/
def loginBob : Received := (⟨.cmdreq, 0, 10, 0, .zero 3⟩, str "login bob" ++ [0])

/-- A login is one of the runs. -/
theorem permitted_and_fixed_loginBob :
    ∃ run, runFrom (next 7 (alone fun _ => 0)) (start (fun _ => 0) initSharedRegistry)
        [.message loginBob (by decide)] = some run ∧
      run.state.map (fun state => state.session.state) = some .loggedIn ∧
      ∀ session event, (session, event) ∈ run.log → Permitted session event.1 :=
  ⟨_, rfl, by decide +kernel, (permitted_and_fixed 7 (alone fun _ => 0) (fun _ => 0)
    initSharedRegistry [.message loginBob (by decide)] rfl).1⟩

end ClientRun

end FileServer
