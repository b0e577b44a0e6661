import FileServer.Model.HandlerAnswers
import FileServer.Verif.Handlers
import FileServer.Verif.Registry

/-!
# Logins

What `handleLogin` does to the session and to the table of online users. It tells the client of
a success once the helper knows the user, whether or not it has found a row, and a name of
twenty letters fills the field of its row and leaves no terminator there.
-/
namespace FileServer

open FileServer.Lib

/-- The helper knows the user, and the handler goes through with the login. -/
structure HandlerCall.Admitted (call : HandlerCall) (answers : HandlerAnswers)
    (username : List UInt8) : Prop where
  /-- The session is not logged in yet. -/
  fresh : call.session.state ≠ .loggedIn
  /-- The name is the only argument of the command. -/
  args : ∃ name, call.args = [name, username]
  /-- The server accepts the name. -/
  valid : isUsernameValid (some username) = true
  /-- The helper is reached. -/
  connected : answers .connectToHelper = true
  /-- The helper answers with success. -/
  known : (answers (.sendHelperRequest (.plain .login [username] none))).status = 0

/-- The reply to a login that has gone through. -/
def loginSuccessful : HandlerEvent := ⟨.sendProtocolMsg .text 0 (str "Login successful"), ()⟩

/-- No other reply is the one to a login that has gone through. -/
theorem loginSuccessful_ne {status : Int32} {msg : List UInt8}
    (other : status ≠ 0 ∨ msg ≠ str "Login successful") :
    (⟨.sendProtocolMsg .text status msg, ()⟩ : HandlerEvent) ≠ loginSuccessful := by
  intro same
  have op : HandlerOp.sendProtocolMsg .text status msg =
      .sendProtocolMsg .text 0 (str "Login successful") := congrArg Sigma.fst same
  obtain ⟨rfl, rfl⟩ : status = 0 ∧ msg = str "Login successful" := by simpa using op
  simp at other

section

variable (call : HandlerCall) (answers : HandlerAnswers) (registry : SharedRegistry)

/-- A login that goes through changes the session, fills a row and tells the client. -/
theorem runOn_handleLogin_admitted {username : List UInt8}
    (admitted : call.Admitted answers username) :
    let run := (handleLogin call).runOn answers.serve registry
    loginSuccessful ∈ run.events ∧
      run.value = some (call.session.login
        (answers (.sendHelperRequest (.plain .login [username] none))).res username) ∧
      run.world = registry.insertOnlineUser username call.pid := by
  obtain ⟨name, args⟩ := admitted.args
  unfold handleLogin
  simp only [admitted.fresh, args, admitted.valid, HandlerCall.askHelper, Script.runOn_bind,
    Script.runOn_perform, HandlerAnswers.serve, admitted.connected, admitted.known, ↓reduceIte,
    HandlerCall.reply, Script.runOn_pure, CriticalSection.apply]
  exact ⟨by simp [loginSuccessful], trivial, trivial⟩

/-- A login that does not go through changes nothing and does not tell the client otherwise. -/
theorem runOn_handleLogin_refused (refused : ∀ username, ¬ call.Admitted answers username) :
    let run := (handleLogin call).runOn answers.serve registry
    loginSuccessful ∉ run.events ∧ run.value = some call.session ∧ run.world = registry := by
  have replies : ∀ (status : Int32) (msg : List UInt8),
      status ≠ 0 ∨ msg ≠ str "Login successful" →
        let run := (call.reply status msg).runOn answers.serve registry
        loginSuccessful ∉ run.events ∧ run.value = some call.session ∧ run.world = registry := by
    intro status msg other
    refine ⟨?_, rfl, rfl⟩
    simpa [HandlerCall.reply, HandlerAnswers.serve] using (loginSuccessful_ne other).symm
  unfold handleLogin
  split
  · exact replies 0 _ (Or.inr (by decide))
  · rename_i fresh
    split
    · rename_i name username args
      split
      · rename_i valid
        unfold HandlerCall.askHelper
        rcases Bool.eq_false_or_eq_true (answers .connectToHelper) with connected | connected
        · have unknown :
              (answers (.sendHelperRequest (.plain .login [username] none))).status ≠ 0 :=
            fun known => refused username ⟨fresh, ⟨name, args⟩, valid, connected, known⟩
          obtain ⟨silent, value, world⟩ := replies (-1)
            (answers (.sendHelperRequest (.plain .login [username] none))).res.msgText
            (Or.inl (by decide))
          simp only [Script.runOn_bind, Script.runOn_perform, HandlerAnswers.serve, connected,
            ↓reduceIte, unknown]
          refine ⟨?_, value, world⟩
          simpa [loginSuccessful] using silent
        · obtain ⟨silent, value, world⟩ := replies (-1) (str "Internal error")
            (Or.inl (by decide))
          simp only [Script.runOn_bind, Script.runOn_perform, HandlerAnswers.serve, connected,
            Bool.false_eq_true, ↓reduceIte]
          refine ⟨?_, value, world⟩
          simpa [loginSuccessful] using silent
      · exact replies (-1) _ (Or.inl (by decide))
    · exact replies (-1) _ (Or.inl (by decide))

end

/-- A row filled for a user is read back as that user: a name as long as the field goes on with
the number of the process, whose first byte must be a terminator. -/
theorem usernameText_filled {username : List UInt8}
    (valid : isUsernameValid (some username) = true) (pid : UInt32) :
    (⟨.strncpy maxUsernameLen username, pid, 1⟩ : UserEntry).usernameText = username ↔
      username.length < maxUsernameLen ∨ pid.toNat % 256 = 0 := by
  have clean := nulFree_of_isUsernameValid valid
  unfold UserEntry.usernameText
  rcases Nat.lt_or_eq_of_le (isUsernameValid_iff.mp valid).2.1 with short | full
  · simp only [CharArray.cString_strncpy clean short, short, true_or]
  · have stored : (CharArray.strncpy maxUsernameLen username).bytes = username := by
      rw [CharArray.strncpy, CharArray.ofBytes_of_le full.ge, ← full, List.take_length]
    have first : (UInt8.ofNat pid.toNat = 0) ↔ pid.toNat % 256 = 0 := by
      rw [← UInt8.toNat_inj, UInt8.toNat_ofNat']
      rfl
    have digits : cString (Layout.word32.encode pid ++ Layout.word32.encode 1) = [] ↔
        UInt8.ofNat pid.toNat = 0 := by
      show List.takeWhile (· != 0) (UInt8.ofNat pid.toNat :: _) = [] ↔ _
      by_cases zero : UInt8.ofNat pid.toNat = 0 <;> simp [zero]
    rw [stored, cString_append clean, List.append_right_eq_self, digits, first]
    omega

/-- The table has an active row for the user with the process. -/
def SharedRegistry.Lists (registry : SharedRegistry) (username : List UInt8) (pid : UInt32) :
    Prop :=
  ∃ row ∈ registry.onlineUsers,
    SharedRegistry.isOnline username row = true ∧ row.handlerPid = pid

/-- A user for whom the table has an active row is found. -/
theorem SharedRegistry.Lists.found {registry : SharedRegistry} {username : List UInt8}
    {pid : UInt32} (lists : registry.Lists username pid) : registry.findUser username ≠ none := by
  obtain ⟨row, member, online, -⟩ := lists
  intro missing
  rw [findUser, Option.map_eq_none_iff, List.find?_eq_none] at missing
  exact missing row member online

/-- The table after a login lists the user if it did before, or if a row was free that holds the
name. -/
theorem lists_insertOnlineUser (registry : SharedRegistry) {username : List UInt8}
    (valid : isUsernameValid (some username) = true) (pid : UInt32) :
    (registry.insertOnlineUser username pid).Lists username pid ↔
      registry.Lists username pid ∨ ((∃ row ∈ registry.onlineUsers, row.isActive = 0) ∧
        (username.length < maxUsernameLen ∨ pid.toNat % 256 = 0)) := by
  rw [← usernameText_filled valid pid]
  let filled : UserEntry := ⟨.strncpy maxUsernameLen username, pid, 1⟩
  have listed : (SharedRegistry.isOnline username filled = true ∧ filled.handlerPid = pid) ↔
      filled.usernameText = username := by
    simp [SharedRegistry.isOnline, filled]
  obtain ⟨full, same⟩ | ⟨before, row, after, split, -, free, -, same⟩ :=
    updateFirst_cases (fun entry : UserEntry => entry.isActive = 0) (fun _ => filled)
      registry.onlineUsers
  · have table : (registry.insertOnlineUser username pid).onlineUsers = registry.onlineUsers :=
      congrArg Prod.snd same
    have none : ¬ ∃ row ∈ registry.onlineUsers, row.isActive = 0 := by
      rintro ⟨row, member, free⟩
      simpa [free] using full row member
    simp only [SharedRegistry.Lists, table, none, false_and, or_false]
  · have table : (registry.insertOnlineUser username pid).onlineUsers =
        before ++ filled :: after := congrArg Prod.snd same
    have unused : row.isActive = 0 := by simpa using free
    have offline : SharedRegistry.isOnline username row = false := by
      simp [SharedRegistry.isOnline, unused]
    have room : ∃ row ∈ registry.onlineUsers, row.isActive = 0 :=
      ⟨row, by rw [split]; simp, unused⟩
    rw [and_iff_right room]
    constructor
    · rintro ⟨entry, member, online, process⟩
      rw [table] at member
      rcases List.mem_append.mp member with early | late
      · exact Or.inl ⟨entry, by rw [split]; exact List.mem_append_left _ early, online, process⟩
      · rcases List.mem_cons.mp late with rfl | behind
        · exact Or.inr (listed.mp ⟨online, process⟩)
        · exact Or.inl ⟨entry, by rw [split]; simp [behind], online, process⟩
    · rintro (⟨entry, member, online, process⟩ | stored)
      · refine ⟨entry, ?_, online, process⟩
        have other : entry ≠ row := by
          rintro rfl
          rw [offline] at online
          cases online
        rw [split] at member
        rw [table]
        simp only [List.mem_append, List.mem_cons, other, false_or] at member ⊢
        exact member.imp_right Or.inr
      · exact ⟨filled, by rw [table]; simp, listed.mpr stored⟩

section

variable (call : HandlerCall) (answers : HandlerAnswers) (registry : SharedRegistry)

/-- A login that tells the client of a success leaves the session logged in and an active row
for the user, by which the user is found; any other leaves the session and the registry alone. -/
def LoginAllOrNothing : Prop :=
  let run := (handleLogin call).runOn answers.serve registry
  (loginSuccessful ∈ run.events →
      (∃ session, run.value = some session ∧ session.state = .loggedIn) ∧
        ∃ username, call.args[1]? = some username ∧ run.world.Lists username call.pid ∧
          run.world.findUser username ≠ none) ∧
    (loginSuccessful ∉ run.events → run.value = some call.session ∧ run.world = registry)

/-- A login is all or nothing exactly if, whenever the helper knows the user, the table lists
the user with the process already, or a row is free that can hold the name: one shorter than the
field, or one of twenty letters for a process whose number ends in a zero byte. -/
theorem loginAllOrNothing_iff :
    LoginAllOrNothing call answers registry ↔ ∀ username, call.Admitted answers username →
      registry.Lists username call.pid ∨ ((∃ row ∈ registry.onlineUsers, row.isActive = 0) ∧
        (username.length < maxUsernameLen ∨ call.pid.toNat % 256 = 0)) := by
  constructor
  · intro whole username admitted
    obtain ⟨told, -, world⟩ := runOn_handleLogin_admitted call answers registry admitted
    obtain ⟨-, named, second, lists, -⟩ := whole.1 told
    obtain ⟨name, args⟩ := admitted.args
    obtain rfl : username = named := by simpa [args] using second
    rw [world] at lists
    exact (lists_insertOnlineUser registry admitted.valid call.pid).mp lists
  · intro room
    by_cases admits : ∃ username, call.Admitted answers username
    · obtain ⟨username, admitted⟩ := admits
      obtain ⟨told, value, world⟩ := runOn_handleLogin_admitted call answers registry admitted
      refine ⟨fun _ => ⟨⟨_, value, rfl⟩, ?_⟩, fun silent => absurd told silent⟩
      obtain ⟨name, args⟩ := admitted.args
      have lists := (lists_insertOnlineUser registry admitted.valid call.pid).mpr
        (room username admitted)
      rw [← world] at lists
      exact ⟨username, by rw [args]; rfl, lists, lists.found⟩
    · rw [not_exists] at admits
      obtain ⟨silent, value, world⟩ := runOn_handleLogin_refused call answers registry admits
      exact ⟨fun told => absurd told silent, fun _ => ⟨value, world⟩⟩

end

/-- The call for a command typed at a client. -/
def commandCall (pid : UInt32) (session : ClientSession) (text : List UInt8) : HandlerCall :=
  messageCall pid session (fun _ => 0)
    (⟨.cmdreq, 0, UInt32.ofNat (text.length + 1), 0, .zero 3⟩, text ++ [0])

/-- The session of a user who has logged in. -/
def bobSession : ClientSession := ClientSession.zero.login .zero (str "bob")

/-- Every call is answered with success, a request to the helper with a cleared response. -/
def willing : HandlerAnswers := fun op => (alone (fun _ => 0) initSharedRegistry op).1

/-- The helper of a server with its root directory. -/
def srvHelper : Helper := ⟨str "/srv", str "/srv/.lock", by decide, by decide⟩

/-- A registry in which every row is in use. -/
def crowdedRegistry : SharedRegistry where
  onlineUsers := List.replicate maxUsers ⟨.strncpy maxUsernameLen (str "bob"), 7, 1⟩
  pending := initSharedRegistry.pending
  globalIdCounter := 0
  length_onlineUsers := List.length_replicate
  length_pending := initSharedRegistry.length_pending

/-- The login of a user into a full table is told as a success and leaves no row. -/
theorem not_loginAllOrNothing_crowded :
    ¬ LoginAllOrNothing (commandCall 9 .zero (str "login alice")) willing crowdedRegistry := by
  have args : (commandCall 9 .zero (str "login alice")).args = [str "login", str "alice"] := by
    decide +kernel
  have admitted : (commandCall 9 .zero (str "login alice")).Admitted willing (str "alice") :=
    ⟨by decide, ⟨_, args⟩, by decide, rfl, rfl⟩
  intro whole
  obtain ⟨told, -, world⟩ := runOn_handleLogin_admitted _ willing crowdedRegistry admitted
  obtain ⟨-, username, second, lists, -⟩ := whole.1 told
  obtain rfl : str "alice" = username := by simpa [args] using second
  rw [world, lists_insertOnlineUser crowdedRegistry admitted.valid] at lists
  obtain ⟨row, member, -, process⟩ | ⟨⟨row, member, free⟩, -⟩ := lists
  · obtain rfl := List.eq_of_mem_replicate member
    revert process
    decide
  · obtain rfl := List.eq_of_mem_replicate member
    revert free
    decide

end FileServer
