import FileServer.Lib.OwnedTable
import FileServer.Lib.Run
import FileServer.Model.HandlerProcesses
import FileServer.Verif.Registry

/-!
# The table of online users

A login fills the first row that is not in use, and a disconnect gives up the first row with the
process id of the handler, in use or not. In every run of the handler processes the rows in use
are those that the logins of the processes alive have filled, and the row given up is the one
that the login of the same process has filled.
-/
namespace FileServer

open FileServer.Lib

/-- The phase is one that only a process with a login comes to. -/
def HandlerPhase.needsLogin : HandlerPhase → Bool
  | testing | clearing | reading => false
  | checking | polling _ _ | creating _ _ _ | signalling _ _ | answering _ | leaving => true

namespace HandlerProcess

/-- What a step does to the session of its process and to the table of users. -/
inductive Moves (process : HandlerProcess) (pid : UInt32) (registry : SharedRegistry) :
    HandlerStep → HandlerEffect → Prop
  /-- A login fills a row. -/
  | login (username : List UInt8) (res : HelperResponse) (out : process.loggedIn = false) :
    Moves process pid registry (.login username res) ⟨registry.insertOnlineUser username pid,
      some { process with
        phase := .testing
        session := process.session.login res username
        row := registry.onlineUsers.findIdx? fun entry => entry.isActive = 0 }, none⟩
  /-- A process that ends gives up a row. -/
  | remove (leaves : process.phase = .leaving) :
    Moves process pid registry .remove ⟨registry.removeOnlineUser pid, none, none⟩
  /-- A process that has not logged in ends. -/
  | close (out : process.loggedIn = false) :
    Moves process pid registry .hangUp ⟨registry, none, none⟩
  /-- The session goes on. -/
  | stay {step : HandlerStep} {after : SharedRegistry} {phase : HandlerPhase} {flag : Bool}
    {signals : Option UInt32} (goes : step ≠ .remove)
    (same : after.onlineUsers = registry.onlineUsers)
    (leaves : phase = .leaving → step = .hangUp)
    (inside : phase.needsLogin = true → process.loggedIn = true ∨ process.phase.needsLogin = true) :
    Moves process pid registry step
      ⟨after, some { process with phase, transferSignalReceived := flag }, signals⟩

/-- Every step is of one of these kinds. -/
theorem moves {process : HandlerProcess} {pid : UInt32} {registry : SharedRegistry}
    {step : HandlerStep} {effect : HandlerEffect}
    (stepped : process.next pid registry step = some effect) :
    process.Moves pid registry step effect := by
  obtain ⟨phase, session, flag, inFlight, row⟩ := process
  unfold next at stepped
  cases phase <;> cases step <;>
    simp only [go, goLoggedIn, Option.some.injEq, reduceCtorEq,
      Option.ite_none_right_eq_some, Option.ite_none_left_eq_some] at stepped
  case testing.test =>
    subst stepped
    split
    · split
      · rename_i inside
        exact .stay nofun rfl nofun fun _ => .inl inside
      · exact .stay nofun rfl nofun nofun
    · exact .stay nofun rfl nofun nofun
  case checking.scan | clearing.clear | reading.other | signalling.kill | answering.answer =>
    subst stepped
    exact .stay nofun rfl nofun nofun
  case reading.restart | reading.accept =>
    obtain ⟨-, rfl⟩ := stepped
    exact .stay nofun rfl nofun nofun
  case reading.request =>
    obtain ⟨inside, rfl⟩ := stepped
    exact .stay nofun rfl nofun fun _ => .inl inside
  case reading.login username res =>
    obtain ⟨out, rfl⟩ := stepped
    exact .login username res (Bool.eq_false_iff.mpr (not_or.mp out).1)
  case polling.poll =>
    subst stepped
    split
    · exact .stay nofun rfl nofun fun _ => .inr rfl
    · exact .stay nofun rfl nofun fun _ => .inr rfl
  case creating.create =>
    subst stepped
    have same := registry.onlineUsers_createRequest
    split
    · exact .stay nofun (same _ _ _) nofun nofun
    · exact .stay nofun (same _ _ _) nofun fun _ => .inr rfl
  case reading.reject =>
    obtain ⟨inside, rfl⟩ := stepped
    have same := registry.onlineUsers_rejectRequest
    split
    · exact .stay nofun (same _ _) nofun fun _ => .inl inside
    · exact .stay nofun (same _ _) nofun nofun
    · exact .stay nofun (same _ _) nofun nofun
  case reading.hangUp =>
    split at stepped
    · rename_i inside
      cases stepped
      exact .stay nofun rfl (fun _ => rfl) fun _ => .inl inside
    · rename_i out
      cases stepped
      exact .close (Bool.eq_false_iff.mpr out)
  case leaving.remove =>
    subst stepped
    exact .remove rfl

end HandlerProcess

namespace HandlerSystem

/-- The processes after the effect of a step, one of which may have been signalled. -/
theorem handlers_after (state : HandlerSystem) (pid other : UInt32) (effect : HandlerEffect) :
    (state.after pid effect).handlers other =
      (Function.update state.handlers pid effect.process other).map fun process =>
        { process with
          signalInFlight := process.signalInFlight || decide (effect.signals = some other) } := by
  obtain ⟨registry, process, signals⟩ := effect
  unfold after
  cases signals with
  | none => simp
  | some targetPid =>
    simp only [kill, Option.some.injEq]
    by_cases same : other = targetPid
    · subst same
      simp
    · simp [Function.update_of_ne same, Ne.symm same]

/-- The row of every process that has one. -/
def place (state : HandlerSystem) (pid : UInt32) : Option Nat :=
  (state.handlers pid).bind HandlerProcess.row

/-- The rows of the processes when one of them changes. -/
theorem place_update (state : HandlerSystem) (pid : UInt32) (process : Option HandlerProcess) :
    ({ state with handlers := Function.update state.handlers pid process } : HandlerSystem).place =
      Function.update state.place pid (process.bind HandlerProcess.row) := by
  funext other
  unfold place
  by_cases same : other = pid
  · subst same
    simp
  · simp [Function.update_of_ne same]

/-- The rows of the processes after the effect of a step. -/
theorem place_after (state : HandlerSystem) (pid : UInt32) (effect : HandlerEffect) :
    (state.after pid effect).place =
      Function.update state.place pid (effect.process.bind HandlerProcess.row) := by
  rw [← place_update]
  funext other
  unfold place
  rw [handlers_after, Option.bind_map]
  rfl

end HandlerSystem

/-- The row is in use. -/
def UserEntry.inUse (entry : UserEntry) : Bool := entry.isActive ≠ 0

/-- The search for a row that is not in use. -/
theorem isActive_eq_zero :
    (fun entry : UserEntry => decide (entry.isActive = 0)) = fun entry => !entry.inUse := by
  funext entry
  simp [UserEntry.inUse]

/-- A login fills the first row that is not in use. -/
theorem SharedRegistry.onlineUsers_insertOnlineUser (registry : SharedRegistry)
    (username : List UInt8) (pid : UInt32) :
    (registry.insertOnlineUser username pid).onlineUsers =
      (updateFirst (fun entry => !entry.inUse)
        (fun _ => ⟨.strncpy maxUsernameLen username, pid, 1⟩) registry.onlineUsers).2 := by
  rw [← isActive_eq_zero]
  rfl

/-- Putting a row out of use changes nothing where it is not in use. -/
theorem idle_deactivate (entry : UserEntry) (unused : entry.inUse = false) :
    { entry with isActive := 0 } = entry := by
  have zero : entry.isActive = 0 := by simpa [UserEntry.inUse] using unused
  rw [← zero]

/-- What a process keeps agrees with the table of users. -/
structure HandlerProcess.Fits (rows : List UserEntry) (pid : UInt32) (process : HandlerProcess) :
    Prop where
  /-- Its row is as the login has filled it. -/
  entry : ∀ index, process.row = some index →
    rows[index]? = some ⟨process.session.username, pid, 1⟩
  /-- Without a login it has none. -/
  unlisted : process.loggedIn = false → process.row = none
  /-- It does what needs a login only after one. -/
  inside : process.phase.needsLogin = true → process.loggedIn = true

/-- A step that keeps the session and the row keeps the agreement. -/
theorem HandlerProcess.Fits.keep {rows after : List UserEntry} {pid : UInt32}
    {was now : HandlerProcess} (fits : was.Fits rows pid) (session : now.session = was.session)
    (row : now.row = was.row) (inside : now.phase.needsLogin = true → was.loggedIn = true)
    (kept : ∀ index, was.row = some index → after[index]? = rows[index]?) :
    now.Fits after pid := by
  have same : now.loggedIn = was.loggedIn := by
    unfold loggedIn
    rw [session]
  refine ⟨fun index placed => ?_, fun out => ?_, fun needs => ?_⟩
  · rw [row] at placed
    rw [kept index placed, session]
    exact fits.entry index placed
  · rw [row]
    exact fits.unlisted (same.symm.trans out)
  · exact same.trans (inside needs)

namespace HandlerSystem

/-- The rows in use are those that the logins of the processes alive have filled. -/
structure Linked (state : HandlerSystem) : Prop where
  /-- The rows in use are those of the processes. -/
  owned : Owned UserEntry.inUse UserEntry.handlerPid state.registry.onlineUsers state.place
  /-- Every process agrees with the table. -/
  fits : ∀ pid process, state.handlers pid = some process →
    process.Fits state.registry.onlineUsers pid

/-- Before the first connection. -/
theorem linked_start : Linked start := by
  refine ⟨Owned.of_unused fun entry member => ?_, nofun⟩
  obtain rfl := List.eq_of_mem_replicate member
  rfl

/-- A process that has not logged in has no row. -/
theorem Linked.place_eq_none {state : HandlerSystem} (linked : state.Linked) {pid : UInt32}
    {process : HandlerProcess} (found : state.handlers pid = some process)
    (out : process.loggedIn = false) : state.place pid = none := by
  unfold place
  rw [found]
  exact (linked.fits pid process found).unlisted out

/-- Every step of a process. -/
theorem Linked.act {state : HandlerSystem} (linked : state.Linked) {pid : UInt32}
    {process : HandlerProcess} (found : state.handlers pid = some process) {step : HandlerStep}
    {effect : HandlerEffect} (stepped : process.next pid state.registry step = some effect) :
    (state.after pid effect).Linked := by
  have fits := linked.fits pid process found
  have place := state.place_after pid effect
  -- the other processes keep what they have, as long as their rows stay
  have others : ∀ rows : List UserEntry,
      (∀ other session index, other ≠ pid → state.handlers other = some session →
        session.row = some index → rows[index]? = state.registry.onlineUsers[index]?) →
      (∀ now, effect.process = some now → now.Fits rows pid) →
      ∀ other now, (state.after pid effect).handlers other = some now → now.Fits rows other := by
    intro rows kept mine other now alive
    rw [handlers_after] at alive
    obtain ⟨was, before, rfl⟩ := Option.map_eq_some_iff.mp alive
    by_cases same : other = pid
    · subst same
      rw [Function.update_self] at before
      have fits := mine was before
      exact ⟨fits.entry, fits.unlisted, fits.inside⟩
    · rw [Function.update_of_ne same] at before
      have fits := linked.fits other was before
      exact fits.keep rfl rfl fits.inside fun index placed =>
        kept other was index same before placed
  cases HandlerProcess.moves stepped with
  | login username res out =>
    have free := linked.place_eq_none found out
    have rows := state.registry.onlineUsers_insertOnlineUser username pid
    refine ⟨?_, others _ (fun other session index _ alive placed => ?_) fun now mine => ?_⟩
    · rw [place]
      show Owned _ _ (state.registry.insertOnlineUser username pid).onlineUsers
        (Function.update state.place pid
          (state.registry.onlineUsers.findIdx? fun entry => entry.isActive = 0))
      rw [rows, isActive_eq_zero]
      exact linked.owned.insert free rfl rfl
    · show (state.registry.insertOnlineUser username pid).onlineUsers[index]? = _
      have filled := (linked.fits other session alive).entry index placed
      rw [rows, filled]
      exact getElem?_updateFirst filled rfl
    · cases mine
      refine ⟨fun index placed => ?_, nofun, nofun⟩
      show (state.registry.insertOnlineUser username pid).onlineUsers[index]? = _
      have first : state.registry.onlineUsers.findIdx? (fun entry => !entry.inUse) = some index := by
        rw [← isActive_eq_zero]
        exact placed
      rw [rows, getElem?_updateFirst_findIdx? first]
      rw [List.findIdx?_eq_some_iff_findIdx_eq] at first
      rw [List.getElem?_eq_getElem first.1]
      rfl
  | remove leaves =>
    refine ⟨?_, others _ (fun other session index apart alive placed => ?_) nofun⟩
    · rw [place]
      exact linked.owned.remove pid idle_deactivate (fun entry => rfl) fun entry => rfl
    · have filled := (linked.fits other session alive).entry index placed
      rw [filled]
      exact getElem?_updateFirst filled (decide_eq_false apart)
  | close out =>
    have free := linked.place_eq_none found out
    refine ⟨?_, others _ (fun _ _ _ _ _ _ => rfl) nofun⟩
    rw [place]
    show Owned _ _ state.registry.onlineUsers (Function.update state.place pid none)
    rw [← free, Function.update_eq_self]
    exact linked.owned
  | @stay _ after phase flag signals _ same leaves inside =>
    refine ⟨?_, others _ (fun _ _ index _ _ _ => congrArg (·[index]?) same) fun now mine => ?_⟩
    · rw [place]
      show Owned _ _ after.onlineUsers (Function.update state.place pid process.row)
      have held : state.place pid = process.row := by
        unfold HandlerSystem.place
        rw [found]
        rfl
      rw [same, ← held, Function.update_eq_self]
      exact linked.owned
    · cases mine
      exact fits.keep rfl rfl (fun needs => (inside needs).elim id fits.inside) fun index _ =>
        congrArg (·[index]?) same

/-- Every step of the system. -/
theorem Linked.next {state after : HandlerSystem} {label : SystemLabel} (linked : state.Linked)
    (step : state.next label = some after) : after.Linked := by
  cases label with
  | connect pid =>
    obtain ⟨fresh, same⟩ := Option.ite_none_left_eq_some.mp step
    cases same
    have free : state.handlers pid = none := by
      simpa using (not_or.mp fresh).2
    refine ⟨?_, fun other process (alive : Function.update _ _ _ _ = _) => ?_⟩
    · have kept : none = state.place pid := by
        unfold place
        rw [free]
        rfl
      rw [place_update]
      show Owned _ _ state.registry.onlineUsers (Function.update state.place pid none)
      rw [kept, Function.update_eq_self]
      exact linked.owned
    · by_cases same : other = pid
      · subst same
        rw [Function.update_self] at alive
        cases alive
        exact ⟨nofun, fun _ => rfl, nofun⟩
      · rw [Function.update_of_ne same] at alive
        exact linked.fits other process alive
  | deliver pid =>
    obtain ⟨process, found, delivered⟩ := Option.bind_eq_some_iff.mp step
    obtain ⟨-, same⟩ := Option.ite_none_right_eq_some.mp delivered
    cases same
    refine ⟨?_, fun other now (alive : Function.update _ _ _ _ = _) => ?_⟩
    · have kept : process.row = state.place pid := by
        unfold place
        rw [found]
        rfl
      rw [place_update]
      show Owned _ _ state.registry.onlineUsers (Function.update state.place pid process.row)
      rw [kept, Function.update_eq_self]
      exact linked.owned
    · by_cases same : other = pid
      · subst same
        rw [Function.update_self] at alive
        cases alive
        have fits := linked.fits other process found
        exact ⟨fits.entry, fits.unlisted, fits.inside⟩
      · rw [Function.update_of_ne same] at alive
        exact linked.fits other now alive
  | act pid step =>
    obtain ⟨process, found, taken⟩ := Option.bind_eq_some_iff.mp step
    obtain ⟨effect, stepped, rfl⟩ := Option.map_eq_some_iff.mp taken
    exact linked.act found stepped

/-- Every run keeps the table of users linked to the processes. -/
theorem linked_of_run {schedule : List SystemLabel} {state : HandlerSystem}
    (run : runFrom next start schedule = some state) : state.Linked :=
  run_invariant Linked (fun _ _ _ linked step => linked.next step) linked_start run

end HandlerSystem

/-- In every run, the last step of a process puts the row that its login has filled out of use and
leaves every other row as it is, or leaves the whole table as it is when its login found no row; in
particular the rows in use for other processes stay. -/
theorem disconnect_own_row (schedule : List SystemLabel) (state after : HandlerSystem)
    (pid : UInt32) (process : HandlerProcess)
    (run : runFrom HandlerSystem.next .start schedule = some state)
    (found : state.handlers pid = some process)
    (step : state.next (.act pid .remove) = some after) :
    (∀ index, process.row = some index →
      state.registry.onlineUsers[index]? = some ⟨process.session.username, pid, 1⟩ ∧
        after.registry.onlineUsers =
          state.registry.onlineUsers.set index ⟨process.session.username, pid, 0⟩) ∧
      (process.row = none → after.registry.onlineUsers = state.registry.onlineUsers) ∧
      ∀ (index : Nat) (entry : UserEntry), state.registry.onlineUsers[index]? = some entry →
        entry.isActive ≠ 0 → entry.handlerPid ≠ pid →
          after.registry.onlineUsers[index]? = some entry := by
  have linked := HandlerSystem.linked_of_run run
  have rows : after.registry.onlineUsers =
      (state.registry.removeOnlineUser pid).onlineUsers := by
    obtain ⟨other, alive, taken⟩ := Option.bind_eq_some_iff.mp step
    obtain ⟨effect, stepped, rfl⟩ := Option.map_eq_some_iff.mp taken
    cases HandlerProcess.moves stepped with
    | remove leaves => rfl
    | stay goes same leaves inside => exact absurd rfl goes
  have place : state.place pid = process.row := by
    unfold HandlerSystem.place
    rw [found]
    rfl
  refine ⟨fun index placed => ?_, fun unlisted => ?_, fun index entry filled _ apart => ?_⟩
  · have filled := (linked.fits pid process found).entry index placed
    refine ⟨filled, ?_⟩
    rw [rows]
    exact linked.owned.remove_place (place.trans placed) filled _
  · rw [rows]
    exact linked.owned.remove_none (place.trans unlisted) idle_deactivate
  · rw [rows]
    exact getElem?_updateFirst filled (decide_eq_false apart)

/-- The steps of a new process until its login is accepted. -/
def logsIn (pid : UInt32) (username : List UInt8) : List SystemLabel :=
  [.connect pid, .act pid .test, .act pid (.login username .zero)]

/-- The steps of a process whose client is gone. -/
def hangsUp (pid : UInt32) : List SystemLabel := [.act pid .test, .act pid .hangUp]

/-- A process id returns in a row before the one that it has left. -/
def pidReturns : List SystemLabel :=
  logsIn 7 (str "alice") ++ logsIn 8 (str "bob") ++ hangsUp 7 ++ [.act 7 .remove] ++ hangsUp 8 ++
    [.act 8 .remove] ++ logsIn 8 (str "carol") ++ hangsUp 8

/-- The last process of that run gives up the first row and not the second one. -/
theorem disconnect_own_row_pidReturns :
    ∃ (state after : HandlerSystem) (process : HandlerProcess),
      runFrom HandlerSystem.next .start pidReturns = some state ∧
        state.next (.act 8 .remove) = some after ∧ state.handlers 8 = some process ∧
        (state.registry.onlineUsers.map UserEntry.handlerPid).take 3 = [8, 8, 0] ∧
        after.registry.onlineUsers =
          state.registry.onlineUsers.set 0 ⟨process.session.username, 8, 0⟩ := by
  refine ⟨_, _, _, rfl, rfl, rfl, rfl, ?_⟩
  exact ((disconnect_own_row pidReturns _ _ 8 _ rfl rfl rfl).1 0 rfl).2

end FileServer
