import FileServer.Model.Shutdown
import FileServer.Verif.HandlerProcesses

/-!
# Whom the end of the server ends

When `performFullCleanup` has the semaphore, the rows in use are those of the processes that have filled
them, and nobody fills or gives up a row until it is through. So the processes that it ends are those
with a row, each once; a handler whose login has found no row outlives the server.
-/
namespace FileServer

open FileServer.Lib

/-- A step that waits for no semaphore leaves the table of users. Its process keeps its session and its
row, or ends without a login. -/
theorem HandlerProcess.keeps_of_not_locks {process : HandlerProcess} {pid : UInt32}
    {registry : SharedRegistry} {step : HandlerStep} {effect : HandlerEffect}
    (stepped : process.next pid registry step = some effect)
    (free : process.locks step = false) :
    effect.registry.onlineUsers = registry.onlineUsers ∧
      (effect.process = none ∧ process.loggedIn = false ∨
        ∃ now, effect.process = some now ∧ now.session = process.session ∧
          now.row = process.row) := by
  cases moves stepped with
  | login username res out => cases free
  | remove leaves => cases free
  | close out => exact ⟨rfl, Or.inl ⟨rfl, out⟩⟩
  | stay goes same leaves inside => exact ⟨same, Or.inr ⟨_, rfl, rfl, rfl⟩⟩

/-- The table of users stays, and nobody but handlers without a login comes or goes. -/
structure HandlerSystem.GoesOn (state after : HandlerSystem) : Prop where
  /-- The table of users. -/
  users : after.registry.onlineUsers = state.registry.onlineUsers
  /-- Who is alive was alive, with the same session and row. -/
  alive : ∀ pid now, after.handlers pid = some now →
    ∃ was, state.handlers pid = some was ∧ now.session = was.session ∧ now.row = was.row
  /-- Who has logged in is still alive. -/
  kept : ∀ pid was, state.handlers pid = some was → was.loggedIn = true →
    ∃ now, after.handlers pid = some now

/-- So it is while `main` holds the semaphore. -/
theorem ServerProcesses.goesOn_next {server : ServerProcesses} (holds : server.main.holds = true)
    {label : SystemLabel} (allowed : server.allows label = true) {after : HandlerSystem}
    (stepped : server.system.next label = some after) : server.system.GoesOn after := by
  cases label with
  | connect pid =>
    have serving : server.main = .serving := of_decide_eq_true allowed
    rw [serving] at holds
    cases holds
  | deliver pid =>
    obtain ⟨process, found, delivered⟩ := Option.bind_eq_some_iff.mp stepped
    obtain ⟨-, same⟩ := Option.ite_none_right_eq_some.mp delivered
    obtain rfl := Option.some.inj same
    refine ⟨rfl, fun other now alive => ?_, fun other was before _ => ?_⟩
    · have here : Function.update server.system.handlers pid _ other = some now := alive
      by_cases mine : other = pid
      · subst mine
        rw [Function.update_self] at here
        obtain rfl := Option.some.inj here
        exact ⟨process, found, rfl, rfl⟩
      · rw [Function.update_of_ne mine] at here
        exact ⟨now, here, rfl, rfl⟩
    · by_cases mine : other = pid
      · subst mine
        exact ⟨_, Function.update_self ..⟩
      · exact ⟨was, (Function.update_of_ne mine _ _).trans before⟩
  | act pid step =>
    obtain ⟨process, found, taken⟩ := Option.bind_eq_some_iff.mp stepped
    obtain ⟨effect, acted, rfl⟩ := Option.map_eq_some_iff.mp taken
    have free : process.locks step = false := by
      have goes : (!server.main.holds || (server.system.handlers pid).any (!·.locks step)) = true :=
        allowed
      rw [holds, found] at goes
      simpa using goes
    obtain ⟨users, goes⟩ := HandlerProcess.keeps_of_not_locks acted free
    refine ⟨users, fun other now alive => ?_, fun other was before inside => ?_⟩
    · rw [HandlerSystem.handlers_after] at alive
      obtain ⟨next, here, rfl⟩ := Option.map_eq_some_iff.mp alive
      by_cases mine : other = pid
      · subst mine
        rw [Function.update_self] at here
        rcases goes with ⟨gone, -⟩ | ⟨went, same, session, row⟩
        · rw [gone] at here
          cases here
        · rw [same] at here
          obtain rfl := Option.some.inj here
          exact ⟨process, found, session, row⟩
      · rw [Function.update_of_ne mine] at here
        exact ⟨next, here, rfl, rfl⟩
    · rw [HandlerSystem.handlers_after]
      by_cases mine : other = pid
      · subst mine
        rw [Function.update_self]
        rcases goes with ⟨-, out⟩ | ⟨went, same, -, -⟩
        · obtain rfl := Option.some.inj (found.symm.trans before)
          exact absurd (inside.symm.trans out) (by simp)
        · rw [same]
          exact ⟨_, rfl⟩
      · rw [Function.update_of_ne mine, before]
        exact ⟨_, rfl⟩

/-- What has become of the handlers since `main` has the semaphore: the processes of the first rows
have ended, and those of as many or one more have been signalled. -/
structure Swept (locked : HandlerSystem) (ended signalled : Nat) (system : HandlerSystem)
    (terminated : List UInt32) : Prop where
  /-- The table of users. -/
  users : system.registry.onlineUsers = locked.registry.onlineUsers
  /-- The processes signalled. -/
  terminated : terminated =
    ((locked.registry.onlineUsers.take signalled).filter UserEntry.inUse).map UserEntry.handlerPid
  /-- Who is alive was alive, with no earlier row. -/
  alive : ∀ pid now, system.handlers pid = some now →
    ∃ was, locked.handlers pid = some was ∧ now.session = was.session ∧ now.row = was.row ∧
      ∀ index, was.row = some index → ended ≤ index
  /-- Who has logged in and has no earlier row is alive. -/
  kept : ∀ pid was, locked.handlers pid = some was → was.loggedIn = true →
    (∀ index, was.row = some index → signalled ≤ index) →
      ∃ now, system.handlers pid = some now

/-- The sweep, wherever `main` is in it. -/
def Sweeps (locked : HandlerSystem) (server : ServerProcesses) : Prop :=
  match server.main with
  | .sweeping index => Swept locked index index server.system server.terminated
  | .waiting index pid => Swept locked index (index + 1) server.system server.terminated ∧
    ∃ entry, locked.registry.onlineUsers[index]? = some entry ∧ entry.inUse = true ∧
      entry.handlerPid = pid
  | .finished => True
  | .serving | .stopping => False

section

variable {locked system : HandlerSystem} {ended signalled : Nat} {terminated : List UInt32}

/-- The handlers go on. -/
theorem Swept.goesOn (swept : Swept locked ended signalled system terminated)
    {after : HandlerSystem} (goes : system.GoesOn after) :
    Swept locked ended signalled after terminated := by
  refine ⟨goes.users.trans swept.users, swept.terminated, fun pid now alive => ?_,
    fun pid was before inside later => ?_⟩
  · obtain ⟨middle, here, session, row⟩ := goes.alive pid now alive
    obtain ⟨was, before, session', row', later⟩ := swept.alive pid middle here
    exact ⟨was, before, session.trans session', row.trans row', later⟩
  · obtain ⟨middle, here⟩ := swept.kept pid was before inside later
    obtain ⟨other, before', session, -, -⟩ := swept.alive pid middle here
    obtain rfl := Option.some.inj (before'.symm.trans before)
    refine goes.kept pid middle here ?_
    unfold HandlerProcess.loggedIn at inside ⊢
    rw [session]
    exact inside

/-- The process of a row is the one that the row names. -/
theorem HandlerSystem.Linked.row_iff (linked : locked.Linked) {index : Nat} {entry : UserEntry}
    (found : locked.registry.onlineUsers[index]? = some entry) {pid : UInt32}
    {process : HandlerProcess} (alive : locked.handlers pid = some process) :
    process.row = some index ↔ entry.inUse = true ∧ entry.handlerPid = pid := by
  constructor
  · intro row
    have filled := (linked.fits pid process alive).entry index row
    obtain rfl := Option.some.inj (found.symm.trans filled)
    exact ⟨rfl, rfl⟩
  · rintro ⟨busy, rfl⟩
    have placed := linked.owned.placed index entry found busy
    unfold place at placed
    rwa [alive] at placed

/-- The process waited for ends. -/
theorem Swept.ends (swept : Swept locked ended (ended + 1) system terminated)
    (linked : locked.Linked)
    {entry : UserEntry} (found : locked.registry.onlineUsers[ended]? = some entry)
    (busy : entry.inUse = true) :
    Swept locked ended (ended + 1)
      { system with handlers := Function.update system.handlers entry.handlerPid none }
      terminated := by
  refine ⟨swept.users, swept.terminated, fun pid now alive => ?_,
    fun pid was before inside later => ?_⟩
  · have here : Function.update system.handlers entry.handlerPid none pid = some now := alive
    by_cases mine : pid = entry.handlerPid
    · rw [mine, Function.update_self] at here
      cases here
    · rw [Function.update_of_ne mine] at here
      exact swept.alive pid now here
  · have other : pid ≠ entry.handlerPid := by
      intro mine
      have row := (linked.row_iff found before).mpr ⟨busy, mine.symm⟩
      have late := later ended row
      omega
    obtain ⟨now, here⟩ := swept.kept pid was before inside later
    exact ⟨now, (Function.update_of_ne other _ _).trans here⟩

/-- Behind a row whose process is gone, the sweep comes to the next one. -/
theorem Swept.passes (swept : Swept locked ended signalled system terminated)
    (linked : locked.Linked)
    {entry : UserEntry} (found : locked.registry.onlineUsers[ended]? = some entry)
    (gone : entry.inUse = true → system.handlers entry.handlerPid = none) :
    Swept locked (ended + 1) signalled system terminated := by
  refine ⟨swept.users, swept.terminated, fun pid now alive => ?_, swept.kept⟩
  obtain ⟨was, before, session, row, later⟩ := swept.alive pid now alive
  refine ⟨was, before, session, row, fun index placed => ?_⟩
  have late := later index placed
  have apart : index ≠ ended := by
    rintro rfl
    obtain ⟨busy, mine⟩ := (linked.row_iff found before).mp placed
    rw [mine] at gone
    exact absurd (alive.symm.trans (gone busy)) (by simp)
  omega

/-- A look at a row, with its signal if it is in use. -/
theorem Swept.look {index : Nat} (swept : Swept locked index index system terminated)
    {entry : UserEntry}
    (found : locked.registry.onlineUsers[index]? = some entry) {after : List UInt32}
    (signals : after = terminated ++ if entry.inUse then [entry.handlerPid] else []) :
    Swept locked index (index + 1) system after := by
  refine ⟨swept.users, ?_, swept.alive, fun pid was before inside later => ?_⟩
  · rw [signals, swept.terminated, List.take_add_one, found, Option.toList_some,
      List.filter_append, List.map_append]
    cases busy : entry.inUse with
    | true => simp [busy]
    | false => simp [busy]
  · refine swept.kept pid was before inside fun row placed => ?_
    have late := later row placed
    omega

end

/-- Every step keeps the sweep. -/
theorem Sweeps.next {locked : HandlerSystem} (linked : locked.Linked)
    {server after : ServerProcesses} {step : ServerStep} (sweeps : Sweeps locked server)
    (stepped : server.next step = some after) : Sweeps locked after := by
  obtain ⟨system, main, terminated⟩ := server
  cases main with
  | serving => exact sweeps.elim
  | stopping => exact sweeps.elim
  | finished =>
    cases step with
    | handlers label =>
      obtain ⟨-, went⟩ := Option.ite_none_right_eq_some.mp stepped
      obtain ⟨system, -, rfl⟩ := Option.map_eq_some_iff.mp went
      trivial
    | exit => cases stepped
    | lock => cases stepped
    | look => cases stepped
    | terminate => cases stepped
    | reap => cases stepped
  | sweeping index =>
    have swept : Swept locked index index system terminated := sweeps
    cases step with
    | handlers label =>
      obtain ⟨allowed, went⟩ := Option.ite_none_right_eq_some.mp stepped
      obtain ⟨system, goes, rfl⟩ := Option.map_eq_some_iff.mp went
      exact swept.goesOn (ServerProcesses.goesOn_next rfl allowed goes)
    | look =>
      have rows : system.registry.onlineUsers = locked.registry.onlineUsers := swept.users
      unfold ServerProcesses.next at stepped
      dsimp only at stepped
      rw [rows] at stepped
      cases found : locked.registry.onlineUsers[index]? with
      | none =>
        rw [found] at stepped
        obtain rfl := Option.some.inj stepped
        trivial
      | some entry =>
        rw [found] at stepped
        dsimp only at stepped
        by_cases idle : entry.isActive = 0
        · have unused : entry.inUse = false := by simp [UserEntry.inUse, idle]
          rw [if_pos idle] at stepped
          obtain rfl := Option.some.inj stepped
          have same : terminated = terminated ++ if entry.inUse then [entry.handlerPid] else [] := by
            simp [unused]
          have looked := swept.look found same
          exact looked.passes linked found fun busy => absurd (busy.symm.trans unused) (by simp)
        · have busy : entry.inUse = true := by simp [UserEntry.inUse, idle]
          rw [if_neg idle] at stepped
          obtain rfl := Option.some.inj stepped
          exact ⟨swept.look found (by simp [busy]), entry, found, busy, rfl⟩
    | exit => cases stepped
    | lock => cases stepped
    | terminate => cases stepped
    | reap => cases stepped
  | waiting index pid =>
    obtain ⟨swept, entry, found, busy, rfl⟩ := sweeps
    cases step with
    | handlers label =>
      obtain ⟨allowed, went⟩ := Option.ite_none_right_eq_some.mp stepped
      obtain ⟨system, goes, rfl⟩ := Option.map_eq_some_iff.mp went
      exact ⟨swept.goesOn (ServerProcesses.goesOn_next rfl allowed goes), entry, found, busy, rfl⟩
    | terminate =>
      obtain ⟨process, -, rfl⟩ := Option.map_eq_some_iff.mp stepped
      exact ⟨swept.ends linked found busy, entry, found, busy, rfl⟩
    | reap =>
      obtain ⟨gone, same⟩ := Option.ite_none_right_eq_some.mp stepped
      obtain rfl := Option.some.inj same
      exact swept.passes linked found fun _ => gone
    | exit => cases stepped
    | lock => cases stepped
    | look => cases stepped

/-- Until `main` has the semaphore, the handlers go on as without it. -/
def Undisturbed (server : ServerProcesses) : Prop :=
  server.main = .serving ∨ server.main = .stopping →
    server.system.Linked ∧ server.terminated = []

/-- Every step leaves it so. -/
theorem Undisturbed.next {server after : ServerProcesses} {step : ServerStep}
    (undisturbed : Undisturbed server) (stepped : server.next step = some after) :
    Undisturbed after := by
  intro early
  obtain ⟨system, main, terminated⟩ := server
  cases step with
  | handlers label =>
    obtain ⟨-, went⟩ := Option.ite_none_right_eq_some.mp stepped
    obtain ⟨system, goes, rfl⟩ := Option.map_eq_some_iff.mp went
    obtain ⟨linked, none⟩ := undisturbed early
    exact ⟨linked.next goes, none⟩
  | exit =>
    obtain ⟨serving, same⟩ := Option.ite_none_right_eq_some.mp stepped
    obtain rfl := Option.some.inj same
    exact undisturbed (Or.inl serving)
  | lock =>
    obtain ⟨-, same⟩ := Option.ite_none_right_eq_some.mp stepped
    obtain rfl := Option.some.inj same
    exact absurd early (by simp)
  | look =>
    -- `main` is in the sweep, and stays in it or is through
    cases main with
    | sweeping index =>
      exfalso
      unfold ServerProcesses.next at stepped
      dsimp only at stepped
      split at stepped
      · obtain rfl := Option.some.inj stepped
        simp at early
      · split at stepped
        · obtain rfl := Option.some.inj stepped
          simp at early
        · obtain rfl := Option.some.inj stepped
          simp at early
    | _ => cases stepped
  | terminate =>
    cases main with
    | waiting index pid =>
      obtain ⟨process, -, rfl⟩ := Option.map_eq_some_iff.mp stepped
      exact absurd early (by simp [ServerProcesses.ends])
    | _ => cases stepped
  | reap =>
    cases main with
    | waiting index pid =>
      obtain ⟨-, same⟩ := Option.ite_none_right_eq_some.mp stepped
      obtain rfl := Option.some.inj same
      exact absurd early (by simp)
    | _ => cases stepped

/-- In every run, once `performFullCleanup` has the semaphore, the processes that it has ended when it
comes to a row are those that had filled an earlier one, each signalled once; all other handlers with a
login are still alive, also those that have found no row, and no other handlers are. -/
theorem cleanup_ends_users (before during : List ServerStep) {locked server : ServerProcesses}
    {index : Nat} (reached : runFrom ServerProcesses.next .start before = some locked)
    (run : runFrom ServerProcesses.next locked (.lock :: during) = some server)
    (sweeps : server.main = .sweeping index) :
    server.terminated.Nodup ∧
      (∀ pid, pid ∈ server.terminated ↔ ∃ process row, locked.system.handlers pid = some process ∧
        process.row = some row ∧ row < index) ∧
      (∀ pid ∈ server.terminated, server.system.handlers pid = none) ∧
      (∀ pid process, locked.system.handlers pid = some process → process.loggedIn = true →
        pid ∉ server.terminated → ∃ now, server.system.handlers pid = some now) ∧
      ∀ pid now, server.system.handlers pid = some now →
        ∃ process, locked.system.handlers pid = some process ∧ now.session = process.session := by
  have undisturbed : Undisturbed locked :=
    run_invariant Undisturbed (fun _ _ _ kept stepped => kept.next stepped)
      (fun _ => ⟨HandlerSystem.linked_start, rfl⟩) reached
  obtain ⟨first, taken, run⟩ := Option.bind_eq_some_iff.mp run
  obtain ⟨stopping, same⟩ := Option.ite_none_right_eq_some.mp taken
  obtain rfl := Option.some.inj same
  obtain ⟨linked, none⟩ := undisturbed (Or.inr stopping)
  have begun : Sweeps locked.system { locked with main := .sweeping 0 } := by
    refine ⟨rfl, none, fun pid now alive => ?_, fun pid was before _ _ => ⟨was, before⟩⟩
    exact ⟨now, alive, rfl, rfl, fun row _ => Nat.zero_le row⟩
  have swept : Swept locked.system index index server.system server.terminated := by
    have kept : Sweeps locked.system server :=
      run_invariant (Sweeps locked.system) (fun _ _ _ kept stepped => kept.next linked stepped)
        begun run
    unfold Sweeps at kept
    rwa [sweeps] at kept
  have signalled : ∀ pid, pid ∈ server.terminated ↔ ∃ process row,
      locked.system.handlers pid = some process ∧ process.row = some row ∧ row < index := by
    intro pid
    rw [swept.terminated]
    constructor
    · intro member
      obtain ⟨entry, listed, rfl⟩ := List.mem_map.mp member
      obtain ⟨inside, busy⟩ := List.mem_filter.mp listed
      obtain ⟨row, found⟩ := List.getElem?_of_mem inside
      rw [List.getElem?_take, Option.ite_none_right_eq_some] at found
      have placed := linked.owned.placed row entry found.2 busy
      obtain ⟨process, alive, row_⟩ := Option.bind_eq_some_iff.mp placed
      exact ⟨process, row, alive, row_, found.1⟩
    · rintro ⟨process, row, alive, placed, early⟩
      have filled := (linked.fits pid process alive).entry row placed
      have inside : (locked.system.registry.onlineUsers.take index)[row]? =
          some ⟨process.session.username, pid, 1⟩ := by
        rw [List.getElem?_take, if_pos early]
        exact filled
      exact List.mem_map.mpr ⟨_, List.mem_filter.mpr ⟨List.mem_of_getElem? inside, rfl⟩, rfl⟩
  refine ⟨?_, signalled, fun pid member => ?_, fun pid process before inside other => ?_,
    fun pid now alive => ?_⟩
  · rw [swept.terminated]
    exact linked.owned.nodup_take index
  · obtain ⟨process, row, before, placed, early⟩ := (signalled pid).mp member
    by_contra gone
    obtain ⟨now, alive⟩ := Option.ne_none_iff_exists'.mp gone
    obtain ⟨was, before', -, -, later⟩ := swept.alive pid now alive
    obtain rfl := Option.some.inj (before'.symm.trans before)
    have late := later row placed
    omega
  · refine swept.kept pid process before inside fun row placed => ?_
    by_contra early
    exact other ((signalled pid).mpr ⟨process, row, before, placed, by omega⟩)
  · obtain ⟨was, before, session, -, -⟩ := swept.alive pid now alive
    exact ⟨was, before, session⟩

/-- A user who has logged in, and another client that has not. -/
def oneUser : List ServerStep :=
  (logsIn 7 (str "alice") ++ [SystemLabel.connect 8]).map ServerStep.handlers ++ [.exit]

/-- The look at the first row, and the end of its process. -/
def endsFirst : List ServerStep := [.look, .terminate, .reap]

/-- The handler of the user is ended, the other one is not. -/
theorem cleanup_ends_users_alice : ∃ locked server,
    runFrom ServerProcesses.next .start oneUser = some locked ∧
      runFrom ServerProcesses.next locked (.lock :: endsFirst) = some server ∧
      server.system.handlers 7 = none ∧ 8 ∉ server.terminated := by
  refine ⟨_, _, rfl, rfl, ?_, fun ended => ?_⟩
  · exact (cleanup_ends_users oneUser endsFirst rfl rfl rfl).2.2.1 7 (by decide +kernel)
  · obtain ⟨process, row, alive, placed, -⟩ :=
      ((cleanup_ends_users oneUser endsFirst rfl rfl rfl).2.1 8).mp ended
    obtain rfl := Option.some.inj alive
    cases placed

end FileServer
