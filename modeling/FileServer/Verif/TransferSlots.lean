import FileServer.Verif.HandlerProcesses
import FileServer.Verif.Transfers

/-!
# What becomes of the slots of the table of transfers

One lemma says what a step of a handler process can do to a slot. From it follow the laws of
the slots over whole runs of all processes: which steps take a request from its receiver, and
which take the news of a rejection from the sender, while either is online; and which leave a slot
behind that no one who is online can free. Each law is broken by the code in some runs, and holds
in all runs that avoid certain steps.
-/
namespace FileServer

open FileServer.Lib

/-- What a step of a process can do to a slot. -/
inductive HandlerProcess.SlotMoves (process : HandlerProcess) :
    HandlerStep → TransferRequest → TransferRequest → Prop
  /-- The slot stays as it is. -/
  | same {step : HandlerStep} (slot : TransferRequest) : SlotMoves process step slot slot
  /-- A free slot is taken for a request. -/
  | taken {slot : TransferRequest} {filename destUser : List UInt8} {targetPid : UInt32}
    (id : UInt32) (phase : process.phase = .creating filename destUser targetPid)
    (free : slot.status = .free) :
    SlotMoves process .create slot ((slot.requested id process.user destUser).named filename)
  /-- A request is shown to its receiver. -/
  | shown {slot : TransferRequest} (phase : process.phase = .checking)
    (waits : slot.status = .pending) (mine : slot.receiverText = process.user) :
    SlotMoves process .scan slot { slot with status := .notified }
  /-- A rejection is shown to the sender. -/
  | told {slot : TransferRequest} (phase : process.phase = .checking)
    (refused : slot.status = .rejected) (mine : slot.senderText = process.user) :
    SlotMoves process .scan slot .zero
  /-- A request is accepted. -/
  | accepted {slot : TransferRequest} {reqId : UInt32} (shown : slot.status = .notified)
    (mine : slot.receiverText = process.user) (inside : process.loggedIn = true) :
    SlotMoves process (.accept reqId) slot slot.accepted
  /-- A request is rejected. -/
  | rejected {slot : TransferRequest} {targetId : UInt32} (id : slot.id = targetId)
    (busy : slot.status ≠ .free) (mine : slot.receiverText = process.user)
    (inside : process.loggedIn = true) :
    SlotMoves process (.reject targetId) slot { slot with status := .rejected, id := 0 }
  /-- The receiver leaves. -/
  | cleaned {slot : TransferRequest} (busy : slot.status ≠ .free)
    (mine : slot.receiverText = process.user) (phase : process.phase = .reading)
    (inside : process.loggedIn = true) :
    SlotMoves process .hangUp slot slot.cleaned

/-- The file name of a request that is about to take a slot. -/
def HandlerPhase.filename : HandlerPhase → Option (List UInt8)
  | creating filename _ _ => some filename
  | _ => none

/-- The file name of a request that is about to take a slot fits its field. -/
def HandlerPhase.ShortName (phase : HandlerPhase) : Prop :=
  ∀ filename ∈ phase.filename, filename.length < filenameSize

/-- Whether a file name fits can be computed. -/
instance : DecidablePred HandlerPhase.ShortName := fun _ =>
  inferInstanceAs (Decidable (∀ filename ∈ _, _))

/-- The first step out of the loop, with and without a login. -/
theorem HandlerProcess.hangUp_cases {process : HandlerProcess} {pid : UInt32}
    {registry : SharedRegistry} {effect : HandlerEffect}
    (stepped : process.next pid registry .hangUp = some effect) :
    process.phase = .reading ∧
      ((process.loggedIn = true ∧ effect = ⟨registry.cleanupUserRequests process.user,
          some { process with phase := .leaving }, none⟩) ∨
        (process.loggedIn = false ∧ effect = ⟨registry, none, none⟩)) := by
  obtain ⟨phase, session, flag, inFlight, row⟩ := process
  unfold next at stepped
  cases phase <;>
    simp only [go, reduceCtorEq] at stepped
  refine ⟨rfl, ?_⟩
  split at stepped
  · rename_i inside
    exact .inl ⟨inside, (Option.some.inj stepped).symm⟩
  · rename_i out
    exact .inr ⟨Bool.eq_false_iff.mpr out, (Option.some.inj stepped).symm⟩

/-- Every step does one of these to each slot, as long as file names fit their field. -/
theorem HandlerProcess.slot_moves {process : HandlerProcess} {pid : UInt32}
    {registry : SharedRegistry} {step : HandlerStep} {effect : HandlerEffect}
    (stepped : process.next pid registry step = some effect)
    (short : step = .create → process.phase.ShortName) {index : Nat} {slot : TransferRequest}
    (found : registry.pending[index]? = some slot) :
    ∃ now, effect.registry.pending[index]? = some now ∧ process.SlotMoves step slot now := by
  obtain ⟨phase, session, flag, inFlight, row⟩ := process
  unfold next at stepped
  cases phase <;> cases step <;>
    simp only [go, goLoggedIn, Option.some.injEq, reduceCtorEq,
      Option.ite_none_right_eq_some, Option.ite_none_left_eq_some] at stepped
  case testing.test | clearing.clear | reading.other | polling.poll | signalling.kill |
      answering.answer | leaving.remove =>
    subst stepped
    exact ⟨slot, found, .same slot⟩
  case reading.restart | reading.request | reading.login =>
    obtain ⟨-, rfl⟩ := stepped
    exact ⟨slot, found, .same slot⟩
  case checking.scan =>
    subst stepped
    refine ⟨(visitSlot session.usernameText slot).1, ?_, ?_⟩
    · show (registry.pending.map fun slot => (visitSlot session.usernameText slot).1)[index]? = _
      rw [List.getElem?_map, found]
      rfl
    · unfold visitSlot
      split
      · rename_i new
        exact .shown rfl new.1 new.2
      · split
        · rename_i answered
          exact .told rfl answered.1 answered.2
        · exact .same slot
  case creating.create filename destUser targetPid =>
    subst stepped
    obtain ⟨-, same⟩ | ⟨before, free, after, split, status, -, -, pending, -⟩ :=
      registry.createRequest_cases (short rfl filename rfl) destUser session.usernameText
    · refine ⟨slot, ?_, .same slot⟩
      show (registry.createRequest filename destUser session.usernameText).2.pending[index]? = _
      rw [same]
      exact found
    · show ∃ now, (registry.createRequest filename destUser
        session.usernameText).2.pending[index]? = some now ∧ _
      rw [split] at found
      rw [pending]
      rcases getElem?_replace before after free _ found with kept | ⟨-, rfl, new⟩
      · exact ⟨slot, kept, .same slot⟩
      · exact ⟨_, new, .taken _ rfl status⟩
  case reading.accept reqId =>
    obtain ⟨inside, rfl⟩ := stepped
    show ∃ now, (registry.acceptRequest reqId session.usernameText).2.pending[index]? = some now ∧ _
    obtain ⟨-, same⟩ | ⟨before, hit, after, split, -, shown, mine, -, pending⟩ :=
      registry.acceptRequest_cases reqId session.usernameText
    · rw [same]
      exact ⟨slot, found, .same slot⟩
    · rw [split] at found
      rw [pending]
      rcases getElem?_replace before after hit _ found with kept | ⟨-, rfl, new⟩
      · exact ⟨slot, kept, .same slot⟩
      · exact ⟨_, new, .accepted shown mine inside⟩
  case reading.reject targetId =>
    obtain ⟨inside, rfl⟩ := stepped
    show ∃ now,
      (registry.rejectRequest targetId session.usernameText).2.pending[index]? = some now ∧ _
    obtain ⟨-, same⟩ | ⟨before, hit, after, split, number, busy, mine, -, pending⟩ :=
      registry.rejectRequest_cases targetId session.usernameText
    · rw [same]
      exact ⟨slot, found, .same slot⟩
    · rw [split] at found
      rw [pending]
      rcases getElem?_replace before after hit _ found with kept | ⟨-, rfl, new⟩
      · exact ⟨slot, kept, .same slot⟩
      · exact ⟨_, new, .rejected number busy mine inside⟩
  case reading.hangUp =>
    split at stepped
    · rename_i inside
      cases stepped
      refine ⟨cleanupSlot session.usernameText slot, ?_, ?_⟩
      · show (registry.pending.map (cleanupSlot session.usernameText))[index]? = _
        rw [List.getElem?_map, found]
        rfl
      · unfold cleanupSlot
        split
        · rename_i busy
          exact .cleaned busy.1 busy.2 rfl inside
        · exact .same slot
    · cases stepped
      exact ⟨slot, found, .same slot⟩

/-- The process that makes a given step. -/
def SystemLabel.actor (step : HandlerStep) : SystemLabel → Option UInt32
  | act pid taken => if taken = step then some pid else none
  | connect _ | deliver _ => none

/-- The step is that of its actor. -/
theorem SystemLabel.mem_actor {label : SystemLabel} {step : HandlerStep} {pid : UInt32} :
    pid ∈ label.actor step ↔ label = .act pid step := by
  cases label with
  | act other taken =>
    simp only [actor, Option.mem_ite_none_right, Option.mem_some_iff, act.injEq]
    exact ⟨fun both => ⟨both.2, both.1⟩, fun both => ⟨both.2, both.1⟩⟩
  | connect other => simp [actor]
  | deliver other => simp [actor]

namespace HandlerSystem

/-- No file name reaches beyond its field. -/
def ShortNames (state : HandlerSystem) (label : SystemLabel) : Prop :=
  ∀ pid ∈ label.actor .create, ∀ process ∈ state.handlers pid, process.phase.ShortName

/-- Whether all file names fit can be computed. -/
instance (state : HandlerSystem) : DecidablePred state.ShortNames := fun label =>
  @Option.decidableForallMem _ _ (fun _ => inferInstanceAs (Decidable (∀ process ∈ _, _)))
    (label.actor .create)

/-- A step of the system leaves a slot as it is, or a process does something to it. -/
theorem slot_moves {state after : HandlerSystem} {label : SystemLabel}
    (step : state.next label = some after) (short : state.ShortNames label) {index : Nat}
    {slot : TransferRequest} (found : state.registry.pending[index]? = some slot) :
    after.registry.pending[index]? = some slot ∨
      ∃ pid step process now, label = .act pid step ∧ state.handlers pid = some process ∧
        after.registry.pending[index]? = some now ∧ process.SlotMoves step slot now := by
  cases label with
  | connect pid =>
    obtain ⟨-, same⟩ := Option.ite_none_left_eq_some.mp step
    cases same
    exact .inl found
  | deliver pid =>
    obtain ⟨process, -, delivered⟩ := Option.bind_eq_some_iff.mp step
    obtain ⟨-, same⟩ := Option.ite_none_right_eq_some.mp delivered
    cases same
    exact .inl found
  | act pid action =>
    obtain ⟨process, alive, taken⟩ := Option.bind_eq_some_iff.mp step
    obtain ⟨effect, stepped, rfl⟩ := Option.map_eq_some_iff.mp taken
    obtain ⟨now, kept, moved⟩ := HandlerProcess.slot_moves stepped
      (by rintro rfl; exact short pid (SystemLabel.mem_actor.mpr rfl) process alive) found
    exact .inr ⟨pid, action, process, now, rfl, alive, kept, moved⟩

/-- Every slot after a step was there before, or a process has done something to it. -/
theorem slot_comes {state after : HandlerSystem} {label : SystemLabel}
    (step : state.next label = some after) (short : state.ShortNames label) {index : Nat}
    {now : TransferRequest} (found : after.registry.pending[index]? = some now) :
    ∃ slot, state.registry.pending[index]? = some slot ∧
      (now = slot ∨ ∃ pid step process, label = .act pid step ∧
        state.handlers pid = some process ∧ process.SlotMoves step slot now) := by
  have bound : index < state.registry.pending.length := by
    rw [state.registry.length_pending, ← after.registry.length_pending]
    exact (List.getElem?_eq_some_iff.mp found).1
  refine ⟨_, List.getElem?_eq_getElem bound, ?_⟩
  rcases slot_moves step short (List.getElem?_eq_getElem bound) with
    kept | ⟨pid, action, process, slot, acts, alive, kept, moved⟩
  · exact .inl (Option.some.inj (found.symm.trans kept))
  · obtain rfl := Option.some.inj (found.symm.trans kept)
    exact .inr ⟨pid, action, process, acts, alive, moved⟩

end HandlerSystem

/-- Whether a request waits for an answer can be computed. -/
instance : DecidablePred TransferRequest.Live := fun slot =>
  inferInstanceAs (Decidable (slot.status = .pending ∨ slot.status = .notified))

namespace HandlerSystem

/-- A row in use carries the name, for a process that is not on its way out. -/
def Stays (state : HandlerSystem) (name : List UInt8) : Prop :=
  ∃ entry ∈ state.registry.onlineUsers, SharedRegistry.isOnline name entry = true ∧
    ∃ process ∈ state.handlers entry.handlerPid, process.phase ≠ .leaving

/-- The same without the rows of one process. -/
def StaysWithout (state : HandlerSystem) (pid : UInt32) (name : List UInt8) : Prop :=
  ∃ entry ∈ state.registry.onlineUsers, SharedRegistry.isOnline name entry = true ∧
    entry.handlerPid ≠ pid ∧ ∃ process ∈ state.handlers entry.handlerPid, process.phase ≠ .leaving

/-- Whether a user stays can be computed. -/
instance (state : HandlerSystem) (name : List UInt8) : Decidable (state.Stays name) :=
  inferInstanceAs (Decidable (∃ entry ∈ _, _ ∧ ∃ process ∈ _, _))

/-- Whether a user stays without a process can be computed. -/
instance (state : HandlerSystem) (pid : UInt32) (name : List UInt8) :
    Decidable (state.StaysWithout pid name) :=
  inferInstanceAs (Decidable (∃ entry ∈ _, _ ∧ _ ∧ ∃ process ∈ _, _))

/-- The step keeps every request that waits for an answer of a receiver who is online after it,
unless a session of the receiver accepts or rejects it. -/
def KeepsOffers (state : HandlerSystem) (label : SystemLabel) : Prop :=
  ∀ after, state.next label = some after → ∀ (index : Nat) (slot : TransferRequest),
    state.registry.pending[index]? = some slot → slot.Live → after.Stays slot.receiverText →
      after.registry.pending[index]? = some slot ∨
        after.registry.pending[index]? = some { slot with status := .notified } ∨
          ∃ pid process, state.handlers pid = some process ∧ process.loggedIn = true ∧
            process.user = slot.receiverText ∧
              ((∃ reqId, label = .act pid (.accept reqId)) ∨
                ∃ targetId, label = .act pid (.reject targetId))

/-- The step is not that of a session that leaves while a request waits for an answer of its user
and another session of the user stays. -/
def LeavesOffers (state : HandlerSystem) (label : SystemLabel) : Prop :=
  ∀ pid ∈ label.actor .hangUp, ∀ process ∈ state.handlers pid, process.phase = .reading →
    process.loggedIn = true → state.StaysWithout pid process.user →
      ∀ slot ∈ state.registry.pending, slot.Live → slot.receiverText ≠ process.user

/-- Whether a step is of that kind can be computed. -/
instance (state : HandlerSystem) : DecidablePred state.LeavesOffers := fun label =>
  @Option.decidableForallMem _ _ (fun _ =>
    inferInstanceAs (Decidable (∀ process ∈ _, _ → _ → _ → ∀ slot ∈ _, _ → _)))
    (label.actor .hangUp)

/-- What the first step out of the loop does. -/
theorem next_hangUp {state : HandlerSystem} {pid : UInt32} {process : HandlerProcess}
    (alive : state.handlers pid = some process) (phase : process.phase = .reading)
    (inside : process.loggedIn = true) :
    state.next (.act pid .hangUp) = some (state.after pid
      ⟨state.registry.cleanupUserRequests process.user, some { process with phase := .leaving },
        none⟩) := by
  rw [next, alive, Option.bind_some]
  have stepped : process.next pid state.registry .hangUp =
      some ⟨state.registry.cleanupUserRequests process.user,
        some { process with phase := .leaving }, none⟩ := by
    unfold HandlerProcess.next
    rw [phase]
    show (if process.loggedIn then _ else _) = _
    rw [if_pos inside]
    rfl
  rw [stepped]
  rfl

/-- Who is online when a session is leaving. -/
theorem stays_hangUp {state after : HandlerSystem} {pid : UInt32} {process : HandlerProcess}
    (alive : state.handlers pid = some process) (phase : process.phase = .reading)
    (inside : process.loggedIn = true) (step : state.next (.act pid .hangUp) = some after)
    (name : List UInt8) : after.Stays name ↔ state.StaysWithout pid name := by
  rw [next_hangUp alive phase inside] at step
  cases step
  constructor
  · rintro ⟨entry, member, online, other, found, goes⟩
    have found := handlers_after state pid entry.handlerPid _ ▸ Option.mem_def.mp found
    obtain ⟨was, before, rfl⟩ := Option.map_eq_some_iff.mp found
    by_cases same : entry.handlerPid = pid
    · rw [same, Function.update_self] at before
      cases before
      exact absurd rfl goes
    · rw [Function.update_of_ne same] at before
      exact ⟨entry, member, online, same, was, before, goes⟩
  · rintro ⟨entry, member, online, apart, other, found, goes⟩
    refine ⟨entry, member, online, { other with signalInFlight := other.signalInFlight || false },
      ?_, goes⟩
    rw [Option.mem_def, handlers_after, Function.update_of_ne apart, Option.mem_def.mp found]
    rfl

/-- The steps that keep the requests to receivers who are online. -/
theorem keepsOffers_of_leavesOffers {state : HandlerSystem} {label : SystemLabel}
    (short : state.ShortNames label) (leaves : state.LeavesOffers label) :
    state.KeepsOffers label := by
  intro after step index slot found live stays
  rcases slot_moves step short found with kept | ⟨pid, action, process, now, rfl, alive, kept, moved⟩
  · exact .inl kept
  · cases moved with
    | same slot => exact .inl kept
    | taken id phase free =>
      rcases live with waits | shown
      · rw [free] at waits
        cases waits
      · rw [free] at shown
        cases shown
    | shown phase waits mine => exact .inr (.inl kept)
    | told phase refused mine =>
      rcases live with waits | shown
      · rw [refused] at waits
        cases waits
      · rw [refused] at shown
        cases shown
    | accepted shown mine inside =>
      exact .inr (.inr ⟨pid, process, alive, inside, mine.symm, .inl ⟨_, rfl⟩⟩)
    | rejected number busy mine inside =>
      exact .inr (.inr ⟨pid, process, alive, inside, mine.symm, .inr ⟨_, rfl⟩⟩)
    | cleaned busy mine phase inside =>
      have another := (stays_hangUp alive phase inside step _).mp stays
      rw [mine] at another
      have kept := leaves pid (SystemLabel.mem_actor.mpr rfl) process alive phase inside another
        slot (List.mem_of_getElem? found) live
      exact absurd mine kept

/-- The steps that keep the requests to receivers who are online are no others. -/
theorem leavesOffers_of_keepsOffers {state : HandlerSystem} {label : SystemLabel}
    (keeps : state.KeepsOffers label) : state.LeavesOffers label := by
  intro pid acts process alive phase inside another slot member live mine
  obtain rfl := SystemLabel.mem_actor.mp acts
  obtain ⟨index, found⟩ := List.mem_iff_getElem?.mp member
  have step := next_hangUp alive phase inside
  have stays := (stays_hangUp alive phase inside step slot.receiverText).mpr (mine ▸ another)
  have busy : slot.status ≠ .free := by
    rcases live with waits | shown
    · rw [waits]
      nofun
    · rw [shown]
      nofun
  have cleaned : (state.after pid ⟨state.registry.cleanupUserRequests process.user,
      some { process with phase := .leaving }, none⟩).registry.pending[index]? =
        some slot.cleaned := by
    show (state.registry.pending.map (cleanupSlot process.user))[index]? = _
    rw [List.getElem?_map, found, Option.map_some, cleanupSlot, if_pos ⟨busy, mine⟩]
  rcases keeps _ step index slot found live stays with kept | kept | ⟨_, _, _, _, _, answered⟩
  · rw [cleaned] at kept
    exact busy (Option.some.inj kept ▸ slot.status_cleaned)
  · rw [cleaned] at kept
    have free := slot.status_cleaned
    rw [Option.some.inj kept] at free
    cases free
  · rcases answered with ⟨_, same⟩ | ⟨_, same⟩
    · cases same
    · cases same

end HandlerSystem

/-- In a run without long file names, requests stay with receivers who are online if no session
leaves while a request waits for an answer of its user and another session of the user stays, and
in no other run. -/
theorem keepsOffers_runs (schedule : List SystemLabel) :
    (StepsMeet HandlerSystem.next (fun state label => state.ShortNames label ∧
        state.LeavesOffers label) .start schedule →
      StepsMeet HandlerSystem.next HandlerSystem.KeepsOffers .start schedule) ∧
    (StepsMeet HandlerSystem.next HandlerSystem.KeepsOffers .start schedule →
      StepsMeet HandlerSystem.next HandlerSystem.LeavesOffers .start schedule) := by
  constructor
  · exact StepsMeet.of_invariant (fun _ => True) (fun _ _ _ _ _ _ => trivial)
      (fun _ _ _ meets => HandlerSystem.keepsOffers_of_leavesOffers meets.1 meets.2) trivial
  · exact StepsMeet.of_invariant (fun _ => True) (fun _ _ _ _ _ _ => trivial)
      (fun _ _ _ keeps => HandlerSystem.leavesOffers_of_keepsOffers keeps) trivial

/-- The steps of a request for a file. -/
def requestsNotes (pid : UInt32) (destUser : List UInt8) : List SystemLabel :=
  [.act pid .test, .act pid (.request (str "notes") destUser), .act pid .poll, .act pid .create,
    .act pid .kill]

/-- A request is made to a user with two sessions, and one of them is about to leave. -/
def secondSession : List SystemLabel :=
  logsIn 7 (str "bob") ++ logsIn 8 (str "bob") ++ logsIn 9 (str "alice") ++
    requestsNotes 9 (str "bob") ++ [.act 8 .test]

/-- The first session of the user rejects the request. -/
def firstRejects : List SystemLabel :=
  [.deliver 7, .act 7 .test, .act 7 .scan, .act 7 .clear, .act 7 (.reject 1), .act 7 .answer]

/-- A session that leaves when the request is answered takes none away. -/
theorem keepsOffers_runs_rejected :
    StepsMeet HandlerSystem.next HandlerSystem.KeepsOffers .start
      (secondSession ++ firstRejects ++ [.act 8 .hangUp]) :=
  (keepsOffers_runs (secondSession ++ firstRejects ++ [.act 8 .hangUp])).1 (by decide +kernel)

/-- A session takes the request with it that another session of its user could answer. -/
theorem not_keepsOffers : ¬ ∀ schedule,
    StepsMeet HandlerSystem.next HandlerSystem.KeepsOffers .start schedule := by
  intro all
  have keeps := (all (secondSession ++ [.act 8 .hangUp])).last rfl
  have leaves := HandlerSystem.leavesOffers_of_keepsOffers keeps
  exact absurd leaves (by decide +kernel)

namespace HandlerSystem

/-- A session of the named user is at work. -/
def HasSession (state : HandlerSystem) (name : List UInt8) : Prop :=
  ∃ pid process, state.handlers pid = some process ∧ process.loggedIn = true ∧
    process.user = name ∧ process.phase ≠ .leaving

/-- The step keeps every rejection whose sender has a session, or a session of the sender enters
exactly this rejection in its list of notices, for this slot once, and frees the slot. -/
def KeepsRejections (state : HandlerSystem) (label : SystemLabel) : Prop :=
  ∀ after, state.next label = some after → ∀ (index : Nat) (slot : TransferRequest),
    state.registry.pending[index]? = some slot → slot.status = .rejected →
      state.HasSession slot.senderText →
        after.registry.pending[index]? = some slot ∨
          ∃ pid process, label = .act pid .scan ∧ state.handlers pid = some process ∧
            process.loggedIn = true ∧ process.user = slot.senderText ∧
              after.registry.pending[index]? = some .zero ∧
                (state.registry.checkForNotifications process.user).1 =
                  ((state.registry.pending.take index).flatMap fun slot =>
                    (visitSlot process.user slot).2) ++ ⟨slot, true⟩ ::
                  ((state.registry.pending.drop (index + 1)).flatMap fun slot =>
                    (visitSlot process.user slot).2)

/-- The step is not that of a session that leaves while the rejection of a request to its user
waits for a sender who has a session. -/
def LeavesRejections (state : HandlerSystem) (label : SystemLabel) : Prop :=
  ∀ pid ∈ label.actor .hangUp, ∀ process ∈ state.handlers pid, process.phase = .reading →
    process.loggedIn = true → ∀ slot ∈ state.registry.pending, slot.status = .rejected →
      slot.receiverText = process.user → ¬ state.HasSession slot.senderText

/-- Slots of rejected requests have no number. -/
def RejectedUnnumbered (state : HandlerSystem) : Prop :=
  ∀ (index : Nat) (slot : TransferRequest), state.registry.pending[index]? = some slot →
    slot.status = .rejected → slot.id = 0

/-- Slots of rejected requests stay without a number. -/
theorem RejectedUnnumbered.next {state after : HandlerSystem} {label : SystemLabel}
    (unnumbered : state.RejectedUnnumbered) (short : state.ShortNames label)
    (step : state.next label = some after) : after.RejectedUnnumbered := by
  intro index now found refused
  obtain ⟨slot, before, rfl | ⟨pid, action, process, rfl, alive, moved⟩⟩ :=
    slot_comes step short found
  · exact unnumbered index now before refused
  · cases moved with
    | same => exact unnumbered index now before refused
    | taken id phase free => cases refused
    | shown phase waits mine => cases refused
    | told phase answered mine => cases refused
    | accepted shown mine inside => cases refused
    | rejected number busy mine inside => rfl
    | cleaned busy mine phase inside =>
      rw [slot.status_cleaned] at refused
      cases refused

/-- The steps that keep the rejections for senders who have a session. -/
theorem keepsRejections_of_leavesRejections {state : HandlerSystem} {label : SystemLabel}
    (linked : state.Linked) (unnumbered : state.RejectedUnnumbered)
    (short : state.ShortNames label) (leaves : state.LeavesRejections label) :
    state.KeepsRejections label := by
  intro after step index slot found refused sender
  rcases slot_moves step short found with kept | ⟨pid, action, process, now, rfl, alive, kept, moved⟩
  · exact .inl kept
  · cases moved with
    | same slot => exact .inl kept
    | taken id phase free =>
      rw [free] at refused
      cases refused
    | shown phase waits mine =>
      rw [waits] at refused
      cases refused
    | accepted shown mine inside =>
      rw [shown] at refused
      cases refused
    | rejected number busy mine inside =>
      left
      have same : { slot with status := .rejected, id := 0 } = slot := by
        rw [← refused, ← unnumbered index slot found refused]
      rw [← same]
      exact kept
    | cleaned busy mine phase inside =>
      exact absurd sender (leaves pid (SystemLabel.mem_actor.mpr rfl) process alive phase inside
        slot (List.mem_of_getElem? found) refused mine)
    | told phase refused mine =>
      have inside : process.loggedIn = true := by
        apply (linked.fits pid process alive).inside
        rw [phase]
        rfl
      refine .inr ⟨pid, process, rfl, alive, inside, mine.symm, kept, ?_⟩
      have split : state.registry.pending =
          state.registry.pending.take index ++ slot :: state.registry.pending.drop (index + 1) := by
        obtain ⟨bound, here⟩ := List.getElem?_eq_some_iff.mp found
        rw [← here, ← List.drop_eq_getElem_cons bound, List.take_append_drop]
      have entered : (visitSlot process.user slot).2 = [⟨slot, true⟩] := by
        unfold visitSlot
        rw [if_neg (fun waits => by rw [refused] at waits; cases waits.1), if_pos ⟨refused, mine⟩]
      show state.registry.pending.flatMap (fun slot => (visitSlot process.user slot).2) = _
      conv_lhs => rw [split]
      rw [List.flatMap_append, List.flatMap_cons, entered]
      rfl

/-- The steps that keep the rejections for senders who have a session are no others. -/
theorem leavesRejections_of_keepsRejections {state : HandlerSystem} {label : SystemLabel}
    (keeps : state.KeepsRejections label) : state.LeavesRejections label := by
  intro pid acts process alive phase inside slot member refused mine sender
  obtain rfl := SystemLabel.mem_actor.mp acts
  obtain ⟨index, found⟩ := List.mem_iff_getElem?.mp member
  have step := next_hangUp alive phase inside
  have busy : slot.status ≠ .free := by
    rw [refused]
    nofun
  have cleaned : (state.after pid ⟨state.registry.cleanupUserRequests process.user,
      some { process with phase := .leaving }, none⟩).registry.pending[index]? =
        some slot.cleaned := by
    show (state.registry.pending.map (cleanupSlot process.user))[index]? = _
    rw [List.getElem?_map, found, Option.map_some, cleanupSlot, if_pos ⟨busy, mine⟩]
  rcases keeps _ step index slot found refused sender with kept | ⟨_, _, scans, -⟩
  · rw [cleaned] at kept
    exact busy (Option.some.inj kept ▸ slot.status_cleaned)
  · cases scans

end HandlerSystem

/-- No slot holds a rejection at first. -/
theorem HandlerSystem.rejectedUnnumbered_start : RejectedUnnumbered start := by
  intro index slot found refused
  obtain rfl := List.eq_of_mem_replicate (List.mem_of_getElem? found)
  cases refused

/-- No session leaves while a slot holds a rejection of its user. -/
def HandlerSystem.HoldsNone (state : HandlerSystem) (label : SystemLabel) : Prop :=
  ∀ pid ∈ label.actor .hangUp, ∀ process ∈ state.handlers pid, ∀ slot ∈ state.registry.pending,
    slot.status = .rejected → slot.receiverText ≠ process.user

/-- Whether a step is of that kind can be computed. -/
instance (state : HandlerSystem) : DecidablePred state.HoldsNone := fun label =>
  @Option.decidableForallMem _ _ (fun _ =>
    inferInstanceAs (Decidable (∀ process ∈ _, ∀ slot ∈ _, _ → _))) (label.actor .hangUp)

/-- The sender of the request is shown the rejection, and the receiver leaves after that. -/
def senderTold : List SystemLabel :=
  logsIn 7 (str "bob") ++ logsIn 9 (str "alice") ++ requestsNotes 9 (str "bob") ++ firstRejects ++
    [.deliver 9, .act 9 .test, .act 9 .scan] ++ hangsUp 7

/-- The receiver has rejected the request, and is about to leave. -/
def senderNotTold : List SystemLabel :=
  logsIn 7 (str "bob") ++ logsIn 9 (str "alice") ++ requestsNotes 9 (str "bob") ++ firstRejects ++
    [.act 7 .test]

/-- The phase lies between two critical sections of one handler. -/
def HandlerPhase.betweenSections : HandlerPhase → Bool
  | polling _ _ | creating _ _ _ | answering _ | leaving => true
  | testing | checking | clearing | reading | signalling _ _ => false

/-- The user to whom a request is about to be made. -/
def HandlerPhase.destUser : HandlerPhase → Option (List UInt8)
  | creating _ destUser _ => some destUser
  | _ => none

/-- A rejection: the process and the number. -/
def SystemLabel.rejecter : SystemLabel → Option (UInt32 × UInt32)
  | act pid (.reject targetId) => some (pid, targetId)
  | _ => none

/-- A user name as a slot holds it. -/
def storedName (name : List UInt8) : List UInt8 := cString (name.take (maxUsernameLen - 1))

namespace TransferRequest

/-- The receiver of a slot taken for a request. -/
theorem receiverText_taken (slot : TransferRequest) (id : UInt32)
    (username destUser filename : List UInt8) :
    ((slot.requested id username destUser).named filename).receiverText = storedName destUser :=
  CharArray.cString_snprintf_take _ _ (by decide) _

/-- A terminated receiver is read from its field. -/
theorem length_receiverText {slot : TransferRequest} (ended : (0 : UInt8) ∈ slot.receiver.bytes) :
    slot.receiverText.length < maxUsernameLen := by
  have size := slot.receiver.length_bytes
  rw [receiverText_eq ended]
  rcases Nat.lt_or_eq_of_le (length_cString_le slot.receiver.bytes) with short | full
  · exact Nat.lt_of_lt_of_eq short size
  · exact absurd ended (length_cString_eq.mp full)

/-- The receiver is read in front of the stage. -/
theorem receiverText_notified {slot : TransferRequest}
    (ended : (0 : UInt8) ∈ slot.receiver.bytes) :
    ({ slot with status := .notified } : TransferRequest).receiverText = slot.receiverText := by
  have read : ∀ rest, cString (slot.receiver.bytes ++ rest) = cString slot.receiver.bytes :=
    fun rest => cString_append_of_mem ended rest
  exact (read _).trans (read _).symm

/-- The sender is read in front of the stage and behind the number of the request. -/
theorem senderText_rejected {slot : TransferRequest} (ended : (0 : UInt8) ∈ slot.receiver.bytes) :
    ({ slot with status := .rejected, id := 0 } : TransferRequest).senderText =
      slot.senderText := by
  have before : (0 : UInt8) ∈ slot.sender.bytes ++ slot.receiver.bytes :=
    List.mem_append_right _ ended
  have read : ∀ rest, cString (slot.sender.bytes ++ (slot.receiver.bytes ++ rest)) =
      cString (slot.sender.bytes ++ slot.receiver.bytes) := by
    intro rest
    rw [← List.append_assoc, cString_append_of_mem before]
  exact (read _).trans (read _).symm

end TransferRequest

namespace HandlerSystem

/-- No process is between two of its critical sections. -/
def Quiet (state : HandlerSystem) : Prop :=
  ∀ pid process, state.handlers pid = some process → process.phase.betweenSections = false

/-- A row in use carries the name. -/
def Online (state : HandlerSystem) (name : List UInt8) : Prop :=
  ∃ entry ∈ state.registry.onlineUsers, SharedRegistry.isOnline name entry = true

/-- Every slot with a request that waits for an answer names a receiver who is online, and every
slot with a rejection a sender who is online, when no process is between two critical sections. -/
def NoneStranded (state : HandlerSystem) : Prop :=
  state.Quiet → ∀ slot ∈ state.registry.pending,
    (slot.Live → state.Online slot.receiverText) ∧
      (slot.status = .rejected → state.Online slot.senderText)

/-- A request is made to a user who stays online. -/
def OffersToStaying (state : HandlerSystem) (label : SystemLabel) : Prop :=
  ∀ pid ∈ label.actor .create, ∀ process ∈ state.handlers pid, ∀ name ∈ process.phase.destUser,
    (∃ slot ∈ state.registry.pending, slot.status = .free) → state.Stays (storedName name)

/-- A request is rejected while its sender stays online. -/
def RejectsStaying (state : HandlerSystem) (label : SystemLabel) : Prop :=
  ∀ both ∈ label.rejecter, ∀ process ∈ state.handlers both.1,
    ∀ slot ∈ state.registry.pending, slot.Live → slot.id = both.2 →
      slot.receiverText = process.user → state.Stays slot.senderText

/-- No process leaves with the last row of a user whose request another user has rejected. -/
def LeavesNoSender (state : HandlerSystem) (label : SystemLabel) : Prop :=
  ∀ pid ∈ label.actor .hangUp, ∀ process ∈ state.handlers pid, process.phase = .reading →
    process.loggedIn = true → ∀ slot ∈ state.registry.pending, slot.status = .rejected →
      slot.receiverText ≠ process.user → state.StaysWithout pid slot.senderText

/-- The step leaves no slot behind. -/
structure StrandsNothing (state : HandlerSystem) (label : SystemLabel) : Prop where
  /-- File names fit. -/
  short : state.ShortNames label
  /-- Receivers stay. -/
  offers : state.OffersToStaying label
  /-- Senders stay. -/
  rejects : state.RejectsStaying label
  /-- Senders are not the last to leave. -/
  leaves : state.LeavesNoSender label

/-- Whether a receiver stays can be computed. -/
instance (state : HandlerSystem) : DecidablePred state.OffersToStaying := fun label =>
  @Option.decidableForallMem _ _ (fun _ =>
    inferInstanceAs (Decidable (∀ process ∈ _, ∀ name ∈ _, _ → _))) (label.actor .create)

/-- Whether a sender stays can be computed. -/
instance (state : HandlerSystem) : DecidablePred state.RejectsStaying := fun label =>
  @Option.decidableForallMem _ _ (fun _ =>
    inferInstanceAs (Decidable (∀ process ∈ _, ∀ slot ∈ _, _ → _ → _ → _))) label.rejecter

/-- Whether a sender is the last to leave can be computed. -/
instance (state : HandlerSystem) : DecidablePred state.LeavesNoSender := fun label =>
  @Option.decidableForallMem _ _ (fun _ =>
    inferInstanceAs (Decidable (∀ process ∈ _, _ → _ → ∀ slot ∈ _, _ → _ → _)))
    (label.actor .hangUp)

/-- Whether a step leaves no slot behind can be computed. -/
instance (state : HandlerSystem) : DecidablePred state.StrandsNothing := fun label =>
  decidable_of_iff (state.ShortNames label ∧ state.OffersToStaying label ∧
      state.RejectsStaying label ∧ state.LeavesNoSender label)
    ⟨fun all => ⟨all.1, all.2.1, all.2.2.1, all.2.2.2⟩,
      fun all => ⟨all.short, all.offers, all.rejects, all.leaves⟩⟩

/-- The slot depends on nobody, or on somebody who stays online. -/
def Serves (state : HandlerSystem) (slot : TransferRequest) : Prop :=
  match slot.status with
  | .free => True
  | .pending | .notified => (0 : UInt8) ∈ slot.receiver.bytes ∧ state.Stays slot.receiverText
  | .rejected => (0 : UInt8) ∈ slot.receiver.bytes ∧ state.Stays slot.senderText
  | .other _ => False

/-- A row in use stays, unless its own process gives it up. -/
theorem mem_onlineUsers_next {process : HandlerProcess} {pid : UInt32} {registry : SharedRegistry}
    {step : HandlerStep} {effect : HandlerEffect}
    (stepped : process.next pid registry step = some effect) {entry : UserEntry}
    (member : entry ∈ registry.onlineUsers) (busy : entry.inUse = true)
    (kept : step = .remove → entry.handlerPid ≠ pid) : entry ∈ effect.registry.onlineUsers := by
  obtain ⟨index, found⟩ := List.mem_iff_getElem?.mp member
  cases HandlerProcess.moves stepped with
  | login username res out =>
    have rows := registry.onlineUsers_insertOnlineUser username pid
    rw [rows]
    exact List.mem_of_getElem? (getElem?_updateFirst found (by rw [busy]; rfl))
  | remove leaves =>
    exact List.mem_of_getElem? (getElem?_updateFirst found (decide_eq_false (kept rfl)))
  | close out => exact member
  | stay goes same leaves inside =>
    rw [same]
    exact member

/-- An online row is in use. -/
theorem inUse_of_isOnline {name : List UInt8} {entry : UserEntry}
    (online : SharedRegistry.isOnline name entry = true) : entry.inUse = true := by
  have both : entry.isActive ≠ 0 ∧ entry.usernameText = name := of_decide_eq_true online
  exact decide_eq_true both.1

/-- A user who stays without a process stays when that process makes a step. -/
theorem StaysWithout.act {state : HandlerSystem} {pid : UInt32} {process : HandlerProcess}
    {name : List UInt8} {step : HandlerStep} {effect : HandlerEffect}
    (stays : state.StaysWithout pid name)
    (stepped : process.next pid state.registry step = some effect) :
    (state.after pid effect).Stays name := by
  obtain ⟨entry, member, online, apart, other, found, goes⟩ := stays
  have kept := mem_onlineUsers_next stepped member (inUse_of_isOnline online) fun _ => apart
  refine ⟨entry, kept, online, { other with
    signalInFlight := other.signalInFlight || decide (effect.signals = some entry.handlerPid) },
    ?_, goes⟩
  rw [Option.mem_def, handlers_after, Function.update_of_ne apart, Option.mem_def.mp found]
  rfl

/-- A user who stays, stays when a process makes a step that is not out of its loop. -/
theorem Stays.act {state : HandlerSystem} {pid : UInt32} {process : HandlerProcess}
    {name : List UInt8} {step : HandlerStep} {effect : HandlerEffect} (stays : state.Stays name)
    (alive : state.handlers pid = some process)
    (stepped : process.next pid state.registry step = some effect) (goes : step ≠ .hangUp) :
    (state.after pid effect).Stays name := by
  obtain ⟨entry, member, online, other, found, remains⟩ := stays
  by_cases same : entry.handlerPid = pid
  · rw [same, Option.mem_def, alive] at found
    obtain rfl := Option.some.inj found
    have busy := inUse_of_isOnline online
    -- the process is alive after the step, and not on its way out
    have now : ∃ now, effect.process = some now ∧ now.phase ≠ .leaving ∧ step ≠ .remove := by
      cases HandlerProcess.moves stepped with
      | login username res out => exact ⟨_, rfl, nofun, nofun⟩
      | remove leaves => exact absurd leaves remains
      | close out => exact absurd rfl goes
      | stay removes same leaves inside =>
        exact ⟨_, rfl, fun leaving => goes (leaves leaving), removes⟩
    obtain ⟨now, alive, staying, removes⟩ := now
    have kept := mem_onlineUsers_next stepped member busy fun removed => absurd removed removes
    refine ⟨entry, kept, online, { now with
      signalInFlight := now.signalInFlight || decide (effect.signals = some entry.handlerPid) },
      ?_, staying⟩
    rw [Option.mem_def, handlers_after, same, Function.update_self, alive]
    rfl
  · exact StaysWithout.act ⟨entry, member, online, same, other, found, remains⟩ stepped

/-- A user who stays, stays when any step is taken that is not out of a loop. -/
theorem Stays.next {state after : HandlerSystem} {label : SystemLabel} {name : List UInt8}
    (stays : state.Stays name) (step : state.next label = some after)
    (goes : ∀ pid, label ≠ .act pid .hangUp) : after.Stays name := by
  cases label with
  | connect pid =>
    obtain ⟨fresh, same⟩ := Option.ite_none_left_eq_some.mp step
    cases same
    obtain ⟨entry, member, online, other, found, remains⟩ := stays
    have apart : entry.handlerPid ≠ pid := by
      rintro rfl
      rw [Option.mem_def.mp found] at fresh
      exact fresh (.inr rfl)
    refine ⟨entry, member, online, other, ?_, remains⟩
    show Function.update state.handlers pid _ entry.handlerPid = some other
    rw [Function.update_of_ne apart]
    exact found
  | deliver pid =>
    obtain ⟨process, alive, delivered⟩ := Option.bind_eq_some_iff.mp step
    obtain ⟨-, same⟩ := Option.ite_none_right_eq_some.mp delivered
    cases same
    obtain ⟨entry, member, online, other, found, remains⟩ := stays
    by_cases same : entry.handlerPid = pid
    · rw [same, Option.mem_def, alive] at found
      obtain rfl := Option.some.inj found
      refine ⟨entry, member, online, { process with
        transferSignalReceived := true
        signalInFlight := false }, ?_, remains⟩
      show Function.update state.handlers pid _ entry.handlerPid = _
      rw [same, Function.update_self]
    · refine ⟨entry, member, online, other, ?_, remains⟩
      show Function.update state.handlers pid _ entry.handlerPid = some other
      rw [Function.update_of_ne same]
      exact found
  | act pid action =>
    obtain ⟨process, alive, taken⟩ := Option.bind_eq_some_iff.mp step
    obtain ⟨effect, stepped, rfl⟩ := Option.map_eq_some_iff.mp taken
    exact stays.act alive stepped fun same => goes pid (same ▸ rfl)

/-- A row in use with a short name carries the name of the session that has filled it. -/
theorem Linked.usernameText {state : HandlerSystem} (linked : state.Linked) {pid : UInt32}
    {process : HandlerProcess} (alive : state.handlers pid = some process) {entry : UserEntry}
    (member : entry ∈ state.registry.onlineUsers) (busy : entry.inUse = true)
    (mine : entry.handlerPid = pid) (short : entry.usernameText.length < maxUsernameLen) :
    entry.usernameText = process.user := by
  obtain ⟨index, found⟩ := List.mem_iff_getElem?.mp member
  have placed := linked.owned.placed index entry found busy
  rw [mine] at placed
  unfold place at placed
  rw [alive] at placed
  have filled := (linked.fits pid process alive).entry index placed
  obtain rfl := Option.some.inj (found.symm.trans filled)
  by_cases ended : (0 : UInt8) ∈ process.session.username.bytes
  · exact (cString_append_of_mem ended _).trans (cString_append_of_mem ended _).symm
  · have size := process.session.username.length_bytes
    have whole : UserEntry.usernameText ⟨process.session.username, pid, 1⟩ = _ :=
      cString_append ended _
    rw [whole, List.length_append, size] at short
    omega

/-- The slots are served before the first connection. -/
theorem serves_start : ∀ slot ∈ start.registry.pending, start.Serves slot := by
  intro slot member
  obtain rfl := List.eq_of_mem_replicate member
  trivial

/-- A slot that nothing happens to stays served with the users it depends on. -/
theorem Serves.keep {state after : HandlerSystem} {slot : TransferRequest}
    (serves : state.Serves slot)
    (receiver : slot.Live → (0 : UInt8) ∈ slot.receiver.bytes →
      state.Stays slot.receiverText → after.Stays slot.receiverText)
    (sender : slot.status = .rejected → state.Stays slot.senderText →
      after.Stays slot.senderText) : after.Serves slot := by
  unfold Serves at serves ⊢
  cases status : slot.status with
  | free => trivial
  | pending =>
    rw [status] at serves
    exact ⟨serves.1, receiver (.inl status) serves.1 serves.2⟩
  | notified =>
    rw [status] at serves
    exact ⟨serves.1, receiver (.inr status) serves.1 serves.2⟩
  | rejected =>
    rw [status] at serves
    exact ⟨serves.1, sender status serves.2⟩
  | other word =>
    rw [status] at serves
    exact serves.elim

/-- A user who stays, stays without a process that has not logged in. -/
theorem Linked.staysWithout_of_out {state : HandlerSystem} (linked : state.Linked) {pid : UInt32}
    {process : HandlerProcess} (alive : state.handlers pid = some process)
    (out : process.loggedIn = false) {name : List UInt8} (stays : state.Stays name) :
    state.StaysWithout pid name := by
  obtain ⟨entry, member, online, other, found, remains⟩ := stays
  refine ⟨entry, member, online, fun same => ?_, other, found, remains⟩
  obtain ⟨index, here⟩ := List.mem_iff_getElem?.mp member
  have placed := linked.owned.placed index entry here (inUse_of_isOnline online)
  rw [same, linked.place_eq_none alive out] at placed
  cases placed

/-- A user who stays, stays without the processes of other users. -/
theorem Linked.staysWithout_of_ne {state : HandlerSystem} (linked : state.Linked) {pid : UInt32}
    {process : HandlerProcess} (alive : state.handlers pid = some process) {name : List UInt8}
    (short : name.length < maxUsernameLen) (other : name ≠ process.user)
    (stays : state.Stays name) : state.StaysWithout pid name := by
  obtain ⟨entry, member, online, holder, found, remains⟩ := stays
  refine ⟨entry, member, online, fun same => other ?_, holder, found, remains⟩
  have both : entry.isActive ≠ 0 ∧ entry.usernameText = name := of_decide_eq_true online
  rw [← both.2] at short ⊢
  exact linked.usernameText alive member (inUse_of_isOnline online) same short

/-- A process that hangs up frees the slots of its user and leaves the others served. -/
theorem serves_hangUp {state after : HandlerSystem} {pid : UInt32} (linked : state.Linked)
    (serves : ∀ slot ∈ state.registry.pending, state.Serves slot)
    (leaves : state.LeavesNoSender (.act pid .hangUp))
    (step : state.next (.act pid .hangUp) = some after) :
    ∀ slot ∈ after.registry.pending, after.Serves slot := by
  obtain ⟨process, alive, taken⟩ := Option.bind_eq_some_iff.mp step
  obtain ⟨effect, stepped, rfl⟩ := Option.map_eq_some_iff.mp taken
  obtain ⟨phase, both⟩ := HandlerProcess.hangUp_cases stepped
  rcases both with ⟨inside, rfl⟩ | ⟨out, rfl⟩
  · intro slot member
    obtain ⟨old, before, rfl⟩ := List.mem_map.mp member
    unfold cleanupSlot
    split
    · unfold Serves
      rw [old.status_cleaned]
      trivial
    · rename_i kept
      refine (serves old before).keep (fun live ended stays => ?_) fun refused stays => ?_
      · have other : old.receiverText ≠ process.user := by
          intro mine
          refine kept ⟨fun free => ?_, mine⟩
          rcases live with waits | shown
          · rw [free] at waits
            cases waits
          · rw [free] at shown
            cases shown
        have short := TransferRequest.length_receiverText ended
        exact (linked.staysWithout_of_ne alive short other stays).act stepped
      · have other : old.receiverText ≠ process.user := by
          intro mine
          refine kept ⟨fun free => ?_, mine⟩
          rw [free] at refused
          cases refused
        exact (leaves pid (SystemLabel.mem_actor.mpr rfl) process alive phase inside old before
          refused other).act stepped
  · intro slot member
    exact (serves slot member).keep
      (fun _ _ stays => (linked.staysWithout_of_out alive out stays).act stepped)
      fun _ stays => (linked.staysWithout_of_out alive out stays).act stepped

/-- Every step that leaves no slot behind keeps all slots served. -/
theorem serves_next {state after : HandlerSystem} {label : SystemLabel} (linked : state.Linked)
    (serves : ∀ slot ∈ state.registry.pending, state.Serves slot)
    (strands : state.StrandsNothing label) (step : state.next label = some after) :
    ∀ slot ∈ after.registry.pending, after.Serves slot := by
  by_cases hangs : ∃ pid, label = .act pid .hangUp
  · obtain ⟨pid, rfl⟩ := hangs
    exact serves_hangUp linked serves strands.leaves step
  · have goes : ∀ pid, label ≠ .act pid .hangUp := fun pid same => hangs ⟨pid, same⟩
    have stays : ∀ name, state.Stays name → after.Stays name :=
      fun name stays => stays.next step goes
    intro now member
    obtain ⟨index, found⟩ := List.mem_iff_getElem?.mp member
    obtain ⟨slot, before, moved⟩ := slot_comes step strands.short found
    have was := serves slot (List.mem_of_getElem? before)
    have kept : after.Serves slot :=
      was.keep (fun _ _ => stays _) fun _ => stays _
    rcases moved with rfl | ⟨pid, action, process, rfl, alive, moved⟩
    · exact kept
    · cases moved with
      | same => exact kept
      | taken id phase free =>
        refine ⟨CharArray.zero_mem_snprintf _ _ (by decide), ?_⟩
        rw [TransferRequest.receiverText_taken]
        apply stays
        exact strands.offers pid (SystemLabel.mem_actor.mpr rfl) process alive _
          (by rw [phase]; rfl) ⟨slot, List.mem_of_getElem? before, free⟩
      | shown phase waits mine =>
        unfold Serves at kept
        rw [waits] at kept
        refine ⟨kept.1, ?_⟩
        rw [TransferRequest.receiverText_notified kept.1]
        exact kept.2
      | told phase refused mine => trivial
      | accepted shown mine inside => trivial
      | @rejected _ targetId number busy mine inside =>
        have ended : (0 : UInt8) ∈ slot.receiver.bytes ∧ after.Stays slot.senderText := by
          unfold Serves at kept was
          cases status : slot.status with
          | free => exact absurd status busy
          | pending =>
            rw [status] at was
            exact ⟨was.1, stays _ (strands.rejects (pid, targetId) rfl process alive slot
              (List.mem_of_getElem? before) (.inl status) number mine)⟩
          | notified =>
            rw [status] at was
            exact ⟨was.1, stays _ (strands.rejects (pid, targetId) rfl process alive slot
              (List.mem_of_getElem? before) (.inr status) number mine)⟩
          | rejected =>
            rw [status] at kept
            exact kept
          | other word =>
            rw [status] at was
            exact was.elim
        refine ⟨ended.1, ?_⟩
        rw [TransferRequest.senderText_rejected ended.1]
        exact ended.2
      | cleaned busy mine phase inside => exact absurd rfl (goes pid)

/-- A user who stays is online. -/
theorem Stays.online {state : HandlerSystem} {name : List UInt8} (stays : state.Stays name) :
    state.Online name := by
  obtain ⟨entry, member, online, -⟩ := stays
  exact ⟨entry, member, online⟩

/-- Where every slot is served, none is stranded. -/
theorem noneStranded_of_serves {state : HandlerSystem}
    (serves : ∀ slot ∈ state.registry.pending, state.Serves slot) : state.NoneStranded := by
  intro _ slot member
  have served := serves slot member
  unfold Serves at served
  refine ⟨fun live => ?_, fun refused => ?_⟩
  · rcases live with waits | shown
    · rw [waits] at served
      exact served.2.online
    · rw [shown] at served
      exact served.2.online
  · rw [refused] at served
    exact served.2.online

end HandlerSystem

/-- In every run whose steps leave no slot behind, every slot in use can be freed by someone who is
online, whenever no process is between two critical sections. -/
theorem noneStranded_of_strandsNothing (schedule : List SystemLabel) (state : HandlerSystem)
    (meets : StepsMeet HandlerSystem.next HandlerSystem.StrandsNothing .start schedule)
    (run : runFrom HandlerSystem.next .start schedule = some state) : state.NoneStranded := by
  have kept := run_invariant_of_meets
    (fun state => state.Linked ∧ ∀ slot ∈ state.registry.pending, state.Serves slot)
    (fun state label after kept strands step =>
      ⟨kept.1.next step, HandlerSystem.serves_next kept.1 kept.2 strands step⟩)
    ⟨HandlerSystem.linked_start, HandlerSystem.serves_start⟩ meets run
  exact HandlerSystem.noneStranded_of_serves kept.2

/-- The sender of a rejected request that is shown the rejection, and leaves. -/
def senderLeaves : List SystemLabel := senderTold ++ [.act 7 .remove, .act 9 .clear, .act 9 .hangUp]

/-- A sender who has been told leaves no slot behind. -/
theorem noneStranded_of_strandsNothing_told :
    ∃ state, runFrom HandlerSystem.next .start senderLeaves = some state ∧ state.NoneStranded :=
  ⟨_, rfl, noneStranded_of_strandsNothing senderLeaves _ (by decide +kernel) rfl⟩

/-- A process that is alive after a step was alive, or has been forked. -/
theorem HandlerSystem.alive_next {state after : HandlerSystem} {label : SystemLabel}
    (step : state.next label = some after) {pid : UInt32}
    (alive : (after.handlers pid).isSome = true) :
    (state.handlers pid).isSome = true ∨ label = .connect pid := by
  cases label with
  | connect other =>
    obtain ⟨-, same⟩ := Option.ite_none_left_eq_some.mp step
    cases same
    by_cases mine : pid = other
    · exact .inr (mine ▸ rfl)
    · left
      change (Function.update state.handlers other _ pid).isSome = true at alive
      rwa [Function.update_of_ne mine] at alive
  | deliver other =>
    obtain ⟨process, found, delivered⟩ := Option.bind_eq_some_iff.mp step
    obtain ⟨-, same⟩ := Option.ite_none_right_eq_some.mp delivered
    cases same
    left
    change (Function.update state.handlers other _ pid).isSome = true at alive
    by_cases mine : pid = other
    · rw [mine, found]
      rfl
    · rwa [Function.update_of_ne mine] at alive
  | act other action =>
    obtain ⟨process, found, taken⟩ := Option.bind_eq_some_iff.mp step
    obtain ⟨effect, stepped, rfl⟩ := Option.map_eq_some_iff.mp taken
    left
    rw [handlers_after, Option.isSome_map] at alive
    by_cases mine : pid = other
    · rw [mine, found]
      rfl
    · rwa [Function.update_of_ne mine] at alive

/-- A process that is alive has been forked. -/
theorem HandlerSystem.connect_mem {schedule : List SystemLabel} {first state : HandlerSystem}
    (run : runFrom next first schedule = some state) {pid : UInt32}
    (alive : (state.handlers pid).isSome = true) :
    (first.handlers pid).isSome = true ∨ .connect pid ∈ schedule := by
  induction schedule generalizing first with
  | nil =>
    obtain rfl := Option.some.inj run
    exact .inl alive
  | cons label rest ih =>
    obtain ⟨middle, step, later⟩ := Option.bind_eq_some_iff.mp run
    rcases ih later with before | forked
    · rcases alive_next step before with earlier | rfl
      · exact .inl earlier
      · exact .inr (List.mem_cons_self ..)
    · exact .inr (List.mem_cons_of_mem label forked)

/-- The sender of a rejected request leaves before it is told. -/
def senderGone : List SystemLabel :=
  senderNotTold ++ hangsUp 9 ++ [.act 9 .remove]

/-- The slot of a rejected request whose sender has left stays. -/
theorem not_noneStranded : ¬ Always HandlerSystem.next .start HandlerSystem.NoneStranded := by
  intro always
  obtain ⟨state, run, ended, idle, slot, member, refused, gone⟩ : ∃ state : HandlerSystem,
      runFrom HandlerSystem.next .start senderGone = some state ∧ state.handlers 9 = none ∧
        (∀ process ∈ state.handlers 7, process.phase = .reading) ∧
          ∃ slot ∈ state.registry.pending, slot.status = .rejected ∧
            ¬ ∃ entry ∈ state.registry.onlineUsers,
              SharedRegistry.isOnline slot.senderText entry = true := by
    refine ⟨_, rfl, rfl, ?_, ?_⟩
    · decide +kernel
    · decide +kernel
  have quiet : state.Quiet := by
    intro pid process alive
    have forked : .connect pid ∈ senderGone :=
      (HandlerSystem.connect_mem run (by rw [alive]; rfl)).resolve_left nofun
    have either : pid = 7 ∨ pid = 9 := by
      simpa [senderGone, senderNotTold, logsIn, requestsNotes, firstRejects, hangsUp] using forked
    rcases either with rfl | rfl
    · rw [idle process alive]
      rfl
    · rw [ended] at alive
      cases alive
  exact gone ((always senderGone state run quiet slot member).2 refused)

end FileServer
