import FileServer.Verif.TransferSlots

/-!
# Wake-ups of receivers

A request is signalled to the process in the first active row of its receiver. The signal passes
from the requester, which has filled the slot and has not yet sent it, to the receiver, where it
is first in flight and then the flag that the loop tests. A handler that has scanned the slots
clears the flag whatever has been delivered since, so a signal that arrives in between is lost.
-/
namespace FileServer

open FileServer.Lib

/-- The process is going to scan the slots. -/
def HandlerProcess.Woken (process : HandlerProcess) : Prop :=
  process.signalInFlight = true ∨
    (process.transferSignalReceived = true ∧ process.phase ≠ .clearing)

/-- A process with a login that is going to scan the slots still is after every step but the scan
and the last one. -/
theorem HandlerProcess.woken_next {process : HandlerProcess} (woken : process.Woken)
    (inside : process.loggedIn = true) {pid : UInt32} {registry : SharedRegistry}
    {step : HandlerStep} {effect : HandlerEffect}
    (stepped : process.next pid registry step = some effect) (goes : step ≠ .scan)
    (stays : step ≠ .remove) : ∃ now, effect.process = some now ∧ now.Woken := by
  obtain ⟨phase, session, flag, inFlight, row⟩ := process
  -- a step that keeps the flag and goes on anywhere but to its clearing
  have kept : ∀ (phase' : HandlerPhase), phase' ≠ .clearing →
      HandlerProcess.Woken ⟨phase', session, flag, inFlight, row⟩ :=
    fun phase' other => woken.imp_right fun both => ⟨both.1, other⟩
  unfold next at stepped
  cases phase <;> cases step <;>
    simp only [go, goLoggedIn, Option.some.injEq, reduceCtorEq,
      Option.ite_none_right_eq_some, Option.ite_none_left_eq_some] at stepped
  case checking.scan => exact absurd rfl goes
  case leaving.remove => exact absurd rfl stays
  case testing.test =>
    subst stepped
    cases flag with
    | true => exact ⟨_, rfl, by rw [if_pos rfl, if_pos inside]; exact kept .checking (by simp)⟩
    | false => exact ⟨_, rfl, kept .reading (by simp)⟩
  case clearing.clear =>
    subst stepped
    exact ⟨_, rfl, .inl (woken.resolve_right fun both => both.2 rfl)⟩
  case reading.other | signalling.kill | answering.answer =>
    subst stepped
    exact ⟨_, rfl, kept _ (by simp)⟩
  case reading.restart | reading.accept | reading.request =>
    obtain ⟨-, rfl⟩ := stepped
    exact ⟨_, rfl, kept _ (by simp)⟩
  case reading.login username res =>
    exact absurd (.inl inside) stepped.1
  case polling.poll =>
    subst stepped
    exact ⟨_, rfl, kept _ (by split <;> simp)⟩
  case creating.create =>
    subst stepped
    exact ⟨_, rfl, kept _ (by split <;> simp)⟩
  case reading.reject =>
    obtain ⟨-, rfl⟩ := stepped
    exact ⟨_, rfl, kept _ (by split <;> simp)⟩
  case reading.hangUp =>
    rw [if_pos inside] at stepped
    cases stepped
    exact ⟨_, rfl, kept _ (by simp)⟩

/-- A process that has filled a slot sends its signal in the next step. -/
theorem HandlerProcess.signalling_next {process : HandlerProcess} {slotIdx : Nat}
    {targetPid pid : UInt32} (phase : process.phase = .signalling slotIdx targetPid)
    {registry : SharedRegistry} {step : HandlerStep} {effect : HandlerEffect}
    (stepped : process.next pid registry step = some effect) :
    effect = ⟨registry, some { process with phase := .testing }, some targetPid⟩ := by
  obtain ⟨_, session, flag, inFlight, row⟩ := process
  cases phase
  unfold next at stepped
  cases step <;> simp only [Option.some.injEq, reduceCtorEq] at stepped
  exact stepped.symm

namespace HandlerSystem

/-- The signal for a slot is still to be sent to a process. -/
def Signalling (state : HandlerSystem) (slotIdx : Nat) (pid : UInt32) : Prop :=
  ∃ requester process, state.handlers requester = some process ∧
    process.phase = .signalling slotIdx pid

/-- A process that is alive is going to scan the slots. -/
def Wakes (state : HandlerSystem) (pid : UInt32) : Prop :=
  ∃ process, state.handlers pid = some process ∧ process.Woken

/-- The steps that end the way of a signal: the scan, the last step of the process, and a delivery
behind the scan. -/
def Spends (state : HandlerSystem) (pid : UInt32) (label : SystemLabel) : Prop :=
  label = .act pid .scan ∨ label = .act pid .remove ∨
    (label = .deliver pid ∧ ∃ process, state.handlers pid = some process ∧
      process.phase = .clearing)

/-- On every other step the signal for a slot stays on its way. -/
theorem signal_next {state after : HandlerSystem} {label : SystemLabel}
    (step : state.next label = some after) {slotIdx : Nat} {pid : UInt32}
    {process : HandlerProcess} (alive : state.handlers pid = some process)
    (inside : process.loggedIn = true) (kept : ¬ state.Spends pid label)
    (onWay : state.Signalling slotIdx pid ∨ state.Wakes pid) :
    after.Signalling slotIdx pid ∨ after.Wakes pid := by
  cases label with
  | connect other =>
    obtain ⟨fresh, same⟩ := Option.ite_none_left_eq_some.mp step
    cases same
    have free : state.handlers other = none := by simpa using (not_or.mp fresh).2
    have old : ∀ holder process, state.handlers holder = some process →
        Function.update state.handlers other (some HandlerProcess.start) holder = some process := by
      intro holder process found
      have apart : holder ≠ other := by
        rintro rfl
        rw [free] at found
        cases found
      rw [Function.update_of_ne apart, found]
    refine onWay.imp ?_ ?_
    · rintro ⟨requester, process, found, phase⟩
      exact ⟨requester, process, old requester process found, phase⟩
    · rintro ⟨process, found, woken⟩
      exact ⟨process, old pid process found, woken⟩
  | deliver other =>
    obtain ⟨target, there, delivered⟩ := Option.bind_eq_some_iff.mp step
    obtain ⟨-, same⟩ := Option.ite_none_right_eq_some.mp delivered
    cases same
    refine onWay.imp ?_ ?_
    · rintro ⟨requester, process, found, phase⟩
      by_cases mine : requester = other
      · subst mine
        obtain rfl := Option.some.inj (found.symm.trans there)
        exact ⟨requester, _, Function.update_self .., phase⟩
      · exact ⟨requester, process, (Function.update_of_ne mine ..).trans found, phase⟩
    · rintro ⟨process, found, woken⟩
      by_cases mine : pid = other
      · subst mine
        obtain rfl := Option.some.inj (found.symm.trans there)
        exact ⟨_, Function.update_self .., .inr ⟨rfl, fun clearing =>
          kept (.inr (.inr ⟨rfl, process, found, clearing⟩))⟩⟩
      · exact ⟨process, (Function.update_of_ne mine ..).trans found, woken⟩
  | act other action =>
    obtain ⟨actor, there, taken⟩ := Option.bind_eq_some_iff.mp step
    obtain ⟨effect, stepped, rfl⟩ := Option.map_eq_some_iff.mp taken
    rcases onWay with ⟨requester, sender, found, phase⟩ | ⟨process, found, woken⟩
    · by_cases mine : requester = other
      · -- the signal is sent
        subst mine
        obtain rfl := Option.some.inj (found.symm.trans there)
        right
        rw [HandlerProcess.signalling_next phase stepped]
        obtain ⟨target, here⟩ : ∃ target, Function.update state.handlers requester
            (some { sender with phase := .testing }) pid = some target := by
          by_cases self : pid = requester
          · exact ⟨_, by rw [self]; exact Function.update_self ..⟩
          · exact ⟨process, (Function.update_of_ne self ..).trans alive⟩
        refine ⟨_, (handlers_after ..).trans (congrArg (Option.map _) here), .inl ?_⟩
        simp
      · left
        refine ⟨requester, _, (handlers_after ..).trans (congrArg (Option.map _)
          ((Function.update_of_ne mine ..).trans found)), phase⟩
    · right
      by_cases mine : pid = other
      · subst mine
        obtain rfl := Option.some.inj (found.symm.trans there)
        obtain rfl := Option.some.inj (found.symm.trans alive)
        obtain ⟨now, goes, still⟩ := HandlerProcess.woken_next woken inside stepped
          (by rintro rfl; exact kept (.inl rfl)) (by rintro rfl; exact kept (.inr (.inl rfl)))
        have here : Function.update state.handlers pid effect.process pid = some now := by
          rw [Function.update_self, goes]
        refine ⟨_, (handlers_after ..).trans (congrArg (Option.map _) here), ?_⟩
        exact still.imp_left fun inFlight => by
          show (now.signalInFlight || _) = true
          rw [inFlight, Bool.true_or]
      · refine ⟨_, (handlers_after ..).trans (congrArg (Option.map _)
          ((Function.update_of_ne mine ..).trans found)), ?_⟩
        exact woken.imp_left fun inFlight => by
          show (process.signalInFlight || _) = true
          rw [inFlight, Bool.true_or]

end HandlerSystem

/-- The process that a signal is delivered to. -/
def SystemLabel.delivered : SystemLabel → Option UInt32
  | deliver pid => some pid
  | connect _ | act _ _ => none

/-- The registry with the table of users as a step leaves it. -/
def SystemLabel.rowsAfter (registry : SharedRegistry) : SystemLabel → SharedRegistry
  | act pid (.login username _) => registry.insertOnlineUser username pid
  | act pid .remove => registry.removeOnlineUser pid
  | _ => registry

/-- The user of a request that is about to take a slot, and the process found for the user. -/
def HandlerPhase.offer : HandlerPhase → Option (List UInt8 × UInt32)
  | creating _ destUser targetPid => some (destUser, targetPid)
  | _ => none

namespace HandlerSystem

/-- A login and the last step of a process are the only steps that change the table of users. -/
theorem onlineUsers_next {state after : HandlerSystem} {label : SystemLabel}
    (step : state.next label = some after) :
    after.registry.onlineUsers = (label.rowsAfter state.registry).onlineUsers := by
  cases label with
  | connect pid =>
    obtain ⟨-, same⟩ := Option.ite_none_left_eq_some.mp step
    cases same
    rfl
  | deliver pid =>
    obtain ⟨process, -, delivered⟩ := Option.bind_eq_some_iff.mp step
    obtain ⟨-, same⟩ := Option.ite_none_right_eq_some.mp delivered
    cases same
    rfl
  | act pid action =>
    obtain ⟨process, -, taken⟩ := Option.bind_eq_some_iff.mp step
    obtain ⟨effect, stepped, rfl⟩ := Option.map_eq_some_iff.mp taken
    by_cases logs : ∃ username res, action = .login username res
    · obtain ⟨username, res, rfl⟩ := logs
      obtain ⟨phase, session, flag, inFlight, row⟩ := process
      unfold HandlerProcess.next at stepped
      cases phase <;>
        simp only [reduceCtorEq, Option.ite_none_left_eq_some,
          Option.some.injEq] at stepped
      obtain ⟨-, rfl⟩ := stepped
      rfl
    · cases HandlerProcess.moves stepped with
      | login username res out => rfl
      | remove leaves => rfl
      | close out => rfl
      | stay goes same leaves inside =>
        cases action with
        | remove => exact absurd rfl goes
        | login username res => exact absurd ⟨username, res, rfl⟩ logs
        | _ => exact same

/-- The search for a user looks at the table of users only. -/
theorem findUser_congr {left right : SharedRegistry} (same : left.onlineUsers = right.onlineUsers)
    (name : List UInt8) : left.findUser name = right.findUser name := by
  unfold SharedRegistry.findUser
  rw [same]

/-- The process found for a short name is alive and serves a session of that user. -/
theorem Linked.found {state : HandlerSystem} (linked : state.Linked) {name : List UInt8}
    (short : name.length < maxUsernameLen) {pid : UInt32}
    (found : state.registry.findUser name = some pid) :
    ∃ process, state.handlers pid = some process ∧ process.loggedIn = true ∧
      process.user = name := by
  obtain ⟨entry, first, rfl⟩ := Option.map_eq_some_iff.mp found
  have member := List.mem_of_find?_eq_some first
  have online := List.find?_some first
  obtain ⟨active, text⟩ : entry.isActive ≠ 0 ∧ entry.usernameText = name := of_decide_eq_true online
  obtain ⟨index, here⟩ := List.mem_iff_getElem?.mp member
  have placed := linked.owned.placed index entry here (inUse_of_isOnline online)
  obtain ⟨process, alive, row⟩ := Option.bind_eq_some_iff.mp placed
  refine ⟨process, alive, ?_, ?_⟩
  · by_contra out
    have none := (linked.fits entry.handlerPid process alive).unlisted (Bool.eq_false_iff.mpr out)
    rw [row] at none
    cases none
  · rw [← text] at short ⊢
    exact (linked.usernameText alive member (inUse_of_isOnline online) rfl short).symm

/-- No signal is delivered behind the scan of a process while a request waits for its user. -/
def DeliversBefore (state : HandlerSystem) (label : SystemLabel) : Prop :=
  ∀ pid ∈ label.delivered, ∀ process ∈ state.handlers pid, process.phase = .clearing →
    ∀ slot ∈ state.registry.pending, slot.status = .pending →
      state.registry.findUser slot.receiverText ≠ some pid

/-- The process found for a user is still the first one when the slot is taken, and the number of
the request is not the one that stands for a full table. -/
def OffersToFirst (state : HandlerSystem) (label : SystemLabel) : Prop :=
  ∀ pid ∈ label.actor .create, ∀ process ∈ state.handlers pid, ∀ offer ∈ process.phase.offer,
    (∃ slot ∈ state.registry.pending, slot.status = .free) →
      (state.registry.findUser (storedName offer.1) = none ∨
        state.registry.findUser (storedName offer.1) = some offer.2) ∧
      (state.registry.globalIdCounter + 1).toInt32 ≠ -1

/-- The first row of a user for whom a request waits goes to no other process. -/
def KeepsFirst (state : HandlerSystem) (label : SystemLabel) : Prop :=
  ∀ slot ∈ state.registry.pending, slot.status = .pending →
    (label.rowsAfter state.registry).findUser slot.receiverText = none ∨
      (label.rowsAfter state.registry).findUser slot.receiverText =
        state.registry.findUser slot.receiverText

/-- The step leaves every signal on its way. -/
structure KeepsSignals (state : HandlerSystem) (label : SystemLabel) : Prop where
  /-- File names fit. -/
  short : state.ShortNames label
  /-- Signals are delivered before the scan. -/
  delivers : state.DeliversBefore label
  /-- Requests are signalled to the first process of the user. -/
  offers : state.OffersToFirst label
  /-- That process stays the first one. -/
  rows : state.KeepsFirst label

/-- Whether signals are delivered in time can be computed. -/
instance (state : HandlerSystem) : DecidablePred state.DeliversBefore := fun label =>
  @Option.decidableForallMem _ _ (fun _ =>
    inferInstanceAs (Decidable (∀ process ∈ _, _ → ∀ slot ∈ _, _ → _))) label.delivered

/-- Whether requests go to the first process can be computed. -/
instance (state : HandlerSystem) : DecidablePred state.OffersToFirst := fun label =>
  @Option.decidableForallMem _ _ (fun _ =>
    inferInstanceAs (Decidable (∀ process ∈ _, ∀ offer ∈ _, _ → _))) (label.actor .create)

/-- Whether the first process stays can be computed. -/
instance (state : HandlerSystem) : DecidablePred state.KeepsFirst := fun _ =>
  inferInstanceAs (Decidable (∀ slot ∈ _, _ → _))

/-- Whether a step keeps the signals can be computed. -/
instance (state : HandlerSystem) : DecidablePred state.KeepsSignals := fun label =>
  decidable_of_iff (state.ShortNames label ∧ state.DeliversBefore label ∧
      state.OffersToFirst label ∧ state.KeepsFirst label)
    ⟨fun all => ⟨all.1, all.2.1, all.2.2.1, all.2.2.2⟩,
      fun all => ⟨all.short, all.delivers, all.offers, all.rows⟩⟩

/-- For every request that waits a signal is on its way to the first process of the receiver. -/
def SignalsOnWay (state : HandlerSystem) : Prop :=
  ∀ index slot, state.registry.pending[index]? = some slot → slot.status = .pending →
    (0 : UInt8) ∈ slot.receiver.bytes ∧ ∀ pid,
      state.registry.findUser slot.receiverText = some pid →
        state.Signalling index pid ∨ state.Wakes pid

/-- The section of `check_for_notifications` shows every request that waits for its user. -/
theorem scan_shows {process : HandlerProcess} {pid : UInt32} {registry : SharedRegistry}
    {effect : HandlerEffect} (stepped : process.next pid registry .scan = some effect)
    {index : Nat} {slot : TransferRequest} (found : registry.pending[index]? = some slot)
    (waits : slot.status = .pending) (mine : slot.receiverText = process.user) :
    effect.registry.pending[index]? = some { slot with status := .notified } := by
  obtain ⟨phase, session, flag, inFlight, row⟩ := process
  unfold HandlerProcess.next at stepped
  cases phase <;>
    simp only [HandlerProcess.go, Option.some.injEq, reduceCtorEq] at stepped
  rw [← stepped]
  show (registry.pending.map fun slot => (visitSlot session.usernameText slot).1)[index]? = _
  rw [List.getElem?_map, found, Option.map_some, visitSlot, if_pos ⟨waits, mine⟩]

/-- The last step of a process ends it. -/
theorem remove_ends {process : HandlerProcess} {pid : UInt32} {registry : SharedRegistry}
    {effect : HandlerEffect} (stepped : process.next pid registry .remove = some effect) :
    effect.process = none := by
  obtain ⟨phase, session, flag, inFlight, row⟩ := process
  unfold HandlerProcess.next at stepped
  cases phase <;> simp only [Option.some.injEq, reduceCtorEq] at stepped
  rw [← stepped]

/-- A request that waits before and after a step keeps its signal. -/
theorem SignalsOnWay.kept {state after : HandlerSystem} {label : SystemLabel}
    (onWay : state.SignalsOnWay) (linked : state.Linked) (keeps : state.KeepsSignals label)
    (step : state.next label = some after) {index : Nat} {slot : TransferRequest}
    (before : state.registry.pending[index]? = some slot)
    (found : after.registry.pending[index]? = some slot) (waits : slot.status = .pending) :
    (0 : UInt8) ∈ slot.receiver.bytes ∧ ∀ pid,
      after.registry.findUser slot.receiverText = some pid →
        after.Signalling index pid ∨ after.Wakes pid := by
  obtain ⟨ended, signals⟩ := onWay index slot before waits
  have short := TransferRequest.length_receiverText ended
  refine ⟨ended, fun pid first => ?_⟩
  have rows := findUser_congr (onlineUsers_next step) slot.receiverText
  have same : state.registry.findUser slot.receiverText = some pid := by
    rw [rows] at first
    rcases keeps.rows slot (List.mem_of_getElem? before) waits with gone | stays
    · rw [gone] at first
      cases first
    · rw [← stays, first]
  obtain ⟨process, alive, inside, user⟩ := linked.found short same
  refine signal_next step alive inside ?_ (signals pid same)
  rintro (rfl | rfl | ⟨rfl, holder, there, clearing⟩)
  · -- the scan would have shown the request
    obtain ⟨actor, there, taken⟩ := Option.bind_eq_some_iff.mp step
    obtain ⟨effect, stepped, rfl⟩ := Option.map_eq_some_iff.mp taken
    obtain rfl := Option.some.inj (there.symm.trans alive)
    have shown := scan_shows stepped before waits user.symm
    have status := congrArg TransferRequest.status (Option.some.inj (found.symm.trans shown))
    rw [waits] at status
    cases status
  · -- a process that has ended is in no row
    have linked_ := linked.next step
    obtain ⟨actor, there, taken⟩ := Option.bind_eq_some_iff.mp step
    obtain ⟨effect, stepped, rfl⟩ := Option.map_eq_some_iff.mp taken
    obtain ⟨survivor, remains, -⟩ := linked_.found short first
    rw [handlers_after, Function.update_self, remove_ends stepped] at remains
    cases remains
  · exact keeps.delivers pid rfl holder there clearing slot (List.mem_of_getElem? before) waits same

/-- A slot taken for a request is about to be signalled to the first process of the receiver. -/
theorem KeepsSignals.taken {state after : HandlerSystem} {pid : UInt32}
    (keeps : state.KeepsSignals (.act pid .create))
    (step : state.next (.act pid .create) = some after) {index : Nat}
    {slot now : TransferRequest} (before : state.registry.pending[index]? = some slot)
    (found : after.registry.pending[index]? = some now) (free : slot.status = .free)
    (waits : now.status = .pending) :
    (0 : UInt8) ∈ now.receiver.bytes ∧ ∀ target,
      after.registry.findUser now.receiverText = some target → after.Signalling index target := by
  obtain ⟨process, alive, made⟩ := Option.bind_eq_some_iff.mp step
  obtain ⟨effect, stepped, rfl⟩ := Option.map_eq_some_iff.mp made
  have offers := keeps.offers pid (SystemLabel.mem_actor.mpr rfl) process alive
  have fits := keeps.short pid (SystemLabel.mem_actor.mpr rfl) process alive
  obtain ⟨phase, session, flag, inFlight, row⟩ := process
  unfold HandlerProcess.next at stepped
  cases phase <;>
    simp only [HandlerProcess.go, Option.some.injEq, reduceCtorEq] at stepped
  case creating filename destUser targetPid =>
    obtain ⟨first, number⟩ := offers (destUser, targetPid) rfl
      ⟨slot, List.mem_of_getElem? before, free⟩
    obtain ⟨full, -⟩ | ⟨front, old, later, split, -, place, id, pending, -⟩ :=
      state.registry.createRequest_cases (fits filename rfl) destUser session.usernameText
    · exact absurd free (full slot (List.mem_of_getElem? before))
    · rw [split] at before
      subst stepped
      have stored : (front ++ (old.requested (state.registry.globalIdCounter + 1)
          session.usernameText destUser).named filename :: later)[index]? = some now := by
        rw [← pending]
        exact found
      rcases getElem?_replace front later old _ before with same | ⟨rfl, rfl, here⟩
      · obtain rfl := Option.some.inj (same.symm.trans stored)
        rw [free] at waits
        cases waits
      · obtain rfl := Option.some.inj (here.symm.trans stored)
        refine ⟨CharArray.zero_mem_snprintf _ _ (by decide), fun target online => ?_⟩
        have rows : state.registry.findUser (storedName destUser) = some target := by
          rw [TransferRequest.receiverText_taken] at online
          rw [← online]
          exact (findUser_congr (state.registry.onlineUsers_createRequest _ _ _) _).symm
        obtain rfl : target = targetPid := by
          rcases first with none | some
          · rw [none] at rows
            cases rows
          · exact Option.some.inj (rows.symm.trans some)
        have busy : ¬ (state.registry.createRequest filename destUser
            session.usernameText).1 = -1 := by
          rw [id]
          exact number
        refine ⟨pid, _, by rw [handlers_after, Function.update_self]; exact rfl, ?_⟩
        exact (if_neg busy).trans (by rw [place])

/-- Every step that leaves the signals on their way keeps a signal for every request. -/
theorem SignalsOnWay.next {state after : HandlerSystem} {label : SystemLabel}
    (onWay : state.SignalsOnWay) (linked : state.Linked) (keeps : state.KeepsSignals label)
    (step : state.next label = some after) : after.SignalsOnWay := by
  intro index now found waits
  obtain ⟨slot, before, rfl | ⟨pid, action, process, rfl, alive, moved⟩⟩ :=
    slot_comes step keeps.short found
  · exact onWay.kept linked keeps step before found waits
  · cases moved with
    | same => exact onWay.kept linked keeps step before found waits
    | taken id phase free =>
      obtain ⟨ended, signals⟩ := keeps.taken step before found free waits
      exact ⟨ended, fun target first => .inl (signals target first)⟩
    | shown phase was mine => cases waits
    | told phase refused mine => cases waits
    | accepted shown mine inside => cases waits
    | rejected number busy mine inside => cases waits
    | cleaned busy mine phase inside =>
      rw [slot.status_cleaned] at waits
      cases waits

/-- No request waits before the first connection. -/
theorem signalsOnWay_start : start.SignalsOnWay := by
  intro index slot found waits
  obtain rfl := List.eq_of_mem_replicate (List.mem_of_getElem? found)
  cases waits

/-- For every request that waits for a user whose first active row names a process, the signal is
still to be sent, or is in flight to that process, or has been received by it, or the process is
about to scan the slots. -/
def NoLostWakeUp (state : HandlerSystem) : Prop :=
  ∀ index slot pid, state.registry.pending[index]? = some slot → slot.status = .pending →
    state.registry.findUser slot.receiverText = some pid →
      (∃ requester process targetPid, state.handlers requester = some process ∧
        process.phase = .signalling index targetPid) ∨
      ∃ process, state.handlers pid = some process ∧ (process.signalInFlight = true ∨
        process.transferSignalReceived = true ∨ process.phase = .checking)

end HandlerSystem

/-- In every run whose steps leave the signals on their way, no wake-up is lost. -/
theorem noLostWakeUp_of_keepsSignals (schedule : List SystemLabel) (state : HandlerSystem)
    (meets : StepsMeet HandlerSystem.next HandlerSystem.KeepsSignals .start schedule)
    (run : runFrom HandlerSystem.next .start schedule = some state) : state.NoLostWakeUp := by
  have kept := run_invariant_of_meets
    (fun state => state.Linked ∧ state.SignalsOnWay)
    (fun state label after kept keeps step =>
      ⟨kept.1.next step, kept.2.next kept.1 keeps step⟩)
    ⟨HandlerSystem.linked_start, HandlerSystem.signalsOnWay_start⟩ meets run
  intro index slot pid found waits first
  rcases (kept.2 index slot found waits).2 pid first with
    ⟨requester, process, alive, phase⟩ | ⟨process, alive, woken⟩
  · exact .inl ⟨requester, process, pid, alive, phase⟩
  · exact .inr ⟨process, alive, woken.imp_right fun both => .inl both.1⟩

/-- A user is online, and another requests a transfer to it. -/
def bobRequested : List SystemLabel :=
  logsIn 7 (str "bob") ++ logsIn 9 (str "alice") ++ requestsNotes 9 (str "bob")

/-- The wake-up of a request whose signal is delivered to the waiting handler is not lost. -/
theorem noLostWakeUp_of_keepsSignals_delivered :
    ∃ state, runFrom HandlerSystem.next .start (bobRequested ++ [.deliver 7, .act 7 .test]) =
      some state ∧ state.NoLostWakeUp :=
  ⟨_, rfl, noLostWakeUp_of_keepsSignals (bobRequested ++ [.deliver 7, .act 7 .test]) _
    (by decide +kernel) rfl⟩

/-- A second request is made and signalled between the scan for the first one and the clearing of
the flag. -/
def signalBehindScan : List SystemLabel :=
  bobRequested ++ [.deliver 7, .act 7 .test, .act 7 .scan] ++ requestsNotes 9 (str "bob") ++
    [.deliver 7, .act 7 .clear]

/-- The wake-up of the second request is lost. -/
theorem not_noLostWakeUp : ¬ Always HandlerSystem.next .start HandlerSystem.NoLostWakeUp := by
  intro always
  have ran : (runFrom HandlerSystem.next .start signalBehindScan).isSome = true := by
    decide +kernel
  have ends : ∀ state ∈ runFrom HandlerSystem.next .start signalBehindScan,
      (∃ slot ∈ state.registry.pending[1]?, slot.status = .pending ∧
        state.registry.findUser slot.receiverText = some 7) ∧
      (∀ process ∈ state.handlers 7, process.phase = .reading ∧
        process.signalInFlight = false ∧ process.transferSignalReceived = false) ∧
      ∀ process ∈ state.handlers 9, process.phase = .testing := by
    decide +kernel
  obtain ⟨state, run⟩ := Option.isSome_iff_exists.mp ran
  obtain ⟨⟨slot, found, waits, first⟩, receiver, requester⟩ := ends state run
  rcases always signalBehindScan state run 1 slot 7 found waits first with
    ⟨pid, process, target, alive, phase⟩ | ⟨process, alive, woken⟩
  · have forked : .connect pid ∈ signalBehindScan :=
      (HandlerSystem.connect_mem run (by rw [alive]; rfl)).resolve_left nofun
    have either : pid = 7 ∨ pid = 9 := by
      simpa [signalBehindScan, bobRequested, logsIn, requestsNotes] using forked
    rcases either with rfl | rfl
    · rw [(receiver process alive).1] at phase
      cases phase
    · rw [requester process alive] at phase
      cases phase
  · obtain ⟨phase, inFlight, flag⟩ := receiver process alive
    rw [inFlight, flag, phase] at woken
    simp at woken

end FileServer
