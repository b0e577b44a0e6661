import FileServer.Verif.TransferCommands
import FileServer.Verif.Transfers

/-!
# Rejecting a transfer

What `handleRejectTransfer` does to the registry. It takes the first slot in use with the number,
whether or not the request in it still waits for an answer; a slot whose request was rejected has
the number zero, which is also what a word without digits is read as.
-/
namespace FileServer

open FileServer.Lib

/-- The slot holds a request with the number that waits for an answer of the named user. -/
def TransferRequest.Offered (number : UInt32) (username : List UInt8) (slot : TransferRequest) :
    Prop :=
  slot.id = number ∧ slot.Live ∧ slot.receiverText = username

/-- A rejection of the number, sent by a session that is logged in. -/
structure HandlerCall.Rejects (call : HandlerCall) (number : UInt32) : Prop where
  /-- The session is logged in. -/
  loggedIn : call.session.state = .loggedIn
  /-- The number is what the argument of the command is read as. -/
  args : ∃ name id, call.args = [name, id] ∧ (atoi id).toUInt32 = number

namespace SharedRegistry

/-- The number of one request offered to the user is taken back, and nothing else changes. -/
def RejectsOne (before : SharedRegistry) (number : UInt32) (username : List UInt8)
    (after : SharedRegistry) : Prop :=
  ∃ front slot back, before.pending = front ++ slot :: back ∧ slot.Offered number username ∧
    after.pending = front ++ { slot with status := .rejected, id := 0 } :: back ∧
    after.onlineUsers = before.onlineUsers ∧ after.globalIdCounter = before.globalIdCounter

/-- The first slot in use with the number is offered to the user if any slot is, and holds a
request that waits for an answer if it is addressed to the user. -/
def FirstIsOffered (registry : SharedRegistry) (number : UInt32) (username : List UInt8) : Prop :=
  ∀ first, registry.pending.find? (·.occupied number) = some first →
    if first.receiverText = username then first.Live
    else ∀ slot ∈ registry.pending, ¬ slot.Offered number username

end SharedRegistry

/-- A slot offered to a user is in use with its number. -/
theorem TransferRequest.Offered.occupied {number : UInt32} {username : List UInt8}
    {slot : TransferRequest} (offered : slot.Offered number username) :
    slot.occupied number = true := by
  obtain ⟨numbered, live, -⟩ := offered
  have busy : slot.status ≠ .free := by
    obtain waiting | shown := live
    · simp [waiting]
    · simp [shown]
  simp [TransferRequest.occupied, numbered, busy]

namespace SharedRegistry

variable (registry : SharedRegistry) (number : UInt32) (username : List UInt8)

/-- A rejection of a number that no slot in use has. -/
theorem rejectRequest_none (missing : registry.pending.find? (·.occupied number) = none) :
    registry.rejectRequest number username = (.notFound, registry) := by
  have same := updateFirst_of_find?_none (·.rejected username) missing
  simp [rejectRequest, updateSlot, same]

/-- A rejection of a number whose first slot is addressed to the caller. -/
theorem rejectRequest_mine {first : TransferRequest}
    (found : registry.pending.find? (·.occupied number) = some first)
    (mine : first.receiverText = username) :
    ∃ front back, registry.pending = front ++ first :: back ∧
      (registry.rejectRequest number username).1 =
        .rejected (first.senderText.take (maxUsernameLen - 1)) ∧
      (registry.rejectRequest number username).2.pending =
        front ++ { first with status := .rejected, id := 0 } :: back := by
  obtain ⟨front, back, split, same⟩ := updateFirst_of_find?_some (·.rejected username) found
  have update : first.rejected username = { first with status := .rejected, id := 0 } := if_pos mine
  exact ⟨front, back, split, by simp [rejectRequest, updateSlot, same, mine],
    by simp [rejectRequest, updateSlot, same, mine, update]⟩

/-- A rejection of a number whose first slot is addressed to another user. -/
theorem rejectRequest_other {first : TransferRequest}
    (found : registry.pending.find? (·.occupied number) = some first)
    (other : first.receiverText ≠ username) :
    registry.rejectRequest number username = (.notYours, registry) := by
  obtain ⟨front, back, split, same⟩ := updateFirst_of_find?_some (·.rejected username) found
  have update : first.rejected username = first := if_neg other
  rw [update, ← split] at same
  simp [rejectRequest, updateSlot, same, other]

end SharedRegistry

section

variable (call : HandlerCall) (answers : HandlerAnswers) (registry : SharedRegistry)

/-- The reply to a rejection that has found its request. -/
abbrev rejectionReply : Σ op : HandlerOp, op.Answer :=
  ⟨.sendProtocolMsg .text 0 (str "Transfer rejected."), ()⟩

/-- A rejection succeeds exactly if a slot is offered to the user under the number, and then takes
just that request back; otherwise it replies with an error and changes nothing. -/
def RejectsExactly : Prop :=
  ∀ number, call.Rejects number →
    let run := (handleRejectTransfer call).runOn answers.serve registry
    (rejectionReply ∈ run.events ↔
        ∃ slot ∈ registry.pending, slot.Offered number call.session.usernameText) ∧
      (rejectionReply ∈ run.events →
        registry.RejectsOne number call.session.usernameText run.world) ∧
      (rejectionReply ∉ run.events → run.world = registry ∧
        ∃ status msg, status ≠ 0 ∧ ⟨.sendProtocolMsg .text status msg, ()⟩ ∈ run.events)

/-- What a rejection replies, and the registry after it. -/
theorem runOn_handleRejectTransfer {number : UInt32} (rejects : call.Rejects number) :
    let run := (handleRejectTransfer call).runOn answers.serve registry
    let section_ := registry.rejectRequest number call.session.usernameText
    run.world = section_.2 ∧
      match section_.1 with
      | .rejected _ => rejectionReply ∈ run.events
      | _ => rejectionReply ∉ run.events ∧
          ∃ status msg, status ≠ 0 ∧ ⟨.sendProtocolMsg .text status msg, ()⟩ ∈ run.events := by
  obtain ⟨name, id, args, rfl⟩ := rejects.args
  have enters : answers.serve registry
      (.enter (.rejectRequest (atoi id).toUInt32 call.session.usernameText)) =
        registry.rejectRequest (atoi id).toUInt32 call.session.usernameText := rfl
  unfold handleRejectTransfer HandlerCall.loggedIn
  simp only [rejects.loggedIn, ne_eq, not_true_eq_false, ↓reduceIte, args, Script.runOn_bind,
    Script.runOn_perform, enters]
  cases (registry.rejectRequest (atoi id).toUInt32 call.session.usernameText).1 with
  | rejected senderName =>
    have replies : ∀ state, answers.serve state
      (.sendProtocolMsg .text 0 (str "Transfer rejected.")) = ((), state) := fun state => rfl
    have searches : ∀ state, answers.serve state (.enter (.findUser senderName)) =
      (state.findUser senderName, state) := fun state => rfl
    simp only [Script.runOn_bind, Script.runOn_perform, replies, searches]
    refine ⟨?_, List.mem_append_right _ (List.mem_append_left _ (List.mem_singleton.mpr rfl))⟩
    cases (registry.rejectRequest (atoi id).toUInt32 call.session.usernameText).2.findUser
        senderName with
    | some pid => rfl
    | none => rfl
  | notYours =>
    refine ⟨rfl, ?_, 1, str "Error: This transfer is not for you.", by decide, ?_⟩
    · simp [HandlerCall.reply, rejectionReply]
    · exact List.mem_cons_of_mem _ List.mem_cons_self
  | notFound =>
    refine ⟨rfl, ?_, 1, str "Error: Request ID not found.", by decide, ?_⟩
    · simp [HandlerCall.reply, rejectionReply]
    · exact List.mem_cons_of_mem _ List.mem_cons_self

/-- A rejection does exactly what it should if the first slot in use with the number is the right
one. -/
theorem rejectsExactly_of_firstIsOffered (sound : ∀ number, call.Rejects number →
    registry.FirstIsOffered number call.session.usernameText) :
    RejectsExactly call answers registry := by
  intro number rejects run
  obtain ⟨world, replied⟩ := runOn_handleRejectTransfer call answers registry rejects
  have right := sound number rejects
  cases found : registry.pending.find? (·.occupied number) with
  | none =>
    have idle := List.find?_eq_none.mp found
    rw [registry.rejectRequest_none _ _ found] at world replied
    refine ⟨iff_of_false replied.1 ?_, fun told => absurd told replied.1, fun _ => ⟨world, replied.2⟩⟩
    rintro ⟨slot, member, offered⟩
    exact idle slot member offered.occupied
  | some first =>
    have first_ := right first found
    by_cases mine : first.receiverText = call.session.usernameText
    · rw [if_pos mine] at first_
      obtain ⟨front, back, split, result, pending⟩ := registry.rejectRequest_mine _ _ found mine
      rw [result] at replied
      have numbered : first.id = number ∧ first.status ≠ .free := by
        simpa [TransferRequest.occupied] using List.find?_some found
      have offered : first.Offered number call.session.usernameText := ⟨numbered.1, first_, mine⟩
      refine ⟨iff_of_true replied ⟨first, List.mem_of_find?_eq_some found, offered⟩, fun _ => ?_,
        fun silent => absurd replied silent⟩
      refine ⟨front, first, back, split, offered, ?_, ?_, ?_⟩
      · rw [world, pending]
      · rw [world, registry.onlineUsers_rejectRequest]
      · rw [world, registry.globalIdCounter_rejectRequest]
    · rw [if_neg mine] at first_
      rw [registry.rejectRequest_other _ _ found mine] at world replied
      refine ⟨iff_of_false replied.1 ?_, fun told => absurd told replied.1,
        fun _ => ⟨world, replied.2⟩⟩
      rintro ⟨slot, member, offered⟩
      exact first_ slot member offered

/-- The first slot in use with the number is the right one if a rejection does exactly what it
should. -/
theorem firstIsOffered_of_rejectsExactly (exact_ : RejectsExactly call answers registry)
    {number : UInt32} (rejects : call.Rejects number) :
    registry.FirstIsOffered number call.session.usernameText := by
  obtain ⟨offers, takes, -⟩ := exact_ number rejects
  obtain ⟨world, replied⟩ := runOn_handleRejectTransfer call answers registry rejects
  intro first found
  by_cases mine : first.receiverText = call.session.usernameText
  · rw [if_pos mine]
    obtain ⟨front, back, split, result, pending⟩ := registry.rejectRequest_mine _ _ found mine
    rw [result] at replied
    obtain ⟨before, slot, after, same, offered, changed, -⟩ := takes replied
    rw [world, pending] at changed
    -- the slot that has changed is the one that was offered
    have here : (front ++ first :: back)[before.length]? = some slot := by
      rw [← split, same]
      simp
    rcases getElem?_replace front back first { first with status := .rejected, id := 0 } here with
      kept | ⟨-, rfl, -⟩
    · rw [changed] at kept
      have rejected : { slot with status := .rejected, id := 0 } = slot := by simpa using kept
      have status : slot.status = .rejected := congrArg TransferRequest.status rejected.symm
      rcases offered.2.1 with waiting | shown
      · rw [waiting] at status
        cases status
      · rw [shown] at status
        cases status
    · exact offered.2.1
  · rw [if_neg mine]
    rw [registry.rejectRequest_other _ _ found mine] at replied
    intro slot member offered
    exact replied.1 (offers.mpr ⟨slot, member, offered⟩)

end

/-- In a registry that a run has reached, only the number zero can lead to a slot whose request no
longer waits for an answer. -/
theorem Tracks.firstIsOffered_iff {registry : SharedRegistry} {ledger : Ledger}
    (tracks : Tracks registry.pending registry.globalIdCounter ledger) (number : UInt32)
    (username : List UInt8) : registry.FirstIsOffered number username ↔
      (number = 0 → ∀ first, registry.pending.find? (·.occupied 0) = some first →
        first.receiverText ≠ username) := by
  have positive : ∀ slot ∈ registry.pending, slot.Live → slot.id ≠ 0 := by
    intro slot member live zero
    obtain ⟨before, after, split⟩ := List.append_of_mem member
    have known := (split ▸ tracks).known live
    rw [zero] at known
    exact absurd known.1 (by decide)
  constructor
  · rintro sound rfl first found mine
    have right := sound first found
    rw [if_pos mine] at right
    have numbered : first.id = 0 ∧ first.status ≠ .free := by
      simpa [TransferRequest.occupied] using List.find?_some found
    exact positive first (List.mem_of_find?_eq_some found) right numbered.1
  · intro apart first found
    have member := List.mem_of_find?_eq_some found
    have numbered : first.id = number ∧ first.status ≠ .free := by
      simpa [TransferRequest.occupied] using List.find?_some found
    by_cases zero : number = 0
    · subst zero
      rw [if_neg (apart rfl first found)]
      intro slot inside offered
      exact positive slot inside offered.2.1 offered.1
    · have live : first.Live := by
        have tracked := tracks.tracked first member
        cases status : first.status with
        | free => exact absurd status numbered.2
        | pending => exact Or.inl status
        | notified => exact Or.inr status
        | rejected =>
          simp only [TransferRequest.Tracked, status] at tracked
          exact absurd (numbered.1.symm.trans tracked) zero
        | other word => simp only [TransferRequest.Tracked, status] at tracked
      by_cases mine : first.receiverText = username
      · rwa [if_pos mine]
      · rw [if_neg mine]
        rintro slot inside ⟨same, busy, named⟩
        obtain ⟨before, after, split⟩ := List.append_of_mem member
        have alone := (split ▸ tracks).alone live
        rw [split] at inside
        rcases List.mem_append.mp inside with early | late
        · exact alone slot (List.mem_append_left _ early) busy (same.trans numbered.1.symm)
        · rcases List.mem_cons.mp late with rfl | late
          · exact mine named
          · exact alone slot (List.mem_append_right _ late) busy (same.trans numbered.1.symm)

/-- A rejection does exactly what it should if and only if the first slot in use with the number is
the right one; in a registry reached by requests whose file names fit their field that is: the number
is not zero, or the first slot with a rejected request is not addressed to the caller. -/
theorem rejectsExactly_iff (call : HandlerCall) (answers : HandlerAnswers)
    (registry : SharedRegistry) :
    (RejectsExactly call answers registry ↔ ∀ number, call.Rejects number →
      registry.FirstIsOffered number call.session.usernameText) ∧
    ∀ {session : Type} (username : session → UserName)
      (schedule : List (session × TransferCommand)) (run : TransferRun session),
      runFrom (TransferRun.next username) .start schedule = some run →
      run.requests < 2 ^ 31 - 1 → run.registry = registry → ∀ number,
        (registry.FirstIsOffered number call.session.usernameText ↔
          (number = 0 → ∀ first, registry.pending.find? (·.occupied 0) = some first →
            first.receiverText ≠ call.session.usernameText)) := by
  refine ⟨⟨fun exact_ number rejects =>
    firstIsOffered_of_rejectsExactly call answers registry exact_ rejects,
    rejectsExactly_of_firstIsOffered call answers registry⟩, ?_⟩
  rintro session username schedule run reached few rfl number
  obtain ⟨ledger, -, tracks⟩ := TransferRun.follows reached few
  exact tracks.firstIsOffered_iff number call.session.usernameText

/-- The offer of a file that the second user rejects. -/
def offerRejected : List (Bool × TransferCommand) :=
  [(true, notesOffered), (false, .notice), (false, .reject 1)]

/-- The registry after a run of two users. -/
def registryAfter (schedule : List (Bool × TransferCommand)) : SharedRegistry :=
  ((runFrom (TransferRun.next twoUsers) .start schedule).getD .start).registry

/-- A second rejection under the number of the request finds no slot any more. -/
theorem rejectsExactly_iff_again :
    RejectsExactly (commandCall 7 bobSession (str "reject 1")) willing
      (registryAfter offerRejected) := by
  apply (rejectsExactly_iff _ _ _).1.mpr
  intro number rejects
  apply ((rejectsExactly_iff _ willing _).2 twoUsers offerRejected _ rfl (by decide) rfl number).mpr
  rintro rfl
  obtain ⟨name, id, args, zero⟩ := rejects.args
  have typed : (commandCall 7 bobSession (str "reject 1")).args = [str "reject", str "1"] := by
    decide +kernel
  simp only [typed, List.cons.injEq, and_true] at args
  rw [← args.2] at zero
  exact absurd zero (by decide)

/-- A second rejection under the number zero succeeds, though no request waits for an answer. -/
theorem not_rejectsExactly_zero :
    ¬ RejectsExactly (commandCall 7 bobSession (str "reject 0")) willing
      (registryAfter offerRejected) := by
  intro exact_
  have typed : (commandCall 7 bobSession (str "reject 0")).args = [str "reject", str "0"] := by
    decide +kernel
  have rejects : (commandCall 7 bobSession (str "reject 0")).Rejects 0 :=
    ⟨rfl, _, _, typed, by decide⟩
  have sound := firstIsOffered_of_rejectsExactly _ _ _ exact_ rejects
  have found : ∃ first, (registryAfter offerRejected).pending.find? (·.occupied 0) = some first ∧
      first.receiverText =
        (commandCall 7 bobSession (str "reject 0")).session.usernameText ∧
      first.status = .rejected := by
    refine ⟨_, Option.eq_some_of_isSome (by decide +kernel), by decide +kernel, by decide +kernel⟩
  obtain ⟨first, found, mine, rejected⟩ := found
  have live := sound first found
  rw [if_pos mine, TransferRequest.Live, rejected] at live
  revert live
  decide

end FileServer
