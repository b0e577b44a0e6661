import FileServer.Model.Dialogue
import FileServer.Verif.Replies

/-!
# What a command may still cost

A message ends the wait of the client if it is a reply in the foreground. The handler and the processes
that it forks for a command send one such message at most, and none for a command that the server takes
for a background transfer.
-/
namespace FileServer

open FileServer.Lib

/-- A call costs what it takes of the wait of the client. -/
def replyMeter : Meter HandlerOp HandlerOp.Answer where
  cost op := if op.replyFlag = some false then 1 else 0
  copy := forkCopy

/-- A message that ends the wait is a reply in the foreground. -/
theorem clearsWait_message {op : HandlerOp} {padding : CharArray 3} {message : Received}
    (sent : op.message padding = some message) :
    message.clearsWait = true ↔ op.replyFlag = some false := by
  cases op with
  | sendProtocolMsg type | writeClient type =>
    obtain rfl := Option.some.inj sent
    cases type <;> simp [Received.clearsWait, Received.background, textMessage, messageHeader,
      HandlerOp.replyFlag, MsgType.opensData]
  | sendProtocolMsgBg type _ _ isBg | sendProtocolMsgLocked type _ _ isBg =>
    obtain rfl := Option.some.inj sent
    cases isBg <;> cases type <;> simp [Received.clearsWait, Received.background, textMessage,
      messageHeader, HandlerOp.replyFlag, MsgType.opensData]
  | _ => cases sent

/-- What the calls made have cost is the number of replies in the foreground. -/
theorem spent_replyMeter (events : List HandlerEvent) :
    Script.spent replyMeter events = (replyFlags events).count false := by
  induction events with
  | nil => rfl
  | cons event later ih =>
    obtain ⟨op, answer⟩ := event
    rw [Script.spent_cons, ih]
    show (if op.replyFlag = some false then 1 else 0) + _ = _
    unfold replyFlags
    cases flag : op.replyFlag with
    | none => simp [flag]
    | some background => cases background <;> simp [flag, Nat.add_comm]

/-- A process splits off only from a `fork` that succeeds. -/
theorem forkCopy_isSome {event : HandlerEvent} (splits : (forkCopy event.1 event.2).isSome = true) :
    event = ⟨.fork, .parent⟩ := by
  obtain ⟨op, answer⟩ := event
  cases op with
  | fork =>
    cases answer with
    | parent => rfl
    | failed | child => cases splits
  | _ => cases splits

/-- A command costs its reply, unless that is one of the background. -/
theorem within_dispatchCommands (call : HandlerCall) :
    (dispatchCommands call).Within replyMeter (if call.inBackground then 0 else 1) := by
  refine .of_every willing (repliesWith_dispatchCommands.weaken fun events value answered => ?_)
  have one : replyFlags events = [call.inBackground] →
      (replyFlags events).count false ≤ if call.inBackground then 0 else 1 := by
    intro one
    rw [one]
    cases call.inBackground <;> exact Nat.le_refl _
  have nothing : replyFlags events = [] → (replyFlags events).count false = 0 := by
    intro silent
    rw [silent]
    rfl
  have unsplit : ⟨.fork, .parent⟩ ∉ events → ¬ Script.Splits replyMeter events := by
    rintro last ⟨event, member, splits⟩
    exact last (forkCopy_isSome splits ▸ member)
  rw [spent_replyMeter]
  cases answered with
  | reply single unforked => exact ⟨one single, fun splits => absurd splits (unsplit unforked.1)⟩
  | parent _ silent => exact ⟨by rw [nothing silent]; exact Nat.zero_le _, fun _ => nothing silent⟩
  | child _ last single =>
    refine ⟨?_, fun splits => absurd splits (unsplit last)⟩
    rcases single with single | ⟨-, silent⟩
    · exact one single
    · rw [nothing silent]
      exact Nat.zero_le _
  | waits _ silent => exact ⟨by rw [nothing silent]; exact Nat.zero_le _, fun _ => nothing silent⟩

/-- A call that sends no reply in the foreground and creates no process costs nothing. -/
theorem free_of_background {op : HandlerOp} (background : op.replyFlag ≠ some false)
    (other : op ≠ .fork) :
    replyMeter.cost op = 0 ∧ ∀ answer, replyMeter.copy op answer = none := by
  refine ⟨if_neg background, fun answer => ?_⟩
  cases splits : replyMeter.copy op answer with
  | none => rfl
  | some copy =>
    have forks : (⟨op, answer⟩ : HandlerEvent) = ⟨.fork, .parent⟩ :=
      forkCopy_isSome (show (replyMeter.copy op answer).isSome = true by rw [splits]; rfl)
    exact absurd (congrArg Sigma.fst forks) other

/-- Looking for a signal costs nothing. -/
theorem within_noticeSignal (session : ClientSession) (budget : Nat) :
    (noticeSignal session).Within replyMeter budget := by
  have sending : ∀ notices : List Notice, (sendNotices notices).Only fun op =>
      replyMeter.cost op = 0 ∧ ∀ answer, replyMeter.copy op answer = none := by
    intro notices
    induction notices with
    | nil => trivial
    | cons notice later ih =>
      exact Script.Only.call (free_of_background (by simp [HandlerOp.replyFlag, MsgType.opensData])
        (by simp)) fun _ => ih
  refine Script.Only.within ?_
  refine Script.Only.call (free_of_background (by simp [HandlerOp.replyFlag]) (by simp)) fun signal => ?_
  cases signal with
  | false => trivial
  | true =>
    show (checkForNotifications session).Only _
    unfold checkForNotifications
    split
    · trivial
    · exact Script.Only.call (free_of_background (by simp [HandlerOp.replyFlag]) (by simp)) sending

/-- The end of `handleClient` costs nothing. -/
theorem within_closeClient (pid : UInt32) (session : ClientSession) (budget : Nat) :
    (closeClient pid session).Within replyMeter budget := by
  refine Script.Only.within ?_
  unfold closeClient
  split
  · exact Script.Only.call (free_of_background (by simp [HandlerOp.replyFlag]) (by simp)) fun _ =>
      Script.Only.call (free_of_background (by simp [HandlerOp.replyFlag]) (by simp)) fun _ => trivial
  · trivial

/-- What `readAll` brings costs nothing if it is no message. -/
theorem within_handleInput_none (pid : UInt32) (state : HandlerState) (budget : Nat) :
    (handleInput pid state .interrupted).Within replyMeter budget ∧
      (handleInput pid state .closed).Within replyMeter budget :=
  ⟨trivial, (within_closeClient _ _ _).free fun _ => trivial⟩

/-- A message costs what the command in it does. -/
theorem within_handleInput (pid : UInt32) (state : HandlerState) (message : Received)
    (announced : message.Announced) {budget : Nat}
    (enough : ∀ call : HandlerCall, call.session = state.session →
      (∃ final, tokenizeCommand (payload message) state.saved = some (call.argv, final)) →
        call.inBackground = true ∨ 1 ≤ budget) :
    (handleInput pid state (.message message announced)).Within replyMeter budget := by
  have dispatching : ∀ behind, (dispatchPayload pid { state with behind } message.1
      (payload message)).Within replyMeter budget := by
    intro behind
    unfold dispatchPayload
    dsimp only
    cases split : tokenizeCommand (payload message) state.saved with
    | none => trivial
    | some found =>
      obtain ⟨argv, saved⟩ := found
      have cost := within_dispatchCommands
        ⟨pid, argv, saved.memory, behind, message.1, state.session⟩
      refine Script.Within.free (cost.mono ?_) fun session => ?_
      · have bound := enough ⟨pid, argv, saved.memory, behind, message.1, state.session⟩ rfl
          ⟨saved, split⟩
        split
        · exact Nat.zero_le _
        · rename_i foreground
          exact bound.resolve_left foreground
      · cases session <;> trivial
  have handling : (handleMessage pid state message).Within replyMeter budget := by
    unfold handleMessage
    split
    · exact dispatching state.behind
    · refine Script.Within.quiet ((Script.only_perform _).mpr
        (free_of_background (by simp [HandlerOp.replyFlag]) (by simp))) fun block => ?_
      cases block with
      | none => trivial
      | some behind =>
        dsimp only
        split
        · trivial
        · exact dispatching behind
  refine handling.free fun outcome => ?_
  cases outcome with
  | next _ | gone => trivial
  | leave => exact (within_closeClient _ _ _).free fun _ => trivial

end FileServer
