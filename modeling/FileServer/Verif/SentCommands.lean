import FileServer.Verif.ClientThreads
import FileServer.Verif.ReplyBudget

/-!
# Commands that the client has sent

What each step of the client does to the flag of its wait, to the command that it is about to write and
to the reply that it has read.
-/
namespace FileServer

open FileServer.Lib

/-- The command written. -/
def ClientEvent.command : ClientEvent → Option Received
  | sent message => some message
  | _ => none

/-- A reply in the foreground that the reader has read and that has not yet ended the wait. -/
def ReadThreadPhase.held : ReadThreadPhase → Nat
  | handling message => if message.clearsWait then 1 else 0
  | locking | clearing => 1
  | _ => 0

/-- A command in the foreground for which the writer has set the flag and that is not yet written. -/
def WriteThreadPhase.held : WriteThreadPhase → Nat
  | sending message => if message.background then 0 else 1
  | _ => 0

/-- The command that has been typed and is not yet written. -/
def WriteThreadPhase.pending : WriteThreadPhase → Option Received
  | counting message | marking message | sending message => some message
  | _ => none

namespace ClientThreads

/-- The commands written, oldest first. -/
def sent (client : ClientThreads) : List Received := client.log.filterMap ClientEvent.command

/-- What a step of the client does to the flag and to what it waits for. -/
inductive Effect (client after : ClientThreads) : ClientStep → Prop
  /-- Nothing. -/
  | quiet {step : ClientStep} (flag : after.waitingForResponse = client.waitingForResponse)
    (sent : after.sent = client.sent) (reader : after.reader.held = client.reader.held)
    (writer : after.writer.held = client.writer.held)
    (handles : ∀ message, after.reader = .handling message → client.reader = .handling message)
    (silent : client.writes step = none) (reads : ∀ message, step ≠ .reader (.receive message)) :
    Effect client after step
  /-- The flag is set or cleared for a command. -/
  | marks {message : Received} (clear : client.waitingForResponse = false)
    (flag : after.waitingForResponse = !message.background) (sent : after.sent = client.sent)
    (reader : after.reader = client.reader) (writer : after.writer = .sending message)
    (silent : client.writes (.writer .advance) = none) : Effect client after (.writer .advance)
  /-- A command is written. -/
  | sends {message : Received} (here : client.writer = .sending message)
    (flag : after.waitingForResponse = client.waitingForResponse)
    (sent : after.sent = client.sent ++ [message]) (reader : after.reader = client.reader)
    (writer : after.writer.held = 0) : Effect client after (.writer .advance)
  /-- A message is read. -/
  | receives {message : Received} (flag : after.waitingForResponse = client.waitingForResponse)
    (sent : after.sent = client.sent) (idle : client.reader.held = 0)
    (reader : after.reader = .handling message) (writer : after.writer = client.writer) :
    Effect client after (.reader (.receive message))
  /-- The reader ends the wait. -/
  | clears (flag : after.waitingForResponse = false) (sent : after.sent = client.sent)
    (held : client.reader.held = 1) (reader : after.reader = .unlocking)
    (writer : after.writer = client.writer) : Effect client after (.reader .advance)

/-- One more event. -/
theorem sent_append (log : List ClientEvent) (event : ClientEvent) :
    (log ++ [event]).filterMap ClientEvent.command =
      log.filterMap ClientEvent.command ++ event.command.toList := by
  rw [List.filterMap_append]
  cases written : event.command <;> simp [written]

/-- One more event that is no command written. -/
theorem sent_other (log : List ClientEvent) {event : ClientEvent} (other : event.command = none) :
    (log ++ [event]).filterMap ClientEvent.command = log.filterMap ClientEvent.command := by
  rw [sent_append, other]
  exact List.append_nil _

/-- A writer that goes on with a command holds nothing. -/
theorem held_command (client : ClientThreads) (message : Received) :
    (client.command message).writer.held = 0 := by
  unfold command
  dsimp only
  split <;> rfl

/-- A writer that is not about to write a command holds and writes nothing. -/
theorem writer_idle {client : ClientThreads} (idle : ∀ message, client.writer ≠ .sending message) :
    client.writer.held = 0 ∧ ∀ step, client.writes step = none := by
  constructor
  · cases here : client.writer with
    | sending message => exact absurd here (idle message)
    | _ => rfl
  · intro step
    unfold writes
    split
    · split
      · rename_i message here
        exact absurd here (idle message)
      · rfl
    · rfl

/-- A step of the writer that leaves the flag alone and writes no command. -/
theorem effect_writer {client after : ClientThreads} {step : WriteThreadStep}
    (idle : ∀ message, client.writer ≠ .sending message) (held : after.writer.held = 0)
    (flag : after.waitingForResponse = client.waitingForResponse)
    (reader : after.reader = client.reader) (sent : after.sent = client.sent) :
    client.Effect after (.writer step) := by
  obtain ⟨free, silent⟩ := writer_idle idle
  refine .quiet flag sent (by rw [reader]) (held.trans free.symm) ?_ (silent _) (by simp)
  rw [reader]
  exact fun _ => id

/-- Every step of the writer. -/
theorem Writes.effect {client after : ClientThreads} {step : WriteThreadStep}
    (writes : client.Writes step after) (patient : client.Patient) :
    client.Effect after (.writer step) := by
  cases writes with
  | marks here =>
    exact .marks (patient.prepares (by rw [here]; rfl)) rfl (sent_other _ rfl) rfl rfl
      ((writer_idle (by simp [here])).2 _)
  | sends here => exact .sends here rfl (sent_append _ _) rfl rfl
  | ends here =>
    refine effect_writer (fun message same => ?_) rfl rfl rfl rfl
    rcases here with here | here <;> cases here.symm.trans same
  | locks here =>
    refine effect_writer (fun message same => ?_) rfl rfl rfl rfl
    rcases here with here | ⟨here, -⟩ <;> cases here.symm.trans same
  | starts here | resolves here | unlocks here | sleeps here | quits _ here | skips _ here
  | records _ here => exact effect_writer (by simp [here]) rfl rfl rfl rfl
  | prompts here | counts here | refuses _ here =>
    exact effect_writer (by simp [here]) rfl rfl rfl (sent_other _ rfl)
  | commands _ here => exact effect_writer (by simp [here]) (held_command _ _) rfl rfl rfl
  | writes here => exact effect_writer (by simp [here]) (held_command _ _) rfl rfl rfl

/-- Every step of the reader. -/
theorem Reads.effect {client after : ClientThreads} {step : ReadThreadStep}
    (reads : client.Reads step after) : client.Effect after (.reader step) := by
  cases reads with
  | receives here fits =>
    exact .receives rfl (sent_other _ rfl) (by rw [here]; rfl) rfl rfl
  | clears here =>
    exact .clears rfl (sent_other _ rfl) (by rw [here]; rfl) rfl rfl
  | @handles message created here =>
    refine .quiet rfl ?_ ?_ rfl ?_ rfl (by simp)
    · show (client.log ++ ((message.output client.isWritingContent).map
        ClientEvent.shown).toList).filterMap ClientEvent.command = client.sent
      cases message.output client.isWritingContent with
      | none => exact congrArg (List.filterMap _) (List.append_nil _)
      | some output => exact sent_other _ rfl
    · rw [here]
      cases clears : message.clearsWait <;> simp [handled, ReadThreadPhase.held, clears]
    · intro other
      unfold handled
      dsimp only
      split <;> simp
  | ends here | starts here | fails here | locks here | unlocks here | alarms here =>
    exact .quiet rfl rfl (by rw [here]; rfl) rfl (by simp) rfl (by simp)

/-- Every step. -/
theorem effect_next {client after : ClientThreads} {step : ClientStep} (patient : client.Patient)
    (stepped : client.next step = some after) : client.Effect after step := by
  cases step with
  | writer step => exact (writes_of_next stepped).effect patient
  | reader step => exact (reads_of_next stepped).effect
  | wake =>
    obtain ⟨response, -, rfl⟩ := Option.map_eq_some_iff.mp stepped
    exact .quiet rfl rfl rfl rfl (fun _ => id) rfl (by simp)
  | finish index =>
    obtain ⟨transfer, -, rfl⟩ := Option.map_eq_some_iff.mp stepped
    exact .quiet rfl (sent_other _ rfl) rfl rfl (fun _ => id) rfl (by simp)

/-- The commands typed are made of lines, and no wait is pending when one of the background is
written. -/
structure Composed (client : ClientThreads) : Prop where
  /-- The command that is not yet written. -/
  pending : ∀ message, client.writer.pending = some message → ∃ line : CommandLine, line.Makes message
  /-- Those written. -/
  sent : ∀ message ∈ client.sent, ∃ line : CommandLine, line.Makes message
  /-- A command in the background. -/
  background : ∀ message, client.writer = .sending message → message.background = true →
    client.waitingForResponse = false

/-- What the writer is about to write is what it was about to write or made of what has been typed. -/
theorem Writes.pending {client after : ClientThreads} {step : WriteThreadStep}
    (writes : client.Writes step after) {message : Received}
    (pending : after.writer.pending = some message) :
    client.writer.pending = some message ∨ ∃ line : CommandLine, line.Makes message := by
  have made : ∀ (client : ClientThreads) (typed : Received),
      (client.command typed).writer.pending = some typed := by
    intro client typed
    unfold command
    dsimp only
    split <;> rfl
  cases writes with
  | counts here | marks here =>
    rw [here]
    exact .inl pending
  | commands padding here =>
    rw [made] at pending
    cases pending
    exact .inr ⟨_, .command padding⟩
  | writes here written =>
    rw [made] at pending
    cases pending
    exact .inr ⟨_, .write written⟩
  | _ => cases pending

/-- A writer that is about to write a command has just marked it. -/
theorem Writes.sending {client after : ClientThreads} {step : WriteThreadStep}
    (writes : client.Writes step after) {message : Received}
    (sending : after.writer = .sending message) :
    after.waitingForResponse = !message.background := by
  cases writes with
  | marks here =>
    cases sending
    rfl
  | commands _ here =>
    unfold command at sending
    dsimp only at sending
    split at sending <;> cases sending
  | writes here made =>
    unfold command at sending
    dsimp only at sending
    split at sending <;> cases sending
  | _ => cases sending

/-- The reader leaves the writer alone and sets no flag. -/
theorem Reads.writer {client after : ClientThreads} {step : ReadThreadStep}
    (reads : client.Reads step after) : after.writer = client.writer ∧
      (client.waitingForResponse = false → after.waitingForResponse = false) := by
  cases reads with
  | clears => exact ⟨rfl, fun _ => rfl⟩
  | _ => exact ⟨rfl, id⟩

/-- At the start nothing has been typed. -/
theorem composed_start : start.Composed where
  pending message pending := by cases pending
  sent message member := by cases member
  background message sending := by cases sending

/-- Every step. -/
theorem Composed.next {client after : ClientThreads} {step : ClientStep} (composed : client.Composed)
    (patient : client.Patient) (stepped : client.next step = some after) : after.Composed := by
  have sent : ∀ message ∈ after.sent, ∃ line : CommandLine, line.Makes message := by
    intro message member
    cases effect_next patient stepped with
    | quiet _ sent | marks _ _ sent | receives _ sent | clears _ sent =>
      rw [sent] at member
      exact composed.sent message member
    | sends here _ sent =>
      rw [sent] at member
      rcases List.mem_append.mp member with earlier | last
      · exact composed.sent message earlier
      · obtain rfl := List.mem_singleton.mp last
        exact composed.pending message (by rw [here]; rfl)
  cases step with
  | writer step =>
    have writes := writes_of_next stepped
    refine ⟨fun message pending => ?_, sent, fun message sending background => ?_⟩
    · exact (writes.pending pending).elim (composed.pending message) id
    · rw [writes.sending sending, background]
      rfl
  | reader step =>
    obtain ⟨writer, flag⟩ := (reads_of_next stepped).writer
    refine ⟨fun message pending => ?_, sent, fun message sending background => ?_⟩
    · rw [writer] at pending
      exact composed.pending message pending
    · rw [writer] at sending
      exact flag (composed.background message sending background)
  | wake =>
    obtain ⟨response, -, rfl⟩ := Option.map_eq_some_iff.mp stepped
    exact ⟨composed.pending, composed.sent, composed.background⟩
  | finish index =>
    obtain ⟨transfer, -, rfl⟩ := Option.map_eq_some_iff.mp stepped
    exact ⟨composed.pending, sent, composed.background⟩

end ClientThreads

end FileServer
