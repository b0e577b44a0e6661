import FileServer.Model.ClientThreads

/-!
# Waiting for the response

The writer of the client sleeps on a condition until the reader clears `waiting_for_response`, under
the lock that the condition belongs to. Whatever the server sends, the writer sleeps only while the
flag is set, and it goes on to another command only after the reader has cleared the flag.
-/
namespace FileServer

open FileServer.Lib

namespace ClientThreads

/-- What the writer does in one step. -/
inductive Writes (client : ClientThreads) : WriteThreadStep → ClientThreads → Prop
  /-- The loop is left. -/
  | ends (here : client.writer = .starting ∨ client.writer = .passing)
    (exits : client.shouldExit = true) :
    Writes client .advance { client with writer := .ended }
  /-- The loop goes on. -/
  | starts (here : client.writer = .starting) (stays : client.shouldExit = false) :
    Writes client .advance { client with writer := .locking }
  /-- The lock is taken, at first or behind the wait. -/
  | locks {response : Condition ClientThread}
    (here : client.writer = .locking ∨
      client.writer = .waiting ∧ client.response.phase .writer = .woken)
    (taken : client.response.next .writer .lock = some response) :
    Writes client .advance { client with response, writer := .testing }
  /-- The response is still to come. -/
  | resolves {response : Condition ClientThread} (here : client.writer = .testing)
    (waits : client.waitingForResponse = true) (stays : client.shouldExit = false)
    (resolved : client.response.next .writer .resolve = some response) :
    Writes client .advance { client with response, writer := .waiting }
  /-- The lock is given up behind the test. -/
  | unlocks {response : Condition ClientThread} (here : client.writer = .testing)
    (ready : client.waitingForResponse = false ∨ client.shouldExit = true)
    (freed : client.response.next .writer .unlock = some response) :
    Writes client .advance { client with response, writer := .passing }
  /-- The writer falls asleep. -/
  | sleeps {response : Condition ClientThread} (here : client.writer = .waiting)
    (resolved : client.response.phase .writer = .resolved)
    (slept : client.response.next .writer .sleep = some response) :
    Writes client .advance { client with response, writer := .waiting }
  /-- The prompt is printed. -/
  | prompts (here : client.writer = .passing) (stays : client.shouldExit = false) :
    Writes client .advance
      { client with writer := .prompting, log := client.log ++ [.prompted] }
  /-- A background command is counted. -/
  | counts {message : Received} (here : client.writer = .counting message) :
    Writes client .advance { client with
      bgOpsCount := client.bgOpsCount + 1
      writer := .marking message
      log := client.log ++ [.counted] }
  /-- The flag is set or cleared. -/
  | marks {message : Received} (here : client.writer = .marking message)
    (free : client.response.holder = none) :
    Writes client .advance { client with
      waitingForResponse := !message.background
      writer := .sending message
      log := client.log ++ [.marked message.background] }
  /-- A command is sent. -/
  | sends {message : Received} (here : client.writer = .sending message) :
    Writes client .advance { client with
      writer := .starting
      log := client.log ++ [.sent message] }
  /-- The input ends, or the user leaves and nothing is pending. -/
  | quits {line : Option CommandLine} (padding : CharArray 3) (here : client.writer = .prompting)
    (none : ∀ typed, line = some typed → typed.text = str "exit" ∧ client.bgOpsCount = 0) :
    Writes client (.type line padding) { client with shouldExit := true, writer := .ended }
  /-- An empty line. -/
  | skips {line : CommandLine} (padding : CharArray 3) (here : client.writer = .prompting)
    (empty : line.text = []) :
    Writes client (.type (some line) padding) { client with writer := .starting }
  /-- The user cannot leave. -/
  | refuses {line : CommandLine} (padding : CharArray 3) (here : client.writer = .prompting)
    (exits : line.text = str "exit") (pending : 0 < client.bgOpsCount) :
    Writes client (.type (some line) padding)
      { client with writer := .starting, log := client.log ++ [.refused client.bgOpsCount] }
  /-- A write command. -/
  | records {line : CommandLine} (padding : CharArray 3) (here : client.writer = .prompting)
    (write : str "write " <+: line.text) :
    Writes client (.type (some line) padding)
      { client with isWritingContent := true, writer := .recording line }
  /-- Another command. -/
  | commands {line : CommandLine} (padding : CharArray 3) (here : client.writer = .prompting)
    (some_ : line.text ≠ []) (other : line.text ≠ str "exit")
    (plain : ¬ str "write " <+: line.text) :
    Writes client (.type (some line) padding) (client.command (commandMessage line padding))
  /-- The content of a write command has been typed. -/
  | writes {line : CommandLine} {content : List UInt8} {padding : CharArray 3} {message : Received}
    (here : client.writer = .recording line)
    (made : writeMessage line content padding = some message) :
    Writes client (.finishContent content padding)
      ({ client with isWritingContent := false }.command message)

/-- Every step of the writer is one of these. -/
theorem writes_of_next {client after : ClientThreads} {step : WriteThreadStep}
    (stepped : client.nextWriter step = some after) : client.Writes step after := by
  cases step with
  | advance =>
    unfold nextWriter advanceWriter at stepped
    cases here : client.writer with
    | starting =>
      rw [here] at stepped
      obtain rfl := Option.some.inj stepped
      by_cases exits : client.shouldExit = true
      · rw [if_pos exits]
        exact .ends (.inl here) exits
      · rw [if_neg exits]
        exact .starts here (Bool.not_eq_true _ ▸ exits)
    | locking =>
      rw [here] at stepped
      obtain ⟨response, taken, rfl⟩ := Option.map_eq_some_iff.mp stepped
      exact .locks (.inl here) taken
    | testing =>
      rw [here] at stepped
      dsimp only at stepped
      split at stepped
      · rename_i both
        rw [Bool.and_eq_true, Bool.not_eq_true'] at both
        obtain ⟨response, resolved, rfl⟩ := Option.map_eq_some_iff.mp stepped
        exact .resolves here both.1 both.2 resolved
      · rename_i either
        rw [Bool.and_eq_true, Bool.not_eq_true', not_and_or, Bool.not_eq_true,
          Bool.not_eq_false] at either
        obtain ⟨response, freed, rfl⟩ := Option.map_eq_some_iff.mp stepped
        exact .unlocks here either freed
    | waiting =>
      rw [here] at stepped
      dsimp only at stepped
      split at stepped
      · rename_i resolved
        obtain ⟨response, slept, rfl⟩ := Option.map_eq_some_iff.mp stepped
        exact .sleeps here resolved slept
      · rename_i woken
        obtain ⟨response, taken, rfl⟩ := Option.map_eq_some_iff.mp stepped
        exact .locks (.inr ⟨here, woken⟩) taken
      · cases stepped
    | passing =>
      rw [here] at stepped
      obtain rfl := Option.some.inj stepped
      by_cases exits : client.shouldExit = true
      · rw [if_pos exits]
        exact .ends (.inr here) exits
      · rw [if_neg exits]
        exact .prompts here (Bool.not_eq_true _ ▸ exits)
    | counting message =>
      rw [here] at stepped
      obtain rfl := Option.some.inj stepped
      exact .counts here
    | marking message =>
      rw [here] at stepped
      obtain ⟨free, same⟩ := Option.ite_none_right_eq_some.mp stepped
      obtain rfl := Option.some.inj same
      exact .marks here free
    | sending message =>
      rw [here] at stepped
      obtain rfl := Option.some.inj stepped
      exact .sends here
    | prompting | recording line | ended =>
      rw [here] at stepped
      cases stepped
  | type line padding =>
    unfold nextWriter at stepped
    cases here : client.writer <;> rw [here] at stepped <;> dsimp only at stepped
    case prompting =>
      obtain rfl := Option.some.inj stepped
      cases line with
      | none => exact .quits padding here (fun typed same => by cases same)
      | some line =>
        unfold typed
        dsimp only
        split
        · rename_i empty
          exact .skips padding here empty
        · rename_i some_
          split
          · rename_i exits
            split
            · rename_i pending
              exact .refuses padding here exits pending
            · rename_i none
              refine .quits padding here fun typed same => ?_
              cases same
              exact ⟨exits, Nat.eq_zero_of_not_pos none⟩
          · rename_i other
            split
            · rename_i write
              exact .records padding here write
            · rename_i plain
              exact .commands padding here some_ other plain
    all_goals cases stepped
  | finishContent content padding =>
    unfold nextWriter at stepped
    cases here : client.writer <;> rw [here] at stepped <;> dsimp only at stepped
    case recording line =>
      obtain ⟨message, made, rfl⟩ := Option.map_eq_some_iff.mp stepped
      exact .writes here made
    all_goals cases stepped

/-- What the reader does in one step. -/
inductive Reads (client : ClientThreads) : ReadThreadStep → ClientThreads → Prop
  /-- The loop is left. -/
  | ends (here : client.reader = .starting) (exits : client.shouldExit = true) :
    Reads client .advance { client with reader := .ended }
  /-- The loop goes on. -/
  | starts (here : client.reader = .starting) (stays : client.shouldExit = false) :
    Reads client .advance { client with reader := .reading }
  /-- A message arrives. -/
  | receives {message : Received} (here : client.reader = .reading) (fits : message.fits) :
    Reads client (.receive message) { client with
      reader := .handling message
      log := client.log ++ [.received message] }
  /-- The connection is lost. -/
  | fails (here : client.reader = .reading) :
    Reads client .fail { client with shouldExit := true, reader := .alarming }
  /-- The writer is woken because the connection is lost. -/
  | alarms (here : client.reader = .alarming) :
    Reads client .advance { client with response := client.response.wakeAll, reader := .ended }
  /-- A message is printed. -/
  | handles {message : Received} (created : Bool) (here : client.reader = .handling message) :
    Reads client (.handle created) (client.handled message created)
  /-- The lock is taken. -/
  | locks {response : Condition ClientThread} (here : client.reader = .locking)
    (taken : client.response.next .reader .lock = some response) :
    Reads client .advance { client with response, reader := .clearing }
  /-- The flag is cleared and the writer woken. -/
  | clears (here : client.reader = .clearing) :
    Reads client .advance { client with
      waitingForResponse := false
      response := client.response.wakeAll
      reader := .unlocking
      log := client.log ++ [.cleared] }
  /-- The lock is given up. -/
  | unlocks {response : Condition ClientThread} (here : client.reader = .unlocking)
    (freed : client.response.next .reader .unlock = some response) :
    Reads client .advance { client with response, reader := .starting }

/-- Every step of the reader is one of these. -/
theorem reads_of_next {client after : ClientThreads} {step : ReadThreadStep}
    (stepped : client.nextReader step = some after) : client.Reads step after := by
  cases step with
  | advance =>
    unfold nextReader advanceReader at stepped
    cases here : client.reader <;> rw [here] at stepped <;> dsimp only at stepped
    case starting =>
      obtain rfl := Option.some.inj stepped
      by_cases exits : client.shouldExit = true
      · rw [if_pos exits]
        exact .ends here exits
      · rw [if_neg exits]
        exact .starts here (Bool.not_eq_true _ ▸ exits)
    case locking =>
      obtain ⟨response, taken, rfl⟩ := Option.map_eq_some_iff.mp stepped
      exact .locks here taken
    case clearing =>
      obtain rfl := Option.some.inj stepped
      exact .clears here
    case unlocking =>
      obtain ⟨response, freed, rfl⟩ := Option.map_eq_some_iff.mp stepped
      exact .unlocks here freed
    case alarming =>
      obtain rfl := Option.some.inj stepped
      exact .alarms here
    all_goals cases stepped
  | receive message =>
    unfold nextReader at stepped
    cases here : client.reader <;> rw [here] at stepped <;> dsimp only at stepped
    case reading =>
      obtain ⟨fits, same⟩ := Option.ite_none_right_eq_some.mp stepped
      obtain rfl := Option.some.inj same
      exact .receives here fits
    all_goals cases stepped
  | fail =>
    unfold nextReader at stepped
    cases here : client.reader <;> rw [here] at stepped <;> dsimp only at stepped
    case reading =>
      obtain rfl := Option.some.inj stepped
      exact .fails here
    all_goals cases stepped
  | handle created =>
    unfold nextReader at stepped
    cases here : client.reader <;> rw [here] at stepped <;> dsimp only at stepped
    case handling message =>
      obtain rfl := Option.some.inj stepped
      exact .handles created here
    all_goals cases stepped

end ClientThreads

/-- The writer has the lock and is about to test. -/
def WriteThreadPhase.tests : WriteThreadPhase → Bool
  | testing => true
  | _ => false

/-- The writer is in `pthread_cond_wait`. -/
def WriteThreadPhase.waits : WriteThreadPhase → Bool
  | waiting => true
  | _ => false

/-- The reader has the lock. -/
def ReadThreadPhase.holds : ReadThreadPhase → Bool
  | clearing | unlocking => true
  | _ => false

namespace ClientThreads

/-- The lock is with the thread that stands behind it. -/
structure Locked (client : ClientThreads) : Prop where
  /-- A writer that is resolved to wait has the lock. -/
  sound : client.response.Sound
  /-- The reader never waits. -/
  outside : client.response.phase .reader = .outside
  /-- The writer has the lock for its test and until it sleeps. -/
  writer : client.response.holder = some .writer ↔
    client.writer.tests = true ∨ client.response.phase .writer = .resolved
  /-- The reader has the lock while it clears the flag. -/
  reader : client.response.holder = some .reader ↔ client.reader.holds = true
  /-- The writer waits for the condition in `pthread_cond_wait`. -/
  waits : client.writer.waits = true ↔ client.response.phase .writer ≠ .outside

/-- A writer that goes on with a command is outside the lock. -/
theorem command_idle (client : ClientThreads) (message : Received) :
    (client.command message).writer.tests = false ∧
      (client.command message).writer.waits = false := by
  unfold command
  dsimp only
  split <;> exact ⟨rfl, rfl⟩

/-- At the start nobody has the lock. -/
theorem locked_start : start.Locked where
  sound := Condition.sound_start
  outside := rfl
  writer := by decide
  reader := by decide
  waits := by decide

namespace Locked

variable {client after : ClientThreads}

/-- A step outside the lock. -/
theorem stays (locked : client.Locked) (response : after.response = client.response)
    (tests : after.writer.tests = client.writer.tests)
    (waits : after.writer.waits = client.writer.waits)
    (holds : after.reader.holds = client.reader.holds) : after.Locked := by
  constructor
  · rw [response]
    exact locked.sound
  · rw [response]
    exact locked.outside
  · rw [response, tests]
    exact locked.writer
  · rw [response, holds]
    exact locked.reader
  · rw [response, waits]
    exact locked.waits

/-- The reader's hold on the lock is known from the holder. -/
theorem reader_idle (locked : client.Locked) {holder : Option ClientThread}
    (held : client.response.holder = holder) (other : holder ≠ some .reader) :
    client.reader.holds = false := by
  rw [← Bool.not_eq_true, ← locked.reader, held]
  exact other

/-- The writer's place is known from the holder. -/
theorem writer_idle (locked : client.Locked) {holder : Option ClientThread}
    (held : client.response.holder = holder) (other : holder ≠ some .writer) :
    client.writer.tests = false ∧ client.response.phase .writer ≠ .resolved := by
  rw [← Bool.not_eq_true, ← not_or, ← locked.writer, held]
  exact other

/-- A call of the writer. -/
theorem next_writer (locked : client.Locked) {call : ConditionCall}
    {response : Condition ClientThread}
    (called : client.response.next .writer call = some response) {writer : WriteThreadPhase}
    (holds : response.holder = some .writer ↔
      writer.tests = true ∨ response.phase .writer = .resolved)
    (waits : writer.waits = true ↔ response.phase .writer ≠ .outside) :
    Locked { client with response, writer } := by
  refine ⟨locked.sound.next called, ?_, holds, ?_, waits⟩
  · rw [Condition.next_other called (by decide)]
    exact locked.outside
  · show response.holder = some .reader ↔ client.reader.holds = true
    have other : client.reader.holds = false ∧ response.holder ≠ some .reader := by
      obtain ⟨-, held, rfl⟩ | ⟨-, held, rfl⟩ | ⟨-, held, rfl⟩ | ⟨-, held, rfl⟩ :=
        Condition.next_cases called
      · exact ⟨locked.reader_idle held (by simp), by simp⟩
      · exact ⟨locked.reader_idle held (by simp), by simp⟩
      · exact ⟨locked.reader_idle held (by simp), by simp⟩
      · exact ⟨locked.reader_idle held (by simp), by simp⟩
    exact iff_of_false other.2 (by simp [other.1])

/-- A call of the reader while the writer is outside the lock. -/
theorem next_reader (locked : client.Locked) {call : ConditionCall}
    {response : Condition ClientThread}
    (called : client.response.next .reader call = some response)
    (idle : client.writer.tests = false ∧ client.response.phase .writer ≠ .resolved)
    (other : response.holder ≠ some .writer) {reader : ReadThreadPhase}
    (holds : response.holder = some .reader ↔ reader.holds = true)
    (outside : response.phase .reader = .outside) :
    Locked { client with response, reader } := by
  have phase : response.phase .writer = client.response.phase .writer :=
    Condition.next_other called (by decide)
  refine ⟨locked.sound.next called, outside, ?_, holds, ?_⟩
  · show response.holder = some .writer ↔
      client.writer.tests = true ∨ response.phase .writer = .resolved
    rw [phase]
    exact iff_of_false other (by simp [idle])
  · show client.writer.waits = true ↔ response.phase .writer ≠ .outside
    rw [phase]
    exact locked.waits

/-- Every step of the writer. -/
theorem writes {step : WriteThreadStep} (locked : client.Locked)
    (writes : client.Writes step after) : after.Locked := by
  cases writes with
  | ends here exits =>
    rcases here with here | here
    · exact locked.stays rfl (by rw [here]; rfl) (by rw [here]; rfl) rfl
    · exact locked.stays rfl (by rw [here]; rfl) (by rw [here]; rfl) rfl
  | starts here | prompts here | counts here | marks here | sends here | quits _ here
  | skips _ here | refuses _ here | records _ here =>
    exact locked.stays rfl (by rw [here]; rfl) (by rw [here]; rfl) rfl
  | commands _ here =>
    obtain ⟨tests, waits⟩ := client.command_idle (commandMessage _ _)
    exact locked.stays rfl (tests.trans (by rw [here]; rfl)) (waits.trans (by rw [here]; rfl)) rfl
  | writes here made =>
    obtain ⟨tests, waits⟩ := { client with isWritingContent := false }.command_idle _
    exact locked.stays rfl (tests.trans (by rw [here]; rfl)) (waits.trans (by rw [here]; rfl)) rfl
  | locks here taken =>
    obtain ⟨-, rfl⟩ := Condition.lock_eq_some.mp taken
    exact locked.next_writer taken (by simp [WriteThreadPhase.tests])
      (by simp [WriteThreadPhase.waits])
  | resolves here waits stays resolved =>
    obtain ⟨-, rfl⟩ := Condition.resolve_eq_some.mp resolved
    exact locked.next_writer resolved (by simp) (by simp [WriteThreadPhase.waits])
  | unlocks here ready freed =>
    obtain ⟨⟨-, phase⟩, rfl⟩ := Condition.unlock_eq_some.mp freed
    exact locked.next_writer freed (by simp [WriteThreadPhase.tests, phase])
      (by simp [WriteThreadPhase.waits, phase])
  | sleeps here resolved slept =>
    obtain ⟨-, rfl⟩ := Condition.sleep_eq_some.mp slept
    exact locked.next_writer slept (by simp [WriteThreadPhase.tests])
      (by simp [WriteThreadPhase.waits])

/-- Waking the writer. -/
theorem wakeAll (locked : client.Locked) {reader : ReadThreadPhase}
    (holds : reader.holds = client.reader.holds) :
    Locked { client with response := client.response.wakeAll, reader } := by
  have phase : (client.response.wakeAll.phase .writer = .outside ↔
      client.response.phase .writer = .outside) ∧
      (client.response.wakeAll.phase .writer = .resolved ↔
        client.response.phase .writer = .resolved) := by
    unfold Condition.wakeAll
    dsimp only
    split
    · rename_i asleep
      simp [asleep]
    · simp
  refine ⟨locked.sound.wakeAll, ?_, ?_, ?_, ?_⟩
  · show client.response.wakeAll.phase .reader = .outside
    simp [Condition.wakeAll, locked.outside]
  · show client.response.holder = some .writer ↔ _
    rw [locked.writer]
    simp only [phase.2]
  · show client.response.holder = some .reader ↔ reader.holds = true
    rw [locked.reader, holds]
  · show client.writer.waits = true ↔ _
    rw [locked.waits]
    simp only [ne_eq, phase.1]

/-- Every step of the reader. -/
theorem reads {step : ReadThreadStep} (locked : client.Locked) (reads : client.Reads step after) :
    after.Locked := by
  cases reads with
  | ends here | starts here | receives here | fails here =>
    exact locked.stays rfl rfl rfl (by rw [here]; rfl)
  | handles created here =>
    refine locked.stays rfl rfl rfl ?_
    rw [here]
    unfold handled
    dsimp only
    split <;> rfl
  | alarms here =>
    exact locked.wakeAll (by rw [here]; rfl)
  | clears here =>
    have woken := locked.wakeAll (show ReadThreadPhase.unlocking.holds = client.reader.holds by
      rw [here]; rfl)
    exact woken.stays rfl rfl rfl rfl
  | locks here taken =>
    obtain ⟨⟨free, -⟩, rfl⟩ := Condition.lock_eq_some.mp taken
    exact locked.next_reader taken (locked.writer_idle free (by simp)) (by simp)
      (by simp [ReadThreadPhase.holds]) (by simp)
  | unlocks here freed =>
    obtain ⟨⟨held, outside⟩, rfl⟩ := Condition.unlock_eq_some.mp freed
    exact locked.next_reader freed (locked.writer_idle held (by simp)) (by simp)
      (by simp [ReadThreadPhase.holds]) outside

/-- Every step. -/
theorem next {step : ClientStep} (locked : client.Locked) (stepped : client.next step = some after) :
    after.Locked := by
  cases step with
  | writer step => exact locked.writes (writes_of_next stepped)
  | reader step => exact locked.reads (reads_of_next stepped)
  | wake =>
    obtain ⟨response, woken, rfl⟩ := Option.map_eq_some_iff.mp stepped
    obtain ⟨asleep, same⟩ := Condition.wake_eq_some.mp woken
    subst same
    refine ⟨locked.sound.wake woken, ?_, ?_, locked.reader, ?_⟩
    · rw [← locked.outside]
      exact Condition.enter_other _ (show ClientThread.reader ≠ .writer by decide) .woken
    · rw [locked.writer]
      simp [asleep]
    · rw [locked.waits]
      simp [asleep]
  | finish index =>
    obtain ⟨transfer, -, rfl⟩ := Option.map_eq_some_iff.mp stepped
    exact locked.stays rfl rfl rfl rfl

end Locked

end ClientThreads

/-- The writer is between its prompt and the mark of the command typed there. -/
def WriteThreadPhase.prepares : WriteThreadPhase → Bool
  | prompting | recording _ | counting _ | marking _ => true
  | _ => false

/-- What an event makes of `waiting_for_response`. -/
def ClientEvent.waits (event : ClientEvent) (waits : Bool) : Bool :=
  match event with
  | marked background => !background
  | cleared => false
  | _ => waits

/-- The event is one of a writer that does not wait. -/
def ClientEvent.ready : ClientEvent → Bool
  | prompted | marked _ => true
  | _ => false

/-- The flag after the events. -/
def waitsAfter (log : List ClientEvent) : Bool := log.foldl (fun waits event => event.waits waits) false

/-- The writer prompts and marks its commands only when it does not wait. -/
def Orderly : Bool → List ClientEvent → Prop
  | _, [] => True
  | waits, event :: later => (event.ready = true → waits = false) ∧ Orderly (event.waits waits) later

/-- Events after others start with the flag that those leave. -/
theorem orderly_append (waits : Bool) (before later : List ClientEvent) :
    Orderly waits (before ++ later) ↔ Orderly waits before ∧
      Orderly (before.foldl (fun waits event => event.waits waits) waits) later := by
  induction before generalizing waits with
  | nil => exact (true_and _).to_iff.symm
  | cons event before ih =>
    show (_ ∧ Orderly _ (before ++ later)) ↔ (_ ∧ Orderly _ before) ∧ _
    rw [ih, and_assoc]
    rfl

/-- One more event changes the flag. -/
theorem waitsAfter_append (log : List ClientEvent) (event : ClientEvent) :
    waitsAfter (log ++ [event]) = event.waits (waitsAfter log) := by
  unfold waitsAfter
  rw [List.foldl_append]
  rfl

/-- One more event is in order if the flag allows it. -/
theorem Orderly.append {log : List ClientEvent} {event : ClientEvent} (orderly : Orderly false log)
    (free : event.ready = true → waitsAfter log = false) : Orderly false (log ++ [event]) :=
  (orderly_append _ _ _).mpr ⟨orderly, free, trivial⟩

/-- Between a set flag and the next event of a writer that does not wait it is cleared. -/
theorem Orderly.cleared {between later : List ClientEvent} {event : ClientEvent}
    (orderly : Orderly true (between ++ event :: later)) (ready : event.ready = true) :
    .cleared ∈ between := by
  induction between with
  | nil => cases orderly.1 ready
  | cons first between ih =>
    obtain ⟨free, orderly⟩ := orderly
    cases first with
    | cleared => exact List.mem_cons_self
    | prompted | marked _ => cases free rfl
    | refused _ | counted | sent _ | received _ | shown _ | finished _ =>
      exact List.mem_cons_of_mem _ (ih orderly)

namespace ClientThreads

/-- The writer goes on only when the flag is clear, and waits only while it is set. -/
structure Patient (client : ClientThreads) : Prop where
  /-- Behind the lock the flag is clear unless the client ends. -/
  passes : client.writer = .passing →
    client.waitingForResponse = false ∨ client.shouldExit = true
  /-- The flag is clear from the prompt on until a command is marked. -/
  prepares : client.writer.prepares = true → client.waitingForResponse = false
  /-- Whoever waits does so while the flag is set. -/
  guarded : client.response.Guarded fun _ => client.waitingForResponse = true
  /-- The flag is the one that the events leave. -/
  flag : waitsAfter client.log = client.waitingForResponse
  /-- The events are in order. -/
  orderly : Orderly false client.log

/-- At the start the flag is clear. -/
theorem patient_start : start.Patient where
  passes here := by cases here
  prepares here := by cases here
  guarded := Condition.guarded_start _
  flag := rfl
  orderly := trivial

namespace Patient

variable {client after : ClientThreads}

/-- A command that has been read is marked while the flag is clear. -/
theorem command (patient : client.Patient) (free : client.waitingForResponse = false)
    (message : Received) : (client.command message).Patient where
  passes here := by
    unfold ClientThreads.command at here
    dsimp only at here
    split at here <;> cases here
  prepares _ := free
  guarded := patient.guarded
  flag := patient.flag
  orderly := patient.orderly

/-- Every step of the writer. -/
theorem writes {step : WriteThreadStep} (patient : client.Patient)
    (writes : client.Writes step after) : after.Patient := by
  obtain ⟨passes, prepares, guarded, flag, orderly⟩ := patient
  cases writes with
  | ends here exits => exact ⟨by simp, by simp [WriteThreadPhase.prepares], guarded, flag, orderly⟩
  | starts here stays => exact ⟨by simp, by simp [WriteThreadPhase.prepares], guarded, flag, orderly⟩
  | locks here taken =>
    exact ⟨by simp, by simp [WriteThreadPhase.prepares], guarded.next taken (by simp), flag, orderly⟩
  | resolves here waits stays resolved =>
    exact ⟨by simp, by simp [WriteThreadPhase.prepares], guarded.next resolved fun _ => waits, flag,
      orderly⟩
  | unlocks here ready freed =>
    exact ⟨fun _ => ready, by simp [WriteThreadPhase.prepares], guarded.next freed (by simp), flag,
      orderly⟩
  | sleeps here resolved slept =>
    exact ⟨by simp, by simp [WriteThreadPhase.prepares], guarded.next slept (by simp), flag, orderly⟩
  | prompts here stays =>
    have free : client.waitingForResponse = false :=
      (passes here).resolve_right (by simp [stays])
    refine ⟨by simp, fun _ => free, guarded, ?_, orderly.append fun _ => flag.trans free⟩
    rw [waitsAfter_append]
    exact flag
  | counts here =>
    have free := prepares (by rw [here]; rfl)
    refine ⟨by simp, fun _ => free, guarded, ?_, orderly.append (by simp [ClientEvent.ready])⟩
    rw [waitsAfter_append]
    exact flag
  | @marks message here free =>
    have clear := prepares (by rw [here]; rfl)
    refine ⟨by simp, by simp [WriteThreadPhase.prepares], fun waiter waits => ?_, ?_,
      orderly.append fun _ => flag.trans clear⟩
    · exact absurd (guarded waiter waits) (by simp [clear])
    · rw [waitsAfter_append]
      rfl
  | sends here =>
    refine ⟨by simp, by simp [WriteThreadPhase.prepares], guarded, ?_,
      orderly.append (by simp [ClientEvent.ready])⟩
    rw [waitsAfter_append]
    exact flag
  | quits _ here => exact ⟨by simp, by simp [WriteThreadPhase.prepares], guarded, flag, orderly⟩
  | skips _ here => exact ⟨by simp, by simp [WriteThreadPhase.prepares], guarded, flag, orderly⟩
  | refuses _ here =>
    refine ⟨by simp, by simp [WriteThreadPhase.prepares], guarded, ?_,
      orderly.append (by simp [ClientEvent.ready])⟩
    rw [waitsAfter_append]
    exact flag
  | records _ here =>
    exact ⟨by simp, fun _ => prepares (by rw [here]; rfl), guarded, flag, orderly⟩
  | commands _ here =>
    have free := prepares (by rw [here]; rfl)
    exact command ⟨passes, prepares, guarded, flag, orderly⟩ free (commandMessage _ _)
  | writes here made =>
    have free := prepares (by rw [here]; rfl)
    have quiet : { client with isWritingContent := false }.Patient :=
      ⟨passes, prepares, guarded, flag, orderly⟩
    exact quiet.command free _

/-- Every step of the reader. -/
theorem reads {step : ReadThreadStep} (patient : client.Patient) (locked : client.Locked)
    (reads : client.Reads step after) : after.Patient := by
  obtain ⟨passes, prepares, guarded, flag, orderly⟩ := patient
  cases reads with
  | ends here => exact ⟨passes, prepares, guarded, flag, orderly⟩
  | starts here => exact ⟨passes, prepares, guarded, flag, orderly⟩
  | fails here => exact ⟨fun _ => .inr rfl, prepares, guarded, flag, orderly⟩
  | receives here =>
    refine ⟨passes, prepares, guarded, ?_, orderly.append (by simp [ClientEvent.ready])⟩
    rw [waitsAfter_append]
    exact flag
  | alarms here => exact ⟨passes, prepares, guarded.wakeAll, flag, orderly⟩
  | @handles message created here =>
    refine ⟨passes, prepares, guarded, ?_, ?_⟩
    · show waitsAfter (client.log ++ ((message.output client.isWritingContent).map .shown).toList) = _
      cases message.output client.isWritingContent with
      | none => exact (congrArg waitsAfter (List.append_nil _)).trans flag
      | some output => exact (waitsAfter_append _ _).trans flag
    · show Orderly false (client.log ++
        ((message.output client.isWritingContent).map .shown).toList)
      cases message.output client.isWritingContent with
      | none => exact (List.append_nil client.log).symm ▸ orderly
      | some output => exact orderly.append (by simp [ClientEvent.ready])
  | locks here taken => exact ⟨passes, prepares, guarded.next taken (by simp), flag, orderly⟩
  | unlocks here freed => exact ⟨passes, prepares, guarded.next freed (by simp), flag, orderly⟩
  | clears here =>
    have held := locked.reader.mpr (by rw [here]; rfl)
    refine ⟨fun _ => .inl rfl, fun _ => rfl,
      locked.sound.guarded_wakeAll held locked.outside _, ?_,
      orderly.append (by simp [ClientEvent.ready])⟩
    rw [waitsAfter_append]
    rfl

/-- Every step. -/
theorem next {step : ClientStep} (patient : client.Patient) (locked : client.Locked)
    (stepped : client.next step = some after) : after.Patient := by
  cases step with
  | writer step => exact patient.writes (writes_of_next stepped)
  | reader step => exact patient.reads locked (reads_of_next stepped)
  | wake =>
    obtain ⟨response, woken, rfl⟩ := Option.map_eq_some_iff.mp stepped
    exact ⟨patient.passes, patient.prepares, patient.guarded.wake woken, patient.flag,
      patient.orderly⟩
  | finish index =>
    obtain ⟨transfer, -, rfl⟩ := Option.map_eq_some_iff.mp stepped
    refine ⟨patient.passes, patient.prepares, patient.guarded, ?_,
      patient.orderly.append (by simp [ClientEvent.ready])⟩
    rw [waitsAfter_append]
    exact patient.flag

end Patient

/-- The invariants hold in every run. -/
theorem patient_run {schedule : List ClientStep} {client : ClientThreads}
    (run : runFrom next start schedule = some client) : client.Locked ∧ client.Patient := by
  refine run_invariant (fun client : ClientThreads => client.Locked ∧ client.Patient)
    (fun client step after holds stepped => ?_) ⟨locked_start, patient_start⟩ run
  exact ⟨holds.1.next stepped, holds.2.next holds.1 stepped⟩

/-- In every run, whatever the server sends, the writer sleeps only while its flag is set, and
between the mark of a foreground command and whatever the writer prompts for or marks next, the reader
has cleared the flag. -/
theorem waits_for_response (schedule : List ClientStep) (client : ClientThreads)
    (run : runFrom next start schedule = some client) :
    (client.response.phase .writer = .asleep → client.waitingForResponse = true) ∧
      ∀ before between later event,
        client.log = before ++ .marked false :: between ++ event :: later →
        (event = .prompted ∨ ∃ background, event = .marked background) → .cleared ∈ between := by
  obtain ⟨-, patient⟩ := patient_run run
  constructor
  · intro asleep
    exact patient.guarded .writer (by rw [asleep]; rfl)
  · intro before between later event events next
    have orderly := patient.orderly
    rw [events, List.append_assoc, orderly_append] at orderly
    refine orderly.2.2.cleared ?_
    obtain rfl | ⟨background, rfl⟩ := next
    · rfl
    · rfl

/-- A command that asks for a listing. -/
def lsLine : CommandLine := ⟨str "ls .", by decide, by decide, by decide⟩

/-- The answer to it. -/
def emptyListing : Received := textMessage .text 0 (str "Directory is empty") 0 (.zero 3)

/-- The writer sends the command and falls asleep, the reader reads the answer and wakes the writer,
which prompts for the next command. -/
def lsRun : List ClientStep :=
  List.replicate 4 (.writer .advance) ++ [.writer (.type (some lsLine) (.zero 3))] ++
    List.replicate 6 (.writer .advance) ++
    [.reader .advance, .reader (.receive emptyListing), .reader (.handle true)] ++
    List.replicate 3 (.reader .advance) ++ List.replicate 3 (.writer .advance)

/-- The client comes back to its prompt. -/
theorem waits_for_response_ls : ∃ client, runFrom next start lsRun = some client ∧
    ClientEvent.cleared ∈ (client.log.drop 2).take 4 := by
  have done : (runFrom next start lsRun).isSome = true := by decide +kernel
  have run : runFrom next start lsRun = some ((runFrom next start lsRun).get done) := by simp
  refine ⟨_, run, ?_⟩
  exact (waits_for_response lsRun _ run).2 [.prompted] _ [] .prompted rfl (.inl rfl)

end ClientThreads

end FileServer
