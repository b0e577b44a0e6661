import FileServer.Verif.ClientThreads

/-!
# The end of the connection

The reader sets `should_exit` and wakes the writer without the lock. The writer sleeps through the
alarm exactly if it comes between its test and its sleep; otherwise a client that needs neither its
user nor its server to go on has ended or waits for one of them.
-/
namespace FileServer

open FileServer.Lib

namespace ClientThreads

/-- The reader has woken the writer for the end of the connection while the writer, with the lock, was
about to wait. -/
def MissedAlarm (schedule : List ClientStep) : Prop :=
  ∃ before later client, schedule = before ++ .reader .advance :: later ∧
    runFrom next start before = some client ∧ client.reader = .alarming ∧
      client.response.phase .writer = .resolved

/-- An alarm is missed earlier or in the last step. -/
theorem missedAlarm_append {schedule : List ClientStep} {client : ClientThreads}
    (run : runFrom next start schedule = some client) (step : ClientStep) :
    MissedAlarm (schedule ++ [step]) ↔ MissedAlarm schedule ∨ step = .reader .advance ∧
      client.reader = .alarming ∧ client.response.phase .writer = .resolved := by
  constructor
  · rintro ⟨before, later, middle, split, reached, alarming, resolved⟩
    obtain rfl | ⟨last, later, rfl⟩ := later.eq_nil_or_concat'
    · obtain ⟨rfl, same⟩ := List.append_inj' split rfl
      obtain rfl := Option.some.inj (run.symm.trans reached)
      exact Or.inr ⟨List.singleton_inj.mp same, alarming, resolved⟩
    · rw [← List.cons_append, ← List.append_assoc] at split
      obtain ⟨rfl, -⟩ := List.append_inj' split rfl
      exact Or.inl ⟨before, _, middle, rfl, reached, alarming, resolved⟩
  · rintro (⟨before, later, middle, rfl, reached, missed⟩ | ⟨rfl, missed⟩)
    · exact ⟨before, later ++ [step], middle, by simp, reached, missed⟩
    · exact ⟨schedule, [], client, rfl, run, missed⟩

/-- What a step of the writer does to its wait. -/
theorem Writes.waits {client after : ClientThreads} {step : WriteThreadStep}
    (writes : client.Writes step after) (locked : client.Locked) :
    ((after.response.phase .writer).waits = true → after.shouldExit = true →
        (client.response.phase .writer).waits = true ∧ client.shouldExit = true) ∧
      ((client.response.phase .writer).waits = true →
        (after.response.phase .writer).waits = true) := by
  cases writes with
  | ends here | starts here | prompts here | counts here | marks here | sends here | skips _ here
  | refuses _ here | records _ here =>
    exact ⟨fun waits exits => ⟨waits, exits⟩, id⟩
  | commands _ here => exact ⟨fun waits exits => ⟨waits, exits⟩, id⟩
  | writes here => exact ⟨fun waits exits => ⟨waits, exits⟩, id⟩
  | quits _ here =>
    have outside : client.response.phase .writer = .outside := by
      by_contra inside
      have waits := locked.waits.mpr inside
      rw [here] at waits
      cases waits
    refine ⟨fun waits _ => ?_, id⟩
    have before : (client.response.phase .writer).waits = true := waits
    rw [outside] at before
    cases before
  | locks here taken =>
    obtain ⟨⟨-, phase⟩, rfl⟩ := Condition.lock_eq_some.mp taken
    refine ⟨fun waits => ?_, fun waits => ?_⟩
    · simp [WaitPhase.waits] at waits
    · rcases phase with phase | phase
      · rw [phase] at waits
        cases waits
      · rw [phase] at waits
        cases waits
  | resolves here waits stays resolved =>
    obtain ⟨⟨-, phase⟩, rfl⟩ := Condition.resolve_eq_some.mp resolved
    refine ⟨fun _ exits => ?_, fun waits => ?_⟩
    · exact absurd (stays.symm.trans exits) Bool.false_ne_true
    · rw [phase] at waits
      cases waits
  | unlocks here ready freed =>
    obtain ⟨-, rfl⟩ := Condition.unlock_eq_some.mp freed
    exact ⟨fun waits exits => ⟨waits, exits⟩, id⟩
  | sleeps here resolved slept =>
    obtain ⟨-, rfl⟩ := Condition.sleep_eq_some.mp slept
    refine ⟨fun _ exits => ⟨?_, exits⟩, fun _ => ?_⟩
    · rw [resolved]
      rfl
    · simp [WaitPhase.waits]

/-- What a step of the writer leaves alone. -/
theorem Writes.reader {client after : ClientThreads} {step : WriteThreadStep}
    (writes : client.Writes step after) :
    after.reader = client.reader ∧ (client.shouldExit = true → after.shouldExit = true) := by
  cases writes with
  | quits _ here => exact ⟨rfl, fun _ => rfl⟩
  | _ => exact ⟨rfl, id⟩

/-- What waking everyone does to the wait of the writer. -/
theorem waits_wakeAll (response : Condition ClientThread) :
    (response.wakeAll.phase .writer).waits = true ↔ response.phase .writer = .resolved := by
  unfold Condition.wakeAll
  dsimp only
  split
  · rename_i asleep
    simp [asleep, WaitPhase.waits]
  · rename_i awake
    cases phase : response.phase .writer <;> simp_all [WaitPhase.waits]

/-- Who waits, as far as the end of the connection goes. -/
structure Alerted (schedule : List ClientStep) (client : ClientThreads) : Prop where
  /-- The reader ends when the client does. -/
  ends : client.reader = .alarming ∨ client.reader = .ended → client.shouldExit = true
  /-- A writer that waits though the client ends is about to be woken or has missed the alarm. -/
  alarmed : (client.response.phase .writer).waits = true → client.shouldExit = true →
    client.reader = .alarming ∨ MissedAlarm schedule
  /-- A writer that has missed the alarm waits and nobody is left to wake it. -/
  stranded : MissedAlarm schedule →
    (client.response.phase .writer).waits = true ∧ client.reader = .ended

/-- Nobody waits at the start. -/
theorem alerted_start : Alerted [] start where
  ends := by simp [start]
  alarmed := by simp [start, Condition.start, WaitPhase.waits]
  stranded := by
    rintro ⟨before, later, -, split, -⟩
    exact absurd split.symm (by simp)

namespace Alerted

variable {schedule : List ClientStep} {client after : ClientThreads}

/-- A step that is no alarm misses none. -/
theorem quiet_step (alerted : Alerted schedule client)
    (run : runFrom next start schedule = some client) {step : ClientStep}
    (other : client.reader = .alarming → step ≠ .reader .advance)
    (ends : after.reader = .alarming ∨ after.reader = .ended → after.shouldExit = true)
    (alarmed : (after.response.phase .writer).waits = true → after.shouldExit = true →
      after.reader = .alarming ∨ MissedAlarm schedule)
    (stranded : client.reader = .ended → (client.response.phase .writer).waits = true →
      (after.response.phase .writer).waits = true ∧ after.reader = .ended) :
    Alerted (schedule ++ [step]) after := by
  have missed := missedAlarm_append run step
  refine ⟨ends, fun waits exits => ?_, fun last => ?_⟩
  · exact (alarmed waits exits).imp_right fun earlier => missed.mpr (.inl earlier)
  · rcases missed.mp last with earlier | ⟨same, alarming, -⟩
    · exact stranded (alerted.stranded earlier).2 (alerted.stranded earlier).1
    · exact absurd same (other alarming)

/-- Every step but a wake-up for no reason. -/
theorem next {step : ClientStep} (alerted : Alerted schedule client) (locked : client.Locked)
    (run : runFrom ClientThreads.next start schedule = some client) (calm : step ≠ .wake)
    (stepped : client.next step = some after) : Alerted (schedule ++ [step]) after := by
  cases step with
  | writer step =>
    have writes := writes_of_next stepped
    obtain ⟨started, goes⟩ := writes.waits locked
    obtain ⟨reader, exits⟩ := writes.reader
    refine alerted.quiet_step run (fun _ => by simp) ?_ ?_ ?_
    · rw [reader]
      exact fun ended => exits (alerted.ends ended)
    · intro waits ending
      rw [reader]
      obtain ⟨before, exiting⟩ := started waits ending
      exact alerted.alarmed before exiting
    · rw [reader]
      exact fun ended waits => ⟨goes waits, ended⟩
  | reader step =>
    cases reads_of_next stepped with
    | ends here exits =>
      exact alerted.quiet_step run (by simp [here]) (fun _ => exits)
        (fun waits exits => (alerted.alarmed waits exits).imp_left (by simp [here])) (by simp [here])
    | starts here stays =>
      exact alerted.quiet_step run (by simp [here]) (by simp) (by simp [stays]) (by simp [here])
    | receives here fits =>
      exact alerted.quiet_step run (by simp) (by simp)
        (fun waits exits => (alerted.alarmed waits exits).imp_left (by simp [here])) (by simp [here])
    | fails here =>
      exact alerted.quiet_step run (by simp) (fun _ => rfl) (fun _ _ => .inl rfl) (by simp [here])
    | handles created here =>
      refine alerted.quiet_step run (by simp) ?_
        (fun waits exits => (alerted.alarmed waits exits).imp_left (by simp [here])) (by simp [here])
      unfold handled
      dsimp only
      split <;> simp
    | locks here taken =>
      obtain ⟨-, rfl⟩ := Condition.lock_eq_some.mp taken
      refine alerted.quiet_step run (by simp [here]) (by simp) (fun waits exits => ?_) (by simp [here])
      have before : (client.response.phase .writer).waits = true := by
        rwa [← Condition.next_other taken (show ClientThread.writer ≠ .reader by decide)]
      exact (alerted.alarmed before exits).imp_left (by simp [here])
    | unlocks here freed =>
      obtain ⟨-, rfl⟩ := Condition.unlock_eq_some.mp freed
      exact alerted.quiet_step run (by simp [here]) (by simp)
        (fun waits exits => (alerted.alarmed waits exits).imp_left (by simp [here])) (by simp [here])
    | clears here =>
      refine alerted.quiet_step run (by simp [here]) (by simp) (fun waits _ => ?_) (by simp [here])
      -- the reader has the lock, so the writer is not about to wait
      have held := locked.reader.mpr (by rw [here]; rfl)
      have resolved := (waits_wakeAll client.response).mp waits
      exact absurd (held.symm.trans (locked.sound _ resolved)) (by simp)
    | alarms here =>
      have missed := missedAlarm_append run (.reader .advance)
      refine ⟨fun _ => alerted.ends (.inl here), fun waits _ => ?_, fun last => ?_⟩
      · have resolved := (waits_wakeAll client.response).mp waits
        exact .inr (missed.mpr (.inr ⟨rfl, here, resolved⟩))
      · rcases missed.mp last with earlier | ⟨-, -, resolved⟩
        · exact absurd (here.symm.trans (alerted.stranded earlier).2) (by simp)
        · exact ⟨(waits_wakeAll client.response).mpr resolved, rfl⟩
  | wake => exact absurd rfl calm
  | finish index =>
    obtain ⟨transfer, -, rfl⟩ := Option.map_eq_some_iff.mp stepped
    exact alerted.quiet_step run (fun _ => by simp) alerted.ends alerted.alarmed
      fun ended waits => ⟨waits, ended⟩

end Alerted

/-- No thread of the client can take a step that needs neither its user nor its server. -/
structure AtRest (client : ClientThreads) : Prop where
  /-- The writer cannot go on. -/
  writer : client.advanceWriter = none
  /-- The reader cannot go on. -/
  reader : client.advanceReader = none
  /-- The reader has no message to print. -/
  handled : ∀ message, client.reader ≠ .handling message

namespace AtRest

variable {client : ClientThreads}

/-- At rest the reader does not have the lock. -/
theorem reader_free (rest : client.AtRest) (locked : client.Locked) :
    client.reader.holds = false := by
  cases here : client.reader with
  | unlocking =>
    have stuck := rest.reader
    have held := locked.reader.mpr (by rw [here]; rfl)
    unfold advanceReader at stuck
    rw [here] at stuck
    dsimp only at stuck
    rw [Option.map_eq_none_iff] at stuck
    rw [Condition.unlock_eq_some.mpr ⟨⟨held, locked.outside⟩, rfl⟩] at stuck
    cases stuck
  | clearing =>
    have stuck := rest.reader
    unfold advanceReader at stuck
    rw [here] at stuck
    cases stuck
  | _ => rfl

/-- At rest a writer that is neither behind the lock nor about to wait finds it free. -/
theorem free (rest : client.AtRest) (locked : client.Locked) (tests : client.writer.tests = false)
    (resolved : client.response.phase .writer ≠ .resolved) : client.response.holder = none := by
  cases held : client.response.holder with
  | none => rfl
  | some thread =>
    cases thread with
    | reader =>
      have holds := locked.reader.mp held
      rw [rest.reader_free locked] at holds
      cases holds
    | writer =>
      rcases locked.writer.mp held with testing | about
      · rw [tests] at testing
        cases testing
      · exact absurd about resolved

/-- At rest the writer is with its user, has ended or sleeps. -/
theorem writer_cases (rest : client.AtRest) (locked : client.Locked) :
    client.writer = .prompting ∨ (∃ line, client.writer = .recording line) ∨
      client.writer = .ended ∨ client.response.phase .writer = .asleep := by
  have stuck := rest.writer
  unfold advanceWriter at stuck
  have outside : client.writer.waits = false → client.response.phase .writer = .outside := by
    intro idle
    by_contra inside
    exact absurd (locked.waits.mpr inside) (by simp [idle])
  cases here : client.writer with
  | prompting => exact Or.inl rfl
  | recording line => exact Or.inr (Or.inl ⟨line, rfl⟩)
  | ended => exact Or.inr (Or.inr (Or.inl rfl))
  | starting | passing | counting _ | sending _ =>
    rw [here] at stuck
    cases stuck
  | marking message =>
    have phase := outside (by rw [here]; rfl)
    have free := rest.free locked (by rw [here]; rfl) (by simp [phase])
    rw [here] at stuck
    dsimp only at stuck
    rw [if_pos free] at stuck
    cases stuck
  | locking =>
    have phase := outside (by rw [here]; rfl)
    have free := rest.free locked (by rw [here]; rfl) (by simp [phase])
    rw [here] at stuck
    dsimp only at stuck
    rw [Condition.lock_eq_some.mpr ⟨⟨free, .inl phase⟩, rfl⟩] at stuck
    cases stuck
  | testing =>
    have phase := outside (by rw [here]; rfl)
    have held := locked.writer.mpr (.inl (by rw [here]; rfl))
    rw [here] at stuck
    dsimp only at stuck
    split at stuck
    · rw [Condition.resolve_eq_some.mpr ⟨⟨held, phase⟩, rfl⟩] at stuck
      cases stuck
    · rw [Condition.unlock_eq_some.mpr ⟨⟨held, phase⟩, rfl⟩] at stuck
      cases stuck
  | waiting =>
    refine Or.inr (Or.inr (Or.inr ?_))
    rw [here] at stuck
    dsimp only at stuck
    cases phase : client.response.phase .writer with
    | asleep => rfl
    | outside =>
      have waits := locked.waits.mp (by rw [here]; rfl)
      exact absurd phase waits
    | resolved =>
      have held := locked.sound _ phase
      rw [phase] at stuck
      dsimp only at stuck
      rw [Condition.sleep_eq_some.mpr ⟨⟨held, phase⟩, rfl⟩] at stuck
      cases stuck
    | woken =>
      have free := rest.free locked (by rw [here]; rfl) (by simp [phase])
      rw [phase] at stuck
      dsimp only at stuck
      rw [Condition.lock_eq_some.mpr ⟨⟨free, .inr phase⟩, rfl⟩] at stuck
      cases stuck

/-- At rest with a sleeping writer the reader reads or has ended. -/
theorem reader_cases (rest : client.AtRest) (locked : client.Locked)
    (asleep : client.response.phase .writer = .asleep) :
    client.reader = .reading ∨ client.reader = .ended := by
  have stuck := rest.reader
  unfold advanceReader at stuck
  cases here : client.reader with
  | reading => exact Or.inl rfl
  | ended => exact Or.inr rfl
  | handling message => exact absurd here (rest.handled message)
  | starting | clearing | alarming =>
    rw [here] at stuck
    cases stuck
  | unlocking =>
    have idle := rest.reader_free locked
    rw [here] at idle
    cases idle
  | locking =>
    have tests : client.writer.tests = false := by
      have waits := locked.waits.mpr (by simp [asleep])
      cases phase : client.writer <;> simp_all [WriteThreadPhase.waits, WriteThreadPhase.tests]
    have free := rest.free locked tests (by simp [asleep])
    rw [here] at stuck
    dsimp only at stuck
    rw [Condition.lock_eq_some.mpr ⟨⟨free, .inl locked.outside⟩, rfl⟩] at stuck
    cases stuck

end AtRest

/-- What the end of the connection does to a run in which nobody wakes up for no reason. -/
theorem alerted_run {schedule : List ClientStep} {client : ClientThreads}
    (run : runFrom next start schedule = some client) (calm : ∀ step ∈ schedule, step ≠ .wake) :
    Alerted schedule client := by
  refine run_history (fun schedule (client : ClientThreads) =>
    (∀ step ∈ schedule, step ≠ ClientStep.wake) → Alerted schedule client)
    (fun schedule client step after reached holds stepped calm => ?_) (fun _ => alerted_start) run calm
  have earlier := holds fun step member => calm step (List.mem_append_left _ member)
  exact earlier.next (patient_run reached).1 reached
    (calm step (List.mem_append_right _ (List.mem_singleton.mpr rfl))) stepped

end ClientThreads

end FileServer
