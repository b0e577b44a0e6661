import FileServer.Lib.Level
import FileServer.Verif.ClientThreads

/-!
# Leaving the client

`exit` is refused while `bg_ops_count` is positive. The count goes up when a background command is
sent and down when a transfer ends, so it does not tell what is still running: a background command
that starts no transfer is counted for ever, and a foreground transfer is never counted but lowers the
count at its end. The user can leave exactly if since no point more commands have been counted than
transfers have ended.
-/
namespace FileServer

open FileServer.Lib

/-- The event raises `bg_ops_count`. -/
def ClientEvent.counts : ClientEvent → Bool
  | counted => true
  | _ => false

/-- The event lowers `bg_ops_count`. -/
def ClientEvent.finishes : ClientEvent → Bool
  | finished _ => true
  | _ => false

/-- Nothing raises the count and lowers it. -/
theorem ClientEvent.falls_eq (log : List ClientEvent) :
    falls counts finishes log = log.countP finishes := by
  unfold falls
  congr 1
  funext event
  cases event <;> rfl

/-- Since every point the transfers that have ended are as many as the background commands that have
been counted. -/
def Balanced (log : List ClientEvent) : Prop :=
  ∀ tail, tail <:+ log → tail.countP ClientEvent.counts ≤ tail.countP ClientEvent.finishes

namespace ClientThreads

/-- What a step adds to the log, with the count that this leaves. -/
def Logs (client after : ClientThreads) : Prop :=
  ∃ events : List ClientEvent, after.log = client.log ++ events ∧
    after.bgOpsCount =
      events.foldl (levelAfter ClientEvent.counts ClientEvent.finishes) client.bgOpsCount

/-- A step that logs nothing keeps the count. -/
theorem logs_nothing {client after : ClientThreads} (log : after.log = client.log)
    (count : after.bgOpsCount = client.bgOpsCount) : client.Logs after :=
  ⟨[], log.trans (List.append_nil _).symm, count⟩

/-- A step that logs one event. -/
theorem logs_event {client after : ClientThreads} {event : ClientEvent}
    (log : after.log = client.log ++ [event])
    (count : after.bgOpsCount =
      levelAfter ClientEvent.counts ClientEvent.finishes client.bgOpsCount event) :
    client.Logs after :=
  ⟨[event], log, count⟩

/-- Every step of the writer. -/
theorem Writes.logs {client after : ClientThreads} {step : WriteThreadStep}
    (writes : client.Writes step after) : client.Logs after := by
  cases writes with
  | prompts | marks | sends | refuses => exact logs_event rfl rfl
  | counts => exact logs_event rfl rfl
  | _ => exact logs_nothing rfl rfl

/-- Every step of the reader. -/
theorem Reads.logs {client after : ClientThreads} {step : ReadThreadStep}
    (reads : client.Reads step after) : client.Logs after := by
  cases reads with
  | receives | clears => exact logs_event rfl rfl
  | @handles message created here =>
    have log : (client.handled message created).log =
        client.log ++ ((message.output client.isWritingContent).map .shown).toList := rfl
    cases shown : message.output client.isWritingContent with
    | none =>
      rw [shown] at log
      exact logs_nothing (log.trans (List.append_nil _)) rfl
    | some output =>
      rw [shown] at log
      exact logs_event log rfl
  | _ => exact logs_nothing rfl rfl

/-- Every step. -/
theorem logs_next {client after : ClientThreads} {step : ClientStep}
    (stepped : client.next step = some after) : client.Logs after := by
  cases step with
  | writer step => exact (writes_of_next stepped).logs
  | reader step => exact (reads_of_next stepped).logs
  | wake =>
    obtain ⟨response, -, rfl⟩ := Option.map_eq_some_iff.mp stepped
    exact logs_nothing rfl rfl
  | finish index =>
    obtain ⟨transfer, -, rfl⟩ := Option.map_eq_some_iff.mp stepped
    exact logs_event rfl rfl

/-- In every run the count is the one that the events leave. -/
theorem bgOpsCount_run {schedule : List ClientStep} {client : ClientThreads}
    (run : runFrom next start schedule = some client) :
    client.bgOpsCount = level ClientEvent.counts ClientEvent.finishes client.log := by
  refine run_invariant (fun client : ClientThreads =>
    client.bgOpsCount = level ClientEvent.counts ClientEvent.finishes client.log)
    (fun client step after holds stepped => ?_) rfl run
  obtain ⟨events, log, count⟩ := logs_next stepped
  unfold level at holds ⊢
  rw [log, List.foldl_append, ← holds, count]

/-- In every run the count is zero exactly if everything counted has been balanced. -/
theorem balanced_iff {schedule : List ClientStep} {client : ClientThreads}
    (run : runFrom next start schedule = some client) :
    client.bgOpsCount = 0 ↔ Balanced client.log := by
  rw [bgOpsCount_run run, level_eq_zero_iff]
  unfold Balanced
  simp only [ClientEvent.falls_eq]

/-- A transfer has been started while as many transfers ran as were counted. -/
def StartsUncounted (schedule : List ClientStep) : Prop :=
  ∃ before later client message, schedule = before ++ .reader (.handle true) :: later ∧
    runFrom next start before = some client ∧ client.reader = .handling message ∧
      message.transfer.isSome = true ∧ client.bgOpsCount ≤ client.transfers.length

/-- A transfer that has been started uncounted in a run has been so in a longer one. -/
theorem StartsUncounted.append {schedule : List ClientStep} (uncounted : StartsUncounted schedule)
    (step : ClientStep) : StartsUncounted (schedule ++ [step]) := by
  obtain ⟨before, later, client, message, rfl, rest⟩ := uncounted
  exact ⟨before, later ++ [step], client, message, by simp, rest⟩

/-- The writer starts no transfer and lowers no count. -/
theorem Writes.transfers {client after : ClientThreads} {step : WriteThreadStep}
    (writes : client.Writes step after) :
    after.transfers = client.transfers ∧ client.bgOpsCount ≤ after.bgOpsCount := by
  cases writes with
  | counts here => exact ⟨rfl, Nat.le_succ _⟩
  | _ => exact ⟨rfl, le_rfl⟩

/-- In every run, unless a transfer has been started uncounted, no more transfers run than are
counted. -/
theorem transfers_run {schedule : List ClientStep} {client : ClientThreads}
    (run : runFrom next start schedule = some client) :
    StartsUncounted schedule ∨ client.transfers.length ≤ client.bgOpsCount := by
  refine run_history (fun schedule (client : ClientThreads) =>
    StartsUncounted schedule ∨ client.transfers.length ≤ client.bgOpsCount)
    (fun schedule client step after reached holds stepped => ?_) (.inr le_rfl) run
  rcases holds with uncounted | covered
  · exact Or.inl (uncounted.append step)
  cases step with
  | writer step =>
    obtain ⟨transfers, count⟩ := (writes_of_next stepped).transfers
    rw [transfers]
    exact Or.inr (covered.trans count)
  | wake =>
    obtain ⟨response, -, rfl⟩ := Option.map_eq_some_iff.mp stepped
    exact Or.inr covered
  | finish index =>
    obtain ⟨transfer, found, rfl⟩ := Option.map_eq_some_iff.mp stepped
    obtain ⟨bound, -⟩ := List.getElem?_eq_some_iff.mp found
    refine Or.inr ?_
    show (client.transfers.eraseIdx index).length ≤ client.bgOpsCount - 1
    rw [List.length_eraseIdx_of_lt bound]
    omega
  | reader step =>
    have reads := reads_of_next stepped
    cases reads with
    | @handles message created here =>
      by_cases grows : created = true ∧ message.transfer.isSome = true
      · obtain ⟨rfl, starts⟩ := grows
        by_cases room : client.transfers.length < client.bgOpsCount
        · refine Or.inr ?_
          show (client.transfers ++ message.transfer.toList).length ≤ client.bgOpsCount
          rw [List.length_append, Option.length_toList, if_pos starts]
          omega
        · have full : client.bgOpsCount ≤ client.transfers.length := by omega
          exact Or.inl ⟨schedule, [], client, message, rfl, reached, here, starts, full⟩
      · refine Or.inr ?_
        have none : (if created then message.transfer.toList else []) = [] := by
          cases created with
          | false => rfl
          | true =>
            have absent : message.transfer = none := by
              simpa using fun starts => grows ⟨rfl, starts⟩
            rw [absent]
            rfl
        show (client.transfers ++ if created then message.transfer.toList else []).length ≤ _
        rw [none, List.append_nil]
        exact covered
    | _ => exact Or.inr covered

/-- A background command that starts no transfer. -/
def lsBackgroundLine : CommandLine := ⟨str "ls . -b", by decide, by decide, by decide⟩

/-- The word that ends the client. -/
def exitLine : CommandLine := ⟨str "exit", by decide, by decide, by decide⟩

/-- The writer counts and sends the command and prompts for the next one. -/
def lsBackgroundRun : List ClientStep :=
  List.replicate 4 (.writer .advance) ++ [.writer (.type (some lsBackgroundLine) (.zero 3))] ++
    List.replicate 7 (.writer .advance)

end ClientThreads

end FileServer
