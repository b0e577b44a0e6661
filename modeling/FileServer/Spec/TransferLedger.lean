import Mathlib.Data.List.Basic
import Mathlib.Logic.Function.Basic

/-!
# The life of transfer requests

What the table of transfers is for, without the table: each number names at most one request,
which waits for its receiver, is shown to it, and is then accepted, rejected or dropped. The
ledger gives the stage of every number; a history is what sessions see happen. In every
history a ledger allows, a request is shown at most once and accepted at most once, by its
receiver, after it was shown, and is not both accepted and rejected.
-/
namespace FileServer

variable {session : Type}

/-- What can happen to a request in view of the sessions. -/
inductive Deed
  | requested
  | notified
  | accepted
  | rejected
deriving DecidableEq

/-- What a session does to a request, or learns about it. -/
inductive TransferEvent (session : Type)
  /-- A request is made, offered to the named user. -/
  | requested (sender : session) (id : UInt32) (receiver : List UInt8)
  /-- The request enters the notification list of a session. -/
  | notified (caller : session) (id : UInt32)
  /-- A session accepts the request. -/
  | accepted (caller : session) (id : UInt32)
  /-- A session rejects the request. -/
  | rejected (caller : session) (id : UInt32)

/-- What happened, and to which request. -/
def TransferEvent.deed : TransferEvent session → Deed × UInt32
  | requested _ id _ => (.requested, id)
  | notified _ id => (.notified, id)
  | accepted _ id => (.accepted, id)
  | rejected _ id => (.rejected, id)

/-- How often something happened to a request. -/
def times (deed : Deed) (id : UInt32) (history : List (TransferEvent session)) : Nat :=
  history.countP fun event => event.deed = (deed, id)

@[simp]
theorem times_append (deed : Deed) (id : UInt32) (history : List (TransferEvent session))
    (event : TransferEvent session) :
    times deed id (history ++ [event]) =
      times deed id history + if event.deed = (deed, id) then 1 else 0 := by
  simp [times, List.countP_cons]

/-- The stages of a request. -/
inductive Stage
  /-- No request has the number. -/
  | unused
  /-- The receiver has not been told. -/
  | pending (receiver : List UInt8)
  /-- The receiver has been told. -/
  | notified (receiver : List UInt8)
  | accepted
  | rejected
  /-- The receiver left before it answered. -/
  | dropped

/-- The stage of every number. -/
abbrev Ledger := UInt32 → Stage

/-- The ledger with one number in another stage. -/
abbrev Ledger.set (ledger : Ledger) (id : UInt32) (stage : Stage) : Ledger :=
  Function.update ledger id stage

section Histories

variable (username : session → List UInt8)

/-- The request waits for an answer of the named user. -/
def Stage.OfferedTo (name : List UInt8) (stage : Stage) : Prop :=
  stage = .pending name ∨ stage = .notified name

/-- The events a ledger allows, and the ledger after them. Number zero is that of slots whose
request is gone; rejecting it again changes nothing. -/
inductive Ledger.Allows : Ledger → TransferEvent session → Ledger → Prop
  | requested {ledger : Ledger} {sender : session} {id : UInt32} {receiver : List UInt8}
      (fresh : ledger id = .unused) (numbered : id ≠ 0) :
      Allows ledger (.requested sender id receiver) (ledger.set id (.pending receiver))
  | notified {ledger : Ledger} {caller : session} {id : UInt32}
      (waiting : ledger id = .pending (username caller)) :
      Allows ledger (.notified caller id) (ledger.set id (.notified (username caller)))
  | accepted {ledger : Ledger} {caller : session} {id : UInt32}
      (shown : ledger id = .notified (username caller)) :
      Allows ledger (.accepted caller id) (ledger.set id .accepted)
  | rejected {ledger : Ledger} {caller : session} {id : UInt32}
      (offered : (ledger id).OfferedTo (username caller)) :
      Allows ledger (.rejected caller id) (ledger.set id .rejected)
  | rejectedAgain {ledger : Ledger} {caller : session} (zero : ledger 0 = .unused) :
      Allows ledger (.rejected caller 0) ledger

/-- The histories that lead to a ledger from the empty one. A request may be dropped without
anyone seeing it. -/
inductive Ledger.Follows : List (TransferEvent session) → Ledger → Prop
  | start : Follows [] fun _ => .unused
  | event {history : List (TransferEvent session)} {ledger after : Ledger}
      {event : TransferEvent session} (earlier : Follows history ledger)
      (allowed : Ledger.Allows username ledger event after) : Follows (history ++ [event]) after
  | drop {history : List (TransferEvent session)} {ledger : Ledger} {id : UInt32}
      {receiver : List UInt8} (earlier : Follows history ledger)
      (offered : (ledger id).OfferedTo receiver) : Follows history (ledger.set id .dropped)

/-- What a history says about a number that has reached a stage. -/
def Stage.Agrees (history : List (TransferEvent session)) (id : UInt32) : Stage → Prop
  | unused => times .requested id history = 0 ∧ times .notified id history = 0 ∧
      times .accepted id history = 0 ∧ (id ≠ 0 → times .rejected id history = 0)
  | pending receiver => times .requested id history = 1 ∧ times .notified id history = 0 ∧
      times .accepted id history = 0 ∧ times .rejected id history = 0 ∧
      ∃ sender, .requested sender id receiver ∈ history
  | notified receiver => times .requested id history = 1 ∧ times .notified id history = 1 ∧
      times .accepted id history = 0 ∧ times .rejected id history = 0 ∧
      (∃ sender, .requested sender id receiver ∈ history) ∧
      ∃ caller, username caller = receiver ∧ .notified caller id ∈ history
  | accepted => times .requested id history = 1 ∧ times .notified id history = 1 ∧
      times .accepted id history = 1 ∧ times .rejected id history = 0
  | rejected => times .requested id history = 1 ∧ times .notified id history ≤ 1 ∧
      times .accepted id history = 0
  | dropped => times .requested id history = 1 ∧ times .notified id history ≤ 1 ∧
      times .accepted id history = 0

variable {username}

/-- An event about another number leaves the record of a number as it is. -/
theorem Stage.Agrees.other {history : List (TransferEvent session)} {id : UInt32} {stage : Stage}
    (agrees : stage.Agrees username history id) {event : TransferEvent session}
    (other : event.deed.2 ≠ id) : stage.Agrees username (history ++ [event]) id := by
  have same : ∀ deed, times deed id (history ++ [event]) = times deed id history := by
    intro deed
    have apart : event.deed ≠ (deed, id) := fun whole => other (congrArg Prod.snd whole)
    simp [apart]
  cases stage with
  | pending receiver =>
    obtain ⟨requests, notices, accepts, rejects, sender, made⟩ := agrees
    simp only [Stage.Agrees, same]
    exact ⟨requests, notices, accepts, rejects, sender, List.mem_append_left _ made⟩
  | notified receiver =>
    obtain ⟨requests, notices, accepts, rejects, ⟨sender, made⟩, caller, name, told⟩ := agrees
    simp only [Stage.Agrees, same]
    exact ⟨requests, notices, accepts, rejects, ⟨sender, List.mem_append_left _ made⟩, caller,
      name, List.mem_append_left _ told⟩
  | _ =>
    simp only [Stage.Agrees, same]
    exact agrees

/-- A change of one stage is recorded once the stage changed agrees with the history. -/
theorem Ledger.agrees_set {history : List (TransferEvent session)} {ledger : Ledger}
    {number : UInt32} {stage : Stage} (changed : stage.Agrees username history number)
    (others : ∀ id, id ≠ number → (ledger id).Agrees username history id) (id : UInt32) :
    (ledger.set number stage id).Agrees username history id := by
  by_cases same : id = number
  · subst same
    rwa [Ledger.set, Function.update_self]
  · rw [Ledger.set, Function.update_of_ne same]
    exact others id same

/-- An allowed event is recorded with every number. -/
theorem Ledger.Allows.agrees {history : List (TransferEvent session)} {ledger after : Ledger}
    {event : TransferEvent session}
    (earlier : ∀ id, (ledger id).Agrees username history id)
    (allowed : Ledger.Allows username ledger event after) (id : UInt32) :
    (after id).Agrees username (history ++ [event]) id := by
  have others : ∀ id, id ≠ event.deed.2 → (ledger id).Agrees username (history ++ [event]) id :=
    fun id apart => (earlier id).other apart.symm
  cases allowed with
  | @requested sender number receiver fresh numbered =>
    have before := earlier number
    rw [fresh] at before
    obtain ⟨requests, notices, accepts, rejects⟩ := before
    refine Ledger.agrees_set ?_ others id
    refine ⟨?_, ?_, ?_, ?_, sender, List.mem_append_right _ (List.mem_singleton_self _)⟩ <;>
      simp [TransferEvent.deed, requests, notices, accepts, rejects numbered]
  | @notified caller number waiting =>
    have before := earlier number
    rw [waiting] at before
    obtain ⟨requests, notices, accepts, rejects, sender, made⟩ := before
    refine Ledger.agrees_set ?_ others id
    refine ⟨?_, ?_, ?_, ?_, ⟨sender, List.mem_append_left _ made⟩, caller, rfl,
      List.mem_append_right _ (List.mem_singleton_self _)⟩ <;>
      simp [TransferEvent.deed, requests, notices, accepts, rejects]
  | @accepted caller number shown =>
    have before := earlier number
    rw [shown] at before
    obtain ⟨requests, notices, accepts, rejects, -⟩ := before
    refine Ledger.agrees_set ?_ others id
    refine ⟨?_, ?_, ?_, ?_⟩ <;>
      simp [TransferEvent.deed, requests, notices, accepts, rejects]
  | @rejected caller number offered =>
    have before := earlier number
    refine Ledger.agrees_set ?_ others id
    obtain waiting | shown := offered
    · rw [waiting] at before
      obtain ⟨requests, notices, accepts, -⟩ := before
      simp [Stage.Agrees, TransferEvent.deed, requests, notices, accepts]
    · rw [shown] at before
      obtain ⟨requests, notices, accepts, -⟩ := before
      simp [Stage.Agrees, TransferEvent.deed, requests, notices, accepts]
  | rejectedAgain zero =>
    by_cases numbered : id = 0
    · subst numbered
      have before := earlier 0
      rw [zero] at before ⊢
      obtain ⟨requests, notices, accepts, -⟩ := before
      simp [Stage.Agrees, TransferEvent.deed, requests, notices, accepts]
    · exact others id numbered

/-- Every number is at a stage that agrees with the history. -/
theorem Ledger.Follows.agrees {history : List (TransferEvent session)} {ledger : Ledger}
    (follows : Ledger.Follows username history ledger) (id : UInt32) :
    (ledger id).Agrees username history id := by
  induction follows generalizing id with
  | start => exact ⟨rfl, rfl, rfl, fun _ => rfl⟩
  | event earlier allowed ih => exact Ledger.Allows.agrees ih allowed id
  | @drop history ledger number receiver earlier offered ih =>
    refine Ledger.agrees_set ?_ (fun id _ => ih id) id
    have before := ih number
    obtain waiting | shown := offered
    · rw [waiting] at before
      obtain ⟨requests, notices, accepts, -⟩ := before
      exact ⟨requests, by omega, accepts⟩
    · rw [shown] at before
      obtain ⟨requests, notices, accepts, -⟩ := before
      exact ⟨requests, by omega, accepts⟩

/-- The front of a history led to a ledger that allowed the next event. -/
theorem Ledger.Follows.event_allowed {before after : List (TransferEvent session)} {ledger : Ledger}
    {event : TransferEvent session}
    (follows : Ledger.Follows username (before ++ event :: after) ledger) :
    ∃ earlier later, Ledger.Follows username before earlier ∧
      Ledger.Allows username earlier event later := by
  generalize whole : before ++ event :: after = history at follows
  induction follows generalizing after with
  | start => simp at whole
  | @event history earlier later last follows allowed ih =>
    rcases List.eq_nil_or_concat after with rfl | ⟨rest, final, rfl⟩
    · obtain ⟨rfl, only⟩ := List.append_inj' whole rfl
      obtain rfl := List.singleton_inj.mp only
      exact ⟨earlier, later, follows, allowed⟩
    · rw [List.concat_eq_append, ← List.cons_append, ← List.append_assoc] at whole
      exact ih (List.append_inj' whole rfl).1
  | drop earlier offered ih => exact ih whole

/-- In an allowed history every request is made at most once, shown at most once, accepted at
most once and not both accepted and rejected. -/
theorem Ledger.Follows.once {history : List (TransferEvent session)} {ledger : Ledger}
    (follows : Ledger.Follows username history ledger) (id : UInt32) :
    times .requested id history ≤ 1 ∧ times .notified id history ≤ 1 ∧
      times .accepted id history ≤ 1 ∧
      (times .accepted id history = 0 ∨ times .rejected id history = 0) := by
  have agrees := follows.agrees id
  cases stage : ledger id <;> rw [stage] at agrees <;> simp only [Stage.Agrees] at agrees <;> omega

/-- A request is shown to its receiver. -/
theorem Ledger.Follows.notified {before after : List (TransferEvent session)} {ledger : Ledger}
    {caller : session} {id : UInt32}
    (follows : Ledger.Follows username (before ++ .notified caller id :: after) ledger) :
    ∃ sender, .requested sender id (username caller) ∈ before := by
  obtain ⟨earlier, later, front, allowed⟩ := follows.event_allowed
  cases allowed with
  | notified waiting =>
    have agrees := front.agrees id
    rw [waiting] at agrees
    exact agrees.2.2.2.2

/-- A request is accepted by its receiver, which has seen it. -/
theorem Ledger.Follows.accepted {before after : List (TransferEvent session)} {ledger : Ledger}
    {caller : session} {id : UInt32}
    (follows : Ledger.Follows username (before ++ .accepted caller id :: after) ledger) :
    (∃ sender, .requested sender id (username caller) ∈ before) ∧
      ∃ shown, username shown = username caller ∧ .notified shown id ∈ before := by
  obtain ⟨earlier, later, front, allowed⟩ := follows.event_allowed
  cases allowed with
  | accepted shown =>
    have agrees := front.agrees id
    rw [shown] at agrees
    exact agrees.2.2.2.2

end Histories

end FileServer
