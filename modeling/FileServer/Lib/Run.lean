import Mathlib.Data.List.Basic

/-!
# Runs of labelled transition systems

A system is given by its step function: from a state, a label is refused or leads to one next
state. Nondeterminism is in the choice of labels, so a schedule is a list of labels and a run
is computed from it. The two induction rules carry a property of one step to whole runs: one
for every run, one for the runs whose steps all meet a condition on the state before the step.
-/
namespace FileServer.Lib

variable {σ label : Type}

/-- The state after a schedule; none when a label is refused. -/
def runFrom (next : σ → label → Option σ) : σ → List label → Option σ
  | state, [] => some state
  | state, step :: rest => (next state step).bind fun after => runFrom next after rest

/-- Every step of the schedule meets the condition in the state it is taken from. -/
def StepsMeet (next : σ → label → Option σ) (condition : σ → label → Prop) :
    σ → List label → Prop
  | _, [] => True
  | state, step :: rest =>
    condition state step ∧ ∀ after, next state step = some after →
      StepsMeet next condition after rest

/-- Whether a given schedule meets a decidable condition can be computed. -/
instance decidableStepsMeet (next : σ → label → Option σ) (condition : σ → label → Prop)
    [∀ state step, Decidable (condition state step)] :
    (start : σ) → (schedule : List label) → Decidable (StepsMeet next condition start schedule)
  | _, [] => .isTrue trivial
  | state, step :: rest =>
    match taken : next state step with
    | none => decidable_of_iff (condition state step) (by simp [StepsMeet, taken])
    | some after =>
      have := decidableStepsMeet next condition after rest
      decidable_of_iff (condition state step ∧ StepsMeet next condition after rest)
        (by simp [StepsMeet, taken])

/-- A property of a state holds in every state that some schedule reaches from the start. -/
def Always (next : σ → label → Option σ) (start : σ) (property : σ → Prop) : Prop :=
  ∀ schedule state, runFrom next start schedule = some state → property state

variable {next : σ → label → Option σ}

/-- A schedule in two parts runs the second part from where the first one ends. -/
theorem runFrom_append (start : σ) (first second : List label) :
    runFrom next start (first ++ second) =
      (runFrom next start first).bind fun middle => runFrom next middle second := by
  induction first generalizing start with
  | nil => rfl
  | cons step rest ih =>
    cases taken : next start step with
    | none => simp [runFrom, taken]
    | some after => simp [runFrom, taken, ih]

/-- A property kept by every step that meets the condition is kept by every run whose steps
all meet it. -/
theorem run_invariant_of_meets {condition : σ → label → Prop} (invariant : σ → Prop)
    (keep : ∀ state step after, invariant state → condition state step →
      next state step = some after → invariant after)
    {start final : σ} {schedule : List label} (holds : invariant start)
    (meets : StepsMeet next condition start schedule)
    (run : runFrom next start schedule = some final) : invariant final := by
  induction schedule generalizing start with
  | nil =>
    obtain rfl := Option.some.inj run
    exact holds
  | cons step rest ih =>
    cases taken : next start step with
    | none => simp [runFrom, taken] at run
    | some after =>
      rw [runFrom, taken, Option.bind_some] at run
      exact ih (keep start step after holds meets.1 taken) (meets.2 after taken) run

/-- A property kept by every step is kept by every run. -/
theorem run_invariant (invariant : σ → Prop)
    (keep : ∀ state step after, invariant state → next state step = some after →
      invariant after)
    {start final : σ} {schedule : List label} (holds : invariant start)
    (run : runFrom next start schedule = some final) : invariant final := by
  induction schedule generalizing start with
  | nil =>
    obtain rfl := Option.some.inj run
    exact holds
  | cons step rest ih =>
    cases taken : next start step with
    | none => simp [runFrom, taken] at run
    | some after =>
      rw [runFrom, taken, Option.bind_some] at run
      exact ih (keep start step after holds taken) run

/-- A property of a schedule and the state it leads to that every further step keeps. -/
theorem run_history {start : σ} (invariant : List label → σ → Prop)
    (keep : ∀ schedule state step after, runFrom next start schedule = some state →
      invariant schedule state → next state step = some after → invariant (schedule ++ [step]) after)
    {final : σ} {schedule : List label} (holds : invariant [] start)
    (run : runFrom next start schedule = some final) : invariant schedule final := by
  -- the part behind a first one that has been run
  have behind : ∀ later done state, runFrom next start done = some state → invariant done state →
      runFrom next state later = some final → invariant (done ++ later) final := by
    intro later
    induction later with
    | nil =>
      intro done state _ holds run
      obtain rfl := Option.some.inj run
      rwa [List.append_nil]
    | cons step later ih =>
      intro done state earlier holds run
      obtain ⟨after, taken, run⟩ := Option.bind_eq_some_iff.mp run
      have reached : runFrom next start (done ++ [step]) = some after := by
        rw [runFrom_append, earlier, Option.bind_some, runFrom, taken]
        rfl
      have goes := ih _ after reached (keep done state step after earlier holds taken) run
      rwa [List.append_assoc] at goes
  exact behind schedule [] start rfl holds run

/-- A condition may be replaced by one that follows from it in all states of an invariant. -/
theorem StepsMeet.of_invariant {condition goal : σ → label → Prop} (invariant : σ → Prop)
    (keep : ∀ state step after, invariant state → condition state step →
      next state step = some after → invariant after)
    (follows : ∀ state step, invariant state → condition state step → goal state step)
    {start : σ} {schedule : List label} (holds : invariant start)
    (meets : StepsMeet next condition start schedule) : StepsMeet next goal start schedule := by
  induction schedule generalizing start with
  | nil => trivial
  | cons step rest ih =>
    refine ⟨follows start step holds meets.1, fun after taken => ?_⟩
    exact ih (keep start step after holds meets.1 taken) (meets.2 after taken)

/-- The last step of a run meets the condition in the state it is taken from. -/
theorem StepsMeet.last {condition : σ → label → Prop} {start state : σ} {schedule : List label}
    {step : label} (meets : StepsMeet next condition start (schedule ++ [step]))
    (run : runFrom next start schedule = some state) : condition state step := by
  induction schedule generalizing start with
  | nil =>
    obtain rfl := Option.some.inj run
    exact meets.1
  | cons first rest ih =>
    cases taken : next start first with
    | none => simp [runFrom, taken] at run
    | some after =>
      rw [runFrom, taken, Option.bind_some] at run
      exact ih (meets.2 after taken) run

/-- A measure that every step makes smaller bounds the length of a run. -/
theorem run_length_le {condition : σ → label → Prop} (invariant : σ → Prop) (measure : σ → Nat)
    (keep : ∀ state step after, invariant state → condition state step →
      next state step = some after → invariant after ∧ measure after < measure state)
    {start final : σ} {schedule : List label} (holds : invariant start)
    (meets : StepsMeet next condition start schedule)
    (run : runFrom next start schedule = some final) :
    schedule.length + measure final ≤ measure start := by
  induction schedule generalizing start with
  | nil =>
    obtain rfl := Option.some.inj run
    exact Nat.le_of_eq (Nat.zero_add _)
  | cons step rest ih =>
    cases taken : next start step with
    | none => simp [runFrom, taken] at run
    | some after =>
      rw [runFrom, taken, Option.bind_some] at run
      obtain ⟨kept, smaller⟩ := keep start step after holds meets.1 taken
      have shorter := ih kept (meets.2 after taken) run
      rw [List.length_cons]
      omega

end FileServer.Lib
