import Mathlib.Logic.Function.Basic

/-!
# Condition variables

A lock and a condition that threads wait for under it. A thread that finds the condition false is
resolved to wait; it holds the lock until it sleeps. Whatever makes the condition true wakes the
sleepers, but not a thread that is only resolved to sleep. The rules say when nobody sleeps without
a reason: a change under the lock followed by a wake-up leaves nobody behind, and so does a change
without the lock whose wake-up finds nobody resolved.
-/
namespace FileServer.Lib

/-- Where a thread stands that may wait for a condition. -/
inductive WaitPhase
  /-- It does not wait. -/
  | outside
  /-- It has found the condition false and is about to wait, with the lock. -/
  | resolved
  /-- It waits, without the lock. -/
  | asleep
  /-- It has been woken and is to take the lock again. -/
  | woken
deriving DecidableEq

/-- The thread is about to wait or waits. -/
def WaitPhase.waits : WaitPhase → Bool
  | resolved | asleep => true
  | outside | woken => false

/-- A lock with a condition. -/
structure Condition (thread : Type) where
  /-- The thread that has the lock. -/
  holder : Option thread
  /-- Where each thread stands. -/
  phase : thread → WaitPhase

/-- What a thread asks of the lock and of the condition. -/
inductive ConditionCall
  /-- The lock is taken, for the first time or on the way back from waiting. -/
  | lock
  /-- The condition has been found false. -/
  | resolve
  /-- The lock is given up and the thread falls asleep. -/
  | sleep
  /-- The lock is given up. -/
  | unlock
deriving DecidableEq

namespace Condition

variable {thread : Type}

/-- The lock is free and nobody waits. -/
def start : Condition thread := ⟨none, fun _ => .outside⟩

/-- Every sleeper is woken. -/
def wakeAll (condition : Condition thread) : Condition thread :=
  { condition with
    phase := fun sleeper =>
      if condition.phase sleeper = .asleep then .woken else condition.phase sleeper }

/-- Only threads with the lock are resolved to wait. -/
def Sound (condition : Condition thread) : Prop :=
  ∀ waiter, condition.phase waiter = .resolved → condition.holder = some waiter

/-- Whoever waits has a reason to. -/
def Guarded (condition : Condition thread) (reason : thread → Prop) : Prop :=
  ∀ waiter, (condition.phase waiter).waits = true → reason waiter

/-- Nobody has resolved to wait at the start. -/
theorem sound_start : Sound (start : Condition thread) := by
  intro waiter resolved
  cases resolved

/-- Nobody waits at the start. -/
theorem guarded_start (reason : thread → Prop) : Guarded (start : Condition thread) reason := by
  intro waiter waits
  cases waits

variable [DecidableEq thread]

/-- The thread moves to another phase. -/
def enter (condition : Condition thread) (caller : thread) (phase : WaitPhase) :
    thread → WaitPhase :=
  Function.update condition.phase caller phase

/-- A call of a thread; none while it cannot be made. -/
def next (condition : Condition thread) (caller : thread) :
    ConditionCall → Option (Condition thread)
  | .lock =>
    if condition.holder = none ∧
        (condition.phase caller = .outside ∨ condition.phase caller = .woken) then
      some ⟨some caller, condition.enter caller .outside⟩
    else none
  | .resolve =>
    if condition.holder = some caller ∧ condition.phase caller = .outside then
      some ⟨some caller, condition.enter caller .resolved⟩
    else none
  | .sleep =>
    if condition.holder = some caller ∧ condition.phase caller = .resolved then
      some ⟨none, condition.enter caller .asleep⟩
    else none
  | .unlock =>
    if condition.holder = some caller ∧ condition.phase caller = .outside then
      some ⟨none, condition.phase⟩
    else none

/-- A sleeper wakes up for no reason. -/
def wake (condition : Condition thread) (sleeper : thread) : Option (Condition thread) :=
  if condition.phase sleeper = .asleep then
    some { condition with phase := condition.enter sleeper .woken }
  else none

/-- The lock is taken if it is free, by a thread that does not sleep. -/
theorem lock_eq_some {condition after : Condition thread} {caller : thread} :
    condition.next caller .lock = some after ↔ (condition.holder = none ∧
      (condition.phase caller = .outside ∨ condition.phase caller = .woken)) ∧
      ⟨some caller, condition.enter caller .outside⟩ = after :=
  Option.ite_none_right_eq_some.trans (and_congr_right fun _ => Option.some_inj)

/-- A thread with the lock is resolved to wait. -/
theorem resolve_eq_some {condition after : Condition thread} {caller : thread} :
    condition.next caller .resolve = some after ↔
      (condition.holder = some caller ∧ condition.phase caller = .outside) ∧
        ⟨some caller, condition.enter caller .resolved⟩ = after :=
  Option.ite_none_right_eq_some.trans (and_congr_right fun _ => Option.some_inj)

/-- A thread that is resolved to wait gives up the lock and sleeps. -/
theorem sleep_eq_some {condition after : Condition thread} {caller : thread} :
    condition.next caller .sleep = some after ↔
      (condition.holder = some caller ∧ condition.phase caller = .resolved) ∧
        ⟨none, condition.enter caller .asleep⟩ = after :=
  Option.ite_none_right_eq_some.trans (and_congr_right fun _ => Option.some_inj)

/-- A thread with the lock gives it up. -/
theorem unlock_eq_some {condition after : Condition thread} {caller : thread} :
    condition.next caller .unlock = some after ↔
      (condition.holder = some caller ∧ condition.phase caller = .outside) ∧
        ⟨none, condition.phase⟩ = after :=
  Option.ite_none_right_eq_some.trans (and_congr_right fun _ => Option.some_inj)

/-- Only a sleeper wakes up. -/
theorem wake_eq_some {condition after : Condition thread} {sleeper : thread} :
    condition.wake sleeper = some after ↔ condition.phase sleeper = .asleep ∧
      { condition with phase := condition.enter sleeper .woken } = after :=
  Option.ite_none_right_eq_some.trans (and_congr_right fun _ => Option.some_inj)

/-- What a call needs and does. -/
theorem next_cases {condition after : Condition thread} {caller : thread} {call : ConditionCall}
    (step : condition.next caller call = some after) :
    (call = .lock ∧ condition.holder = none ∧
        after = ⟨some caller, condition.enter caller .outside⟩) ∨
      (call = .resolve ∧ condition.holder = some caller ∧
        after = ⟨some caller, condition.enter caller .resolved⟩) ∨
      (condition.phase caller = .resolved ∧ condition.holder = some caller ∧
        after = ⟨none, condition.enter caller .asleep⟩) ∨
      condition.phase caller = .outside ∧ condition.holder = some caller ∧
        after = ⟨none, condition.phase⟩ := by
  cases call with
  | lock =>
    obtain ⟨⟨free, -⟩, same⟩ := lock_eq_some.mp step
    exact Or.inl ⟨rfl, free, same.symm⟩
  | resolve =>
    obtain ⟨⟨held, -⟩, same⟩ := resolve_eq_some.mp step
    exact Or.inr (Or.inl ⟨rfl, held, same.symm⟩)
  | sleep =>
    obtain ⟨⟨held, phase⟩, same⟩ := sleep_eq_some.mp step
    exact Or.inr (Or.inr (Or.inl ⟨phase, held, same.symm⟩))
  | unlock =>
    obtain ⟨⟨held, phase⟩, same⟩ := unlock_eq_some.mp step
    exact Or.inr (Or.inr (Or.inr ⟨phase, held, same.symm⟩))

@[simp]
theorem enter_self (condition : Condition thread) (caller : thread) (phase : WaitPhase) :
    condition.enter caller phase caller = phase := Function.update_self ..

/-- A thread that moves leaves the others where they are. -/
theorem enter_other (condition : Condition thread) {caller other : thread} (apart : other ≠ caller)
    (phase : WaitPhase) : condition.enter caller phase other = condition.phase other :=
  Function.update_of_ne apart ..

/-- A call leaves the other threads where they are. -/
theorem next_other {condition after : Condition thread} {caller other : thread}
    {call : ConditionCall} (step : condition.next caller call = some after)
    (apart : other ≠ caller) : after.phase other = condition.phase other := by
  obtain ⟨-, -, rfl⟩ | ⟨-, -, rfl⟩ | ⟨-, -, rfl⟩ | ⟨-, -, rfl⟩ := next_cases step
  · exact condition.enter_other apart _
  · exact condition.enter_other apart _
  · exact condition.enter_other apart _
  · rfl

/-- Every call keeps the lock with those who are resolved to wait. -/
theorem Sound.next {condition after : Condition thread} {caller : thread} {call : ConditionCall}
    (sound : condition.Sound) (step : condition.next caller call = some after) : after.Sound := by
  intro waiter resolved
  by_cases same : waiter = caller
  · subst same
    obtain ⟨-, -, rfl⟩ | ⟨-, -, rfl⟩ | ⟨-, -, rfl⟩ | ⟨phase, -, rfl⟩ := next_cases step
    · simp at resolved
    · rfl
    · simp at resolved
    · exact absurd (phase.symm.trans resolved) (by decide)
  · rw [next_other step same] at resolved
    -- the caller gets on only when the lock is free or its own
    have holds := sound waiter resolved
    obtain ⟨-, free, -⟩ | ⟨-, held, -⟩ | ⟨-, held, -⟩ | ⟨-, held, -⟩ := next_cases step
    · exact absurd (free.symm.trans holds) (by simp)
    · exact absurd (Option.some.inj (holds.symm.trans held)) same
    · exact absurd (Option.some.inj (holds.symm.trans held)) same
    · exact absurd (Option.some.inj (holds.symm.trans held)) same

/-- A thread that wakes up for no reason holds nothing up. -/
theorem Sound.wake {condition after : Condition thread} {sleeper : thread}
    (sound : condition.Sound) (step : condition.wake sleeper = some after) : after.Sound := by
  obtain ⟨-, rfl⟩ := wake_eq_some.mp step
  intro waiter resolved
  by_cases same : waiter = sleeper
  · subst same
    simp at resolved
  · exact sound waiter ((condition.enter_other same _).symm.trans resolved)

omit [DecidableEq thread] in
/-- Waking the sleepers leaves the lock where it is. -/
theorem Sound.wakeAll {condition : Condition thread} (sound : condition.Sound) :
    condition.wakeAll.Sound := by
  intro waiter resolved
  refine sound waiter ?_
  unfold Condition.wakeAll at resolved
  dsimp only at resolved
  split at resolved
  · cases resolved
  · exact resolved

/-- A call keeps the reasons of those who wait if a thread that is resolved to wait has one. -/
theorem Guarded.next {condition after : Condition thread} {caller : thread} {call : ConditionCall}
    {reason : thread → Prop} (guarded : condition.Guarded reason)
    (step : condition.next caller call = some after) (because : call = .resolve → reason caller) :
    after.Guarded reason := by
  intro waiter waits
  by_cases same : waiter = caller
  · subst same
    obtain ⟨-, -, rfl⟩ | ⟨call, -, rfl⟩ | ⟨phase, -, rfl⟩ | ⟨phase, -, rfl⟩ := next_cases step
    · simp [WaitPhase.waits] at waits
    · exact because call
    · exact guarded waiter (by rw [phase]; rfl)
    · rw [phase] at waits
      cases waits
  · rw [next_other step same] at waits
    exact guarded waiter waits

/-- A thread that wakes up for no reason needs none to wait. -/
theorem Guarded.wake {condition after : Condition thread} {sleeper : thread}
    {reason : thread → Prop} (guarded : condition.Guarded reason)
    (step : condition.wake sleeper = some after) : after.Guarded reason := by
  obtain ⟨-, rfl⟩ := wake_eq_some.mp step
  intro waiter waits
  by_cases same : waiter = sleeper
  · subst same
    simp [WaitPhase.waits] at waits
  · have before : (condition.enter sleeper .woken waiter).waits = true := waits
    rw [condition.enter_other same] at before
    exact guarded waiter before

omit [DecidableEq thread] in
/-- Waking the sleepers keeps the reasons of those who still wait. -/
theorem Guarded.wakeAll {condition : Condition thread} {reason : thread → Prop}
    (guarded : condition.Guarded reason) : condition.wakeAll.Guarded reason := by
  intro waiter waits
  refine guarded waiter ?_
  unfold Condition.wakeAll at waits
  dsimp only at waits
  split at waits
  · cases waits
  · exact waits

omit [DecidableEq thread] in
/-- After a wake-up that finds nobody resolved to wait, nobody waits. -/
theorem guarded_wakeAll {condition : Condition thread} (reason : thread → Prop)
    (none : ∀ waiter, condition.phase waiter ≠ .resolved) : condition.wakeAll.Guarded reason := by
  intro waiter waits
  unfold Condition.wakeAll at waits
  dsimp only at waits
  split at waits
  · cases waits
  · rename_i awake
    cases phase : condition.phase waiter with
    | resolved => exact absurd phase (none waiter)
    | asleep => exact absurd phase awake
    | outside | woken => simp [phase, WaitPhase.waits] at waits

omit [DecidableEq thread] in
/-- After a wake-up by a thread that holds the lock and does not wait itself, nobody waits. -/
theorem Sound.guarded_wakeAll {condition : Condition thread} (sound : condition.Sound)
    {caller : thread} (held : condition.holder = some caller)
    (outside : condition.phase caller = .outside) (reason : thread → Prop) :
    condition.wakeAll.Guarded reason := by
  apply Condition.guarded_wakeAll
  intro waiter resolved
  obtain rfl := Option.some.inj (held.symm.trans (sound waiter resolved))
  exact absurd (outside.symm.trans resolved) (by decide)

end Condition

end FileServer.Lib
