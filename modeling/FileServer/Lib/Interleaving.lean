import FileServer.Lib.Run
import FileServer.Lib.Script
import Mathlib.Logic.Function.Basic

/-!
# Scripts that run side by side

Any number of processes run their scripts on shared surroundings, one call at a time in any order. A
script is guarded if each of its calls guarantees something in whatever surroundings the others may
leave while the call is pending; what they may leave is the reliance of that call. Where the guarantees
of the others meet the reliance, all scripts stay guarded along every run.
-/
namespace FileServer.Lib

variable {process σ Op : Type} {Answer : Op → Type} {α β : Type}

namespace Script

variable (serve : σ → (op : Op) → Answer op × σ) (rely guarantee : Op → σ → σ → Prop)

/-- Whatever the others do while a call is pending, the call guarantees what it should, and the
result meets the condition. -/
def Guarded : Script Op Answer α → (α → σ → Prop) → σ → Prop
  | .pure value, post, world => post value world
  | .call op next, post, world => ∀ later, rely op world later →
      guarantee op later (serve later op).2 ∧
        (next (serve later op).1).Guarded post (serve later op).2

section

variable {serve rely guarantee}

/-- A script stays guarded while its next call is pending. -/
theorem Guarded.wait {op : Op} {next : Answer op → Script Op Answer α} {post : α → σ → Prop}
    {world later : σ} (trans : ∀ {first second third}, rely op first second →
      rely op second third → rely op first third)
    (guarded : Guarded serve rely guarantee (.call op next) post world)
    (changed : rely op world later) : Guarded serve rely guarantee (.call op next) post later :=
  fun last after => guarded last (trans changed after)

/-- The condition may be weakened. -/
theorem Guarded.weaken {script : Script Op Answer α} {post weaker : α → σ → Prop} {world : σ}
    (guarded : script.Guarded serve rely guarantee post world)
    (weaken : ∀ value world, post value world → weaker value world) :
    script.Guarded serve rely guarantee weaker world := by
  induction script generalizing world with
  | pure value => exact weaken value world guarded
  | call op next ih =>
    intro later changed
    obtain ⟨guarantees, goes⟩ := guarded later changed
    exact ⟨guarantees, ih _ goes⟩

/-- One script after another. -/
theorem Guarded.bind {first : Script Op Answer β} {rest : β → Script Op Answer α}
    {post : α → σ → Prop} {world : σ}
    (begins : first.Guarded serve rely guarantee
      (fun value middle => (rest value).Guarded serve rely guarantee post middle) world) :
    (first >>= rest).Guarded serve rely guarantee post world := by
  change (first.bind rest).Guarded serve rely guarantee post world
  induction first generalizing world with
  | pure value => exact begins
  | call op next ih =>
    intro later changed
    obtain ⟨guarantees, goes⟩ := begins later changed
    exact ⟨guarantees, ih _ goes⟩

/-- A script that starts with one call. -/
theorem Guarded.call {op : Op} {rest : Answer op → Script Op Answer α} {post : α → σ → Prop}
    {world : σ} (begins : ∀ later, rely op world later → guarantee op later (serve later op).2 ∧
      (rest (serve later op).1).Guarded serve rely guarantee post (serve later op).2) :
    ((perform op : Script Op Answer _) >>= rest).Guarded serve rely guarantee post world := begins

/-- A script whose calls need nothing. -/
theorem Only.guarded {allowed : Op → Prop} {script : Script Op Answer α}
    (only : script.Only allowed)
    (guarantees : ∀ world op, allowed op → guarantee op world (serve world op).2)
    {post : α → σ → Prop} (holds : ∀ value world, post value world) (world : σ) :
    script.Guarded serve rely guarantee post world := by
  induction script generalizing world with
  | pure value => exact holds value world
  | call op next ih =>
    exact fun later _ => ⟨guarantees later op only.1, ih _ (only.2 _) _⟩

end

end Script

/-- The surroundings, and what each process still has to do. -/
structure Threads (process σ Op : Type) (Answer : Op → Type) (α : Type) where
  /-- The surroundings. -/
  shared : σ
  /-- The rest of each script. -/
  script : process → Script Op Answer α

namespace Threads

variable [DecidableEq process]

/-- The call that a process makes next. -/
def pending (threads : Threads process σ Op Answer α) (caller : process) : Option Op :=
  match threads.script caller with
  | .pure _ => none
  | .call op _ => some op

/-- A process makes its next call; none when it has ended. -/
def next (serve : process → σ → (op : Op) → Answer op × σ)
    (threads : Threads process σ Op Answer α) (caller : process) :
    Option (Threads process σ Op Answer α) :=
  match threads.script caller with
  | .pure _ => none
  | .call op rest =>
    let answered := serve caller threads.shared op
    some ⟨answered.2, Function.update threads.script caller (rest answered.1)⟩

section

variable {serve : process → σ → (op : Op) → Answer op × σ}
  {rely guarantee : process → Op → σ → σ → Prop}
  {condition : Threads process σ Op Answer α → process → Prop}

/-- Every process is guarded. -/
def AllGuarded (serve : process → σ → (op : Op) → Answer op × σ)
    (rely guarantee : process → Op → σ → σ → Prop)
    (threads : Threads process σ Op Answer α) : Prop :=
  ∀ caller, (threads.script caller).Guarded (serve caller) (rely caller) (guarantee caller)
    (fun _ _ => True) threads.shared

/-- The call of one process meets the reliance of the calls that the others have pending. -/
def Compatible (rely guarantee : process → Op → σ → σ → Prop)
    (condition : Threads process σ Op Answer α → process → Prop) : Prop :=
  ∀ threads caller other op waiting after, condition threads caller → other ≠ caller →
    threads.pending caller = some op → threads.pending other = some waiting →
    guarantee caller op threads.shared after → rely other waiting threads.shared after

/-- A step that meets the condition keeps all processes guarded, and gives its guarantee. -/
theorem guarded_next (refl : ∀ caller op world, rely caller op world world)
    (trans : ∀ caller op {first second third}, rely caller op first second →
      rely caller op second third → rely caller op first third)
    (compatible : Compatible rely guarantee condition)
    {threads after : Threads process σ Op Answer α} {caller : process}
    (guarded : threads.AllGuarded serve rely guarantee) (meets : condition threads caller)
    (taken : threads.next serve caller = some after) :
    after.AllGuarded serve rely guarantee ∧
      ∃ op, threads.pending caller = some op ∧ guarantee caller op threads.shared after.shared := by
  unfold next at taken
  cases script : threads.script caller with
  | pure value =>
    rw [script] at taken
    cases taken
  | call op rest =>
    rw [script] at taken
    cases taken
    have pending : threads.pending caller = some op := by
      unfold Threads.pending
      rw [script]
    have own := guarded caller
    rw [script] at own
    obtain ⟨guarantees, goes⟩ := own threads.shared (refl caller op threads.shared)
    refine ⟨fun other => ?_, op, pending, guarantees⟩
    by_cases same : other = caller
    · subst same
      show (Function.update threads.script other _ other).Guarded _ _ _ _ _
      rw [Function.update_self]
      exact goes
    · show (Function.update threads.script caller _ other).Guarded _ _ _ _ _
      rw [Function.update_of_ne same]
      have others := guarded other
      cases waits : threads.script other with
      | pure value => trivial
      | call waiting later =>
        rw [waits] at others
        have stands : threads.pending other = some waiting := by
          unfold Threads.pending
          rw [waits]
        exact others.wait (trans other waiting)
          (compatible threads caller other op waiting _ meets same pending stands guarantees)

/-- What every guarantee keeps holds along every run whose steps meet the condition. -/
theorem guarded_run (refl : ∀ caller op world, rely caller op world world)
    (trans : ∀ caller op {first second third}, rely caller op first second →
      rely caller op second third → rely caller op first third)
    (compatible : Compatible rely guarantee condition) (holds : σ → Prop)
    (keeps : ∀ caller op world after, guarantee caller op world after → holds world → holds after)
    {start final : Threads process σ Op Answer α} {schedule : List process}
    (guarded : start.AllGuarded serve rely guarantee) (begins : holds start.shared)
    (meets : StepsMeet (next serve) condition start schedule)
    (run : runFrom (next serve) start schedule = some final) : holds final.shared := by
  have both := run_invariant_of_meets
    (fun threads : Threads process σ Op Answer α =>
      threads.AllGuarded serve rely guarantee ∧ holds threads.shared)
    (fun threads caller after inside meets taken => by
      obtain ⟨stays, op, -, guarantees⟩ :=
        guarded_next refl trans compatible inside.1 meets taken
      exact ⟨stays, keeps caller op _ _ guarantees inside.2⟩)
    ⟨guarded, begins⟩ meets run
  exact both.2

end

end Threads

end FileServer.Lib
