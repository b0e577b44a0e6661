import Mathlib.Logic.Basic

/-!
# Scripts: programs that call their surroundings

A script is a program whose calls are answered from outside: by the kernel, by another
process, by shared memory. It is a finite tree with one branch for every answer, so what
holds on every branch holds for every behaviour of the surroundings. `Script.Every` is a
condition on all executions, computed along the script, with one rule for each way a script is
built; `Script.runOn` is the execution in given surroundings.
-/
namespace FileServer.Lib

/-- A program over the calls `Op`, each answered by a value of its answer type. -/
inductive Script (Op : Type) (Answer : Op → Type) (α : Type) : Type
  /-- Return a result. -/
  | pure (value : α)
  /-- Make a call and continue with its answer. -/
  | call (op : Op) (next : Answer op → Script Op Answer α)

namespace Script

variable {Op : Type} {Answer : Op → Type} {α β : Type}

/-- Run one script and continue with its result. -/
def bind : Script Op Answer α → (α → Script Op Answer β) → Script Op Answer β
  | .pure value, rest => rest value
  | .call op next, rest => .call op fun answer => (next answer).bind rest

instance : Monad (Script Op Answer) where
  pure := .pure
  bind := .bind

/-- A single call, returning its answer. -/
def perform (op : Op) : Script Op Answer (Answer op) := .call op .pure

/-- Every execution, given by its calls with their answers and by its result, meets the
condition. -/
def Every (post : List (Σ op, Answer op) → α → Prop) : Script Op Answer α → Prop
  | .pure value => post [] value
  | .call op next => ∀ answer, (next answer).Every fun events value =>
      post (⟨op, answer⟩ :: events) value

section Rules

variable {post : List (Σ op, Answer op) → α → Prop}

@[simp]
theorem every_pure (value : α) :
    (Pure.pure value : Script Op Answer α).Every post ↔ post [] value := Iff.rfl

@[simp]
theorem every_perform (op : Op) (post : List (Σ op, Answer op) → Answer op → Prop) :
    (perform op).Every post ↔ ∀ answer, post [⟨op, answer⟩] answer := Iff.rfl

/-- The condition may be weakened. -/
theorem Every.weaken {weaker : List (Σ op, Answer op) → α → Prop} {script : Script Op Answer α}
    (every : script.Every post) (weaken : ∀ events value, post events value → weaker events value) :
    script.Every weaker := by
  induction script generalizing post weaker with
  | pure value => exact weaken [] value every
  | call op next ih =>
    intro answer
    exact ih answer (every answer) fun events value => weaken _ value

/-- Two conditions that are met are met together. -/
theorem Every.conj {other : List (Σ op, Answer op) → α → Prop} {script : Script Op Answer α}
    (left : script.Every post) (right : script.Every other) :
    script.Every fun events value => post events value ∧ other events value := by
  induction script generalizing post other with
  | pure value => exact ⟨left, right⟩
  | call op next ih => exact fun answer => ih answer (left answer) (right answer)

/-- A sequence meets a condition on the events of both parts. -/
@[simp]
theorem every_bind (first : Script Op Answer β) (rest : β → Script Op Answer α) :
    (first >>= rest).Every post ↔
      first.Every fun before value => (rest value).Every fun after final =>
        post (before ++ after) final := by
  change (first.bind rest).Every post ↔ _
  induction first generalizing post with
  | pure value => exact Iff.rfl
  | call op next ih => exact forall_congr' fun answer => ih answer

end Rules

/-- Every call a script can make meets the condition. -/
def Only (allowed : Op → Prop) : Script Op Answer α → Prop
  | .pure _ => True
  | .call op next => allowed op ∧ ∀ answer, (next answer).Only allowed

section Calls

variable {allowed : Op → Prop}

@[simp]
theorem only_pure (value : α) :
    (Pure.pure value : Script Op Answer α).Only allowed := trivial

@[simp]
theorem only_perform (op : Op) : (perform op : Script Op Answer _).Only allowed ↔ allowed op := by
  simp [perform, Only]

/-- Nothing is asked of the calls. -/
theorem only_true (script : Script Op Answer α) : script.Only fun _ => True := by
  induction script with
  | pure value => trivial
  | call op next ih => exact ⟨trivial, ih⟩

/-- The calls of a sequence are those of its parts. -/
theorem Only.bind {first : Script Op Answer β} {rest : β → Script Op Answer α}
    (begins : first.Only allowed) (goes : ∀ value, (rest value).Only allowed) :
    (first >>= rest).Only allowed := by
  change (first.bind rest).Only allowed
  induction first with
  | pure value => exact goes value
  | call op next ih => exact ⟨begins.1, fun answer => ih answer (begins.2 answer)⟩

/-- The calls of a sequence that starts with one call. -/
theorem Only.call {op : Op} {rest : Answer op → Script Op Answer α} (begins : allowed op)
    (goes : ∀ answer, (rest answer).Only allowed) :
    ((perform op : Script Op Answer _) >>= rest).Only allowed :=
  Only.bind ((only_perform op).mpr begins) goes

/-- The condition may be weakened. -/
theorem Only.weaken {weaker : Op → Prop} {script : Script Op Answer α}
    (only : script.Only allowed) (weaken : ∀ op, allowed op → weaker op) : script.Only weaker := by
  induction script with
  | pure value => trivial
  | call op next ih => exact ⟨weaken op only.1, fun answer => ih answer (only.2 answer)⟩

/-- Two conditions on the calls hold together. -/
theorem Only.conj {other : Op → Prop} {script : Script Op Answer α} (left : script.Only allowed)
    (right : script.Only other) : script.Only fun op => allowed op ∧ other op := by
  induction script with
  | pure value => trivial
  | call op next ih =>
    exact ⟨⟨left.1, right.1⟩, fun answer => ih answer (left.2 answer) (right.2 answer)⟩

/-- The calls of every execution are calls of the script. -/
theorem Only.every {script : Script Op Answer α} (only : script.Only allowed) :
    script.Every fun events _ => ∀ event ∈ events, allowed event.1 := by
  induction script with
  | pure value => exact fun event member => absurd member List.not_mem_nil
  | call op next ih =>
    intro answer
    refine (ih answer (only.2 answer)).weaken fun events _ later event member => ?_
    rcases List.mem_cons.mp member with rfl | after
    · exact only.1
    · exact later event after

end Calls

/-- A condition that calls made before do not affect is met after them. -/
theorem Every.after {quiet : Op → Prop} {post : List (Σ op, Answer op) → α → Prop}
    {first : Script Op Answer β} {rest : β → Script Op Answer α} (begins : first.Only quiet)
    (stable : ∀ before after value, (∀ event ∈ before, quiet event.1) → post after value →
      post (before ++ after) value)
    (goes : ∀ value, (rest value).Every post) : (first >>= rest).Every post := by
  rw [every_bind]
  refine begins.every.weaken fun before value silent => ?_
  exact (goes value).weaken fun after final holds => stable before after final silent holds

/-- Every execution returns a result that meets the condition. -/
def Returns (result : α → Prop) : Script Op Answer α → Prop
  | .pure value => result value
  | .call _ next => ∀ answer, (next answer).Returns result

/-- A sequence returns what its last part returns. -/
theorem Returns.bind {result : α → Prop} {first : Script Op Answer β}
    {rest : β → Script Op Answer α} (goes : ∀ value, (rest value).Returns result) :
    (first >>= rest).Returns result := by
  change (first.bind rest).Returns result
  induction first with
  | pure value => exact goes value
  | call op next ih => exact ih

/-- The result of every execution is one of the script. -/
theorem Returns.every {result : α → Prop} {script : Script Op Answer α}
    (returns : script.Returns result) : script.Every fun _ value => result value := by
  induction script with
  | pure value => exact returns
  | call op next ih => exact fun answer => ih answer (returns answer)

/-- An execution in given surroundings. -/
structure Execution (Op : Type) (Answer : Op → Type) (α ω : Type) where
  /-- The calls made with the answers received, in order. -/
  events : List (Σ op, Answer op)
  /-- The result. -/
  value : α
  /-- The surroundings afterwards. -/
  world : ω

/-- The execution in surroundings that answer every call and may change with it. -/
def runOn {ω : Type} (serve : ω → (op : Op) → Answer op × ω) :
    Script Op Answer α → ω → Execution Op Answer α ω
  | .pure value, world => ⟨[], value, world⟩
  | .call op next, world =>
    let answered := serve world op
    let rest := (next answered.1).runOn serve answered.2
    { rest with events := ⟨op, answered.1⟩ :: rest.events }

section Executions

variable {ω : Type} (serve : ω → (op : Op) → Answer op × ω) (world : ω)

@[simp]
theorem runOn_pure (value : α) :
    (Pure.pure value : Script Op Answer α).runOn serve world = ⟨[], value, world⟩ := rfl

@[simp]
theorem runOn_perform (op : Op) : (perform op).runOn serve world =
    ⟨[⟨op, (serve world op).1⟩], (serve world op).1, (serve world op).2⟩ := rfl

/-- A sequence is executed part after part. -/
@[simp]
theorem runOn_bind (first : Script Op Answer β) (rest : β → Script Op Answer α) :
    (first >>= rest).runOn serve world =
      { (rest (first.runOn serve world).value).runOn serve (first.runOn serve world).world with
        events := (first.runOn serve world).events ++
          ((rest (first.runOn serve world).value).runOn serve
            (first.runOn serve world).world).events } := by
  change (first.bind rest).runOn serve world = _
  induction first generalizing world with
  | pure value => rfl
  | call op next ih => simp only [bind, runOn, ih, List.cons_append]

end Executions

/-- The execution in given surroundings meets the condition. -/
def Ends {ω : Type} (serve : ω → (op : Op) → Answer op × ω) (world : ω)
    (post : List (Σ op, Answer op) → α → ω → Prop) (script : Script Op Answer α) : Prop :=
  post (script.runOn serve world).events (script.runOn serve world).value
    (script.runOn serve world).world

section Endings

variable {ω : Type} {serve : ω → (op : Op) → Answer op × ω} {world : ω}
  {post : List (Σ op, Answer op) → α → ω → Prop}

/-- The condition may be weakened. -/
theorem Ends.weaken {weaker : List (Σ op, Answer op) → α → ω → Prop} {script : Script Op Answer α}
    (ends : script.Ends serve world post)
    (weaken : ∀ events value after, post events value after → weaker events value after) :
    script.Ends serve world weaker :=
  weaken _ _ _ ends

/-- A result without calls. -/
theorem ends_pure {value : α} :
    (Pure.pure value : Script Op Answer α).Ends serve world post ↔ post [] value world := Iff.rfl

/-- A sequence ends as its last part does in the surroundings that the first has left. -/
theorem Ends.bind {first : Script Op Answer β} {rest : β → Script Op Answer α}
    (ends : first.Ends serve world fun before value middle =>
      (rest value).Ends serve middle fun after final last => post (before ++ after) final last) :
    (first >>= rest).Ends serve world post := by
  unfold Ends
  rw [runOn_bind]
  exact ends

/-- A sequence that starts with one call. -/
theorem Ends.call {op : Op} {rest : Answer op → Script Op Answer α} {answer : Answer op} {after : ω}
    (answered : serve world op = (answer, after))
    (ends : (rest answer).Ends serve after fun events value last =>
      post (⟨op, answer⟩ :: events) value last) :
    ((perform op : Script Op Answer _) >>= rest).Ends serve world post := by
  apply Ends.bind
  unfold Ends
  rw [runOn_perform, answered]
  exact ends

/-- Two conditions that are met are met together. -/
theorem Ends.conj {other : List (Σ op, Answer op) → α → ω → Prop} {script : Script Op Answer α}
    (left : script.Ends serve world post) (right : script.Ends serve world other) :
    script.Ends serve world fun events value after =>
      post events value after ∧ other events value after :=
  ⟨left, right⟩

end Endings

/-- What every execution meets is met in all surroundings. -/
theorem Every.runOn {post : List (Σ op, Answer op) → α → Prop} {script : Script Op Answer α}
    (every : script.Every post) {ω : Type} (serve : ω → (op : Op) → Answer op × ω) (world : ω) :
    post (script.runOn serve world).events (script.runOn serve world).value := by
  induction script generalizing post world with
  | pure value => exact every
  | call op next ih => exact ih (serve world op).1 (every _) (serve world op).2

/-- The same as the condition that the execution ends with. -/
theorem Every.ends {post : List (Σ op, Answer op) → α → Prop} {script : Script Op Answer α}
    (every : script.Every post) {ω : Type} (serve : ω → (op : Op) → Answer op × ω) (world : ω) :
    script.Ends serve world fun events value _ => post events value :=
  every.runOn serve world

/-- A condition on the surroundings that every call allowed keeps is kept by every script that
makes no other calls; what it says of the answers holds of all of them. -/
theorem Only.runOn {ω : Type} (serve : ω → (op : Op) → Answer op × ω) {allowed : Op → Prop}
    {script : Script Op Answer α} (only : script.Only allowed) (holds : ω → Prop)
    (answers : (op : Op) → Answer op → Prop)
    (keep : ∀ world op, holds world → allowed op →
      holds (serve world op).2 ∧ answers op (serve world op).1)
    {world : ω} (start : holds world) :
    holds (script.runOn serve world).world ∧
      ∀ event ∈ (script.runOn serve world).events, answers event.1 event.2 := by
  induction script generalizing world with
  | pure value => exact ⟨start, fun event member => absurd member List.not_mem_nil⟩
  | call op next ih =>
    have step := keep world op start only.1
    have rest := ih (serve world op).1 (only.2 _) step.1
    refine ⟨rest.1, fun event member => ?_⟩
    rcases List.mem_cons.mp member with rfl | later
    · exact step.2
    · exact rest.2 event later

/-- A condition on the calls made so far and on the surroundings that every call allowed keeps holds
at the end. -/
theorem Only.runOn_history {ω : Type} (serve : ω → (op : Op) → Answer op × ω) {allowed : Op → Prop}
    {script : Script Op Answer α} (only : script.Only allowed)
    (holds : List (Σ op, Answer op) → ω → Prop)
    (keep : ∀ events world op, holds events world → allowed op →
      holds (events ++ [⟨op, (serve world op).1⟩]) (serve world op).2)
    {world : ω} (start : holds [] world) :
    holds (script.runOn serve world).events (script.runOn serve world).world := by
  induction script generalizing holds world with
  | pure value => exact start
  | call op next ih =>
    have first := keep [] world op start only.1
    exact ih (serve world op).1 (only.2 _) (fun events => holds (⟨op, (serve world op).1⟩ :: events))
      (fun events => keep (_ :: events)) first

end Script

end FileServer.Lib
