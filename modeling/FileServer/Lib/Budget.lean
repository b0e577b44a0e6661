import FileServer.Lib.Script
import Mathlib.Algebra.GroupWithZero.Nat

/-!
# Budgets of scripts

Some calls of a script have a cost, and after some answers a copy of the caller goes on with an answer
of its own, as behind a `fork`. A script keeps to a budget if on every branch the costs of the caller
and of its copies together stay within it; where a copy splits off, what is left is shared.
-/
namespace FileServer.Lib

/-- What calls cost, and the copies that their answers split off. -/
structure Meter (Op : Type) (Answer : Op → Type) where
  /-- The cost of a call. -/
  cost : Op → Nat
  /-- The answer with which a copy of the caller goes on. -/
  copy : (op : Op) → Answer op → Option (Answer op)

namespace Script

variable {Op : Type} {Answer : Op → Type} {α β : Type}

/-- The script behind its next call, when that is the one answered. -/
def resume [DecidableEq Op] (script : Script Op Answer α) (event : Σ op, Answer op) :
    Option (Script Op Answer α) :=
  match script with
  | .pure _ => none
  | .call op next => if same : event.1 = op then some (next (same ▸ event.2)) else none

/-- A script goes on exactly with an answer to its next call. -/
theorem resume_eq_some [DecidableEq Op] {script rest : Script Op Answer α} {op : Op}
    {answer : Answer op} : script.resume ⟨op, answer⟩ = some rest ↔
      ∃ next, script = .call op next ∧ rest = next answer := by
  cases script with
  | pure value => simp [resume]
  | call made next =>
    unfold resume
    by_cases same : op = made
    · subst same
      simp [eq_comm]
    · simp [same, Ne.symm same]

variable (meter : Meter Op Answer)

/-- Whatever is answered, the script and its copies stay within the budget. -/
def Within : Script Op Answer α → Nat → Prop
  | .pure _, _ => True
  | .call op next, budget => ∀ answer, ∃ mine theirs, meter.cost op + (mine + theirs) ≤ budget ∧
      (next answer).Within mine ∧
        ∀ other, meter.copy op answer = some other → (next other).Within theirs

/-- What the calls made have cost. -/
def spent (events : List (Σ op, Answer op)) : Nat :=
  (events.map fun event => meter.cost event.1).sum

/-- One call more. -/
theorem spent_cons (op : Op) (answer : Answer op) (later : List (Σ op, Answer op)) :
    spent meter (⟨op, answer⟩ :: later) = meter.cost op + spent meter later := by
  unfold spent
  rw [List.map_cons, List.sum_cons]

/-- A copy has split off behind one of the calls. -/
def Splits (events : List (Σ op, Answer op)) : Prop :=
  ∃ event ∈ events, (meter.copy event.1 event.2).isSome = true

/-- A copy that has split off behind later calls. -/
theorem splits_cons {meter : Meter Op Answer} {event : Σ op, Answer op}
    {later : List (Σ op, Answer op)} (splits : Splits meter later) :
    Splits meter (event :: later) := by
  obtain ⟨other, member, copied⟩ := splits
  exact ⟨other, List.mem_cons_of_mem _ member, copied⟩

section Rules

variable {meter} {script : Script Op Answer α} {budget : Nat}

/-- A larger budget does as well. -/
theorem Within.mono (within : script.Within meter budget) {more : Nat} (larger : budget ≤ more) :
    script.Within meter more := by
  cases script with
  | pure value => trivial
  | call op next =>
    intro answer
    obtain ⟨mine, theirs, bound, goes, copies⟩ := within answer
    exact ⟨mine, theirs, Nat.le_trans bound larger, goes, copies⟩

/-- Calls that cost nothing and split off no copy. -/
theorem Within.quiet {first : Script Op Answer β} {rest : β → Script Op Answer α}
    (begins : first.Only fun op => meter.cost op = 0 ∧ ∀ answer, meter.copy op answer = none)
    (goes : ∀ value, (rest value).Within meter budget) :
    (first >>= rest).Within meter budget := by
  change (first.bind rest).Within meter budget
  induction first with
  | pure value => exact goes value
  | call op next ih =>
    obtain ⟨⟨free, single⟩, later⟩ := begins
    intro answer
    refine ⟨budget, 0, by omega, ih answer (later answer), fun other splits => ?_⟩
    rw [single answer] at splits
    cases splits

/-- A script all of whose calls cost nothing and split off no copy. -/
theorem Only.within
    (quiet : script.Only fun op => meter.cost op = 0 ∧ ∀ answer, meter.copy op answer = none) :
    script.Within meter budget := by
  induction script with
  | pure value => trivial
  | call op next ih =>
    obtain ⟨⟨free, single⟩, later⟩ := quiet
    intro answer
    refine ⟨budget, 0, by omega, ih answer (later answer), fun other splits => ?_⟩
    rw [single answer] at splits
    cases splits

/-- What comes last costs nothing. -/
theorem Within.free {first : Script Op Answer β} {rest : β → Script Op Answer α}
    (begins : first.Within meter budget) (goes : ∀ value, (rest value).Within meter 0) :
    (first >>= rest).Within meter budget := by
  change (first.bind rest).Within meter budget
  induction first generalizing budget with
  | pure value => exact (goes value).mono (Nat.zero_le _)
  | call op next ih =>
    intro answer
    obtain ⟨mine, theirs, bound, goes, copies⟩ := begins answer
    exact ⟨mine, theirs, bound, ih answer goes, fun other splits => ih other (copies other splits)⟩

/-- Behind an answer the script and the copy that it splits off share what is left. -/
theorem Within.resume [DecidableEq Op] {rest : Script Op Answer α}
    (within : script.Within meter budget) {op : Op} {answer : Answer op}
    (resumed : script.resume ⟨op, answer⟩ = some rest) :
    ∃ mine theirs, meter.cost op + (mine + theirs) ≤ budget ∧ rest.Within meter mine ∧
      ∀ other copy, meter.copy op answer = some other → script.resume ⟨op, other⟩ = some copy →
        copy.Within meter theirs := by
  obtain ⟨next, rfl, rfl⟩ := resume_eq_some.mp resumed
  obtain ⟨mine, theirs, bound, goes, copies⟩ := within answer
  refine ⟨mine, theirs, bound, goes, fun other copy splits copied => ?_⟩
  obtain ⟨same, called, rfl⟩ := resume_eq_some.mp copied
  cases called
  exact copies other splits

/-- A script keeps to a budget that no execution exceeds, if those in which a copy splits off spend
nothing; some answer to every call shows that there are executions. -/
theorem Within.of_every (some_ : (op : Op) → Answer op)
    (every : script.Every fun events _ => spent meter events ≤ budget ∧
      (Splits meter events → spent meter events = 0)) :
    script.Within meter budget := by
  induction script generalizing budget with
  | pure value => trivial
  | call op next ih =>
    intro answer
    obtain ⟨enough, free⟩ := (every answer).runOn (fun _ op => (some_ op, ())) ()
    rw [spent_cons] at enough free
    cases splits : meter.copy op answer with
    | none =>
      refine ⟨budget - meter.cost op, 0, by omega, ih answer ?_, by simp⟩
      refine (every answer).weaken fun events value kept => ?_
      dsimp only at kept
      rw [spent_cons] at kept
      refine ⟨by omega, fun copied => ?_⟩
      have nothing := kept.2 (splits_cons copied)
      omega
    | some other =>
      have costless := free ⟨_, List.mem_cons_self, by rw [splits]; rfl⟩
      refine ⟨0, budget, by omega, ih answer ?_, fun copy same => ih copy ?_⟩
      · refine (every answer).weaken fun events value kept => ?_
        dsimp only at kept
        rw [spent_cons] at kept
        have nothing := kept.2 ⟨_, List.mem_cons_self, by rw [splits]; rfl⟩
        exact ⟨by omega, fun _ => by omega⟩
      · refine (every copy).weaken fun events value kept => ?_
        dsimp only at kept
        rw [spent_cons] at kept
        refine ⟨by omega, fun copied => ?_⟩
        have nothing := kept.2 (splits_cons copied)
        omega

end Rules

end Script

end FileServer.Lib
