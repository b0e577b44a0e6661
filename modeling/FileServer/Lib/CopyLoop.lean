import Mathlib.Data.List.Basic

/-!
# Copying loops

A loop that copies a stream reads a block, writes all of it, and starts over until a `read`
brings nothing. Every call may move less than it could, and a call that fails ends the loop.
Whatever the sizes, what a loop has written and what it still holds is what it has read.
-/
namespace FileServer.Lib

/-- Where a copying loop stands. -/
inductive CopyLoop
  /-- About to read a block. -/
  | reading
  /-- About to write what is left of a block. -/
  | writing (left : List UInt8)
  /-- The loop is over. -/
  | stopped
deriving DecidableEq

/-- A system call of a copying loop. -/
inductive CopyCall
  /-- A `read` brings at most that many bytes beyond the first. -/
  | read (more : Nat)
  /-- A `read` brings nothing. -/
  | readEnd
  /-- A `read` fails. -/
  | readFails
  /-- A `write` takes at most that many bytes beyond the first. -/
  | write (more : Nat)
  /-- A `write` fails. -/
  | writeFails
deriving DecidableEq

/-- The call fails. -/
def CopyCall.fails : CopyCall → Bool
  | readFails | writeFails => true
  | read _ | readEnd | write _ => false

/-- What a call does. -/
structure CopyStep where
  /-- The loop afterwards. -/
  loop : CopyLoop
  /-- Number of bytes taken from the source. -/
  taken : Nat
  /-- Bytes given to the sink. -/
  given : List UInt8
deriving DecidableEq

namespace CopyLoop

/-- What has been read and not yet written. -/
def held : CopyLoop → List UInt8
  | writing left => left
  | reading | stopped => []

/-- One call of the loop, with the size of its buffer, what the source has ready and whether
nothing will follow that; none when the call waits. -/
def next (limit : Nat) (source : List UInt8) (closed : Bool) :
    CopyLoop → CopyCall → Option CopyStep
  | reading, .read more =>
    let block := source.take (min (more + 1) limit)
    if source = [] then none else some ⟨writing block, block.length, []⟩
  | reading, .readEnd => if source = [] ∧ closed then some ⟨stopped, 0, []⟩ else none
  | reading, .readFails => some ⟨stopped, 0, []⟩
  | writing left, .write more =>
    let rest := left.drop (more + 1)
    some ⟨if rest = [] then reading else writing rest, 0, left.take (more + 1)⟩
  | writing _, .writeFails => some ⟨stopped, 0, []⟩
  | _, _ => none

variable {limit : Nat} {source : List UInt8} {closed : Bool} {loop : CopyLoop} {call : CopyCall}
  {step : CopyStep}

/-- What a block leaves of its source, in terms of its length. -/
theorem drop_length_take (count : Nat) (source : List UInt8) :
    source.drop (source.take count).length = source.drop count := by
  rw [List.length_take]
  rcases Nat.le_total count source.length with fits | cut
  · rw [Nat.min_eq_left fits]
  · rw [Nat.min_eq_right cut, List.drop_length, List.drop_of_length_le cut]

/-- A call that does not fail moves bytes on in their order. -/
theorem next_conserves (stepped : loop.next limit source closed call = some step)
    (succeeds : call.fails = false) :
    step.given ++ (step.loop.held ++ source.drop step.taken) = loop.held ++ source := by
  cases loop with
  | reading =>
    cases call with
    | read more =>
      simp only [next, Option.ite_none_left_eq_some, Option.some.injEq] at stepped
      obtain ⟨-, rfl⟩ := stepped
      show source.take _ ++ source.drop (source.take _).length = source
      rw [drop_length_take, List.take_append_drop]
    | readEnd =>
      simp only [next, Option.ite_none_right_eq_some, Option.some.injEq] at stepped
      obtain ⟨-, rfl⟩ := stepped
      rfl
    | readFails => cases succeeds
    | write more => cases stepped
    | writeFails => cases stepped
  | writing left =>
    cases call with
    | write more =>
      simp only [next, Option.some.injEq] at stepped
      subst stepped
      have whole := List.take_append_drop (more + 1) left
      split
      · rename_i done
        rw [done, List.append_nil] at whole
        rw [whole]
        rfl
      · rw [← List.append_assoc]
        exact congrArg (· ++ source) whole
    | writeFails => cases succeeds
    | read more => cases stepped
    | readEnd => cases stepped
    | readFails => cases stepped
  | stopped => cases call <;> cases stepped

/-- A call that does not fail moves on as many bytes as it takes, and no more than the buffer
holds. -/
theorem next_counts (stepped : loop.next limit source closed call = some step)
    (succeeds : call.fails = false) :
    step.given.length + step.loop.held.length = loop.held.length + step.taken ∧
      step.taken ≤ limit := by
  cases loop with
  | reading =>
    cases call with
    | read more =>
      simp only [next, Option.ite_none_left_eq_some, Option.some.injEq] at stepped
      obtain ⟨-, rfl⟩ := stepped
      refine ⟨rfl, ?_⟩
      show (source.take _).length ≤ limit
      rw [List.length_take]
      omega
    | readEnd =>
      simp only [next, Option.ite_none_right_eq_some, Option.some.injEq] at stepped
      obtain ⟨-, rfl⟩ := stepped
      exact ⟨rfl, Nat.zero_le _⟩
    | readFails => cases succeeds
    | write more => cases stepped
    | writeFails => cases stepped
  | writing left =>
    cases call with
    | write more =>
      simp only [next, Option.some.injEq] at stepped
      subst stepped
      have whole := congrArg List.length (List.take_append_drop (more + 1) left)
      rw [List.length_append] at whole
      refine ⟨?_, Nat.zero_le _⟩
      split
      · rename_i done
        rw [done] at whole
        exact whole
      · exact whole
    | writeFails => cases succeeds
    | read more => cases stepped
    | readEnd => cases stepped
    | readFails => cases stepped
  | stopped => cases call <;> cases stepped

/-- A call that fails moves nothing and ends the loop. -/
theorem next_fails (stepped : loop.next limit source closed call = some step)
    (fails : call.fails = true) : step = ⟨stopped, 0, []⟩ := by
  cases loop <;> cases call <;> cases fails <;> cases stepped <;> rfl

/-- Unless a call fails, the loop is over only when the source has been read to its end and
everything is written. -/
theorem next_over (stepped : loop.next limit source closed call = some step)
    (succeeds : call.fails = false) (ends : step.loop = stopped) :
    loop = reading ∧ call = .readEnd ∧ source = [] ∧ closed = true := by
  cases loop with
  | reading =>
    cases call with
    | readEnd =>
      simp only [next, Option.ite_none_right_eq_some] at stepped
      exact ⟨rfl, rfl, stepped.1⟩
    | read more =>
      simp only [next, Option.ite_none_left_eq_some, Option.some.injEq] at stepped
      obtain ⟨-, rfl⟩ := stepped
      cases ends
    | readFails => cases succeeds
    | write more => cases stepped
    | writeFails => cases stepped
  | writing left =>
    cases call with
    | write more =>
      simp only [next, Option.some.injEq] at stepped
      subst stepped
      split at ends <;> cases ends
    | writeFails => cases succeeds
    | read more => cases stepped
    | readEnd => cases stepped
    | readFails => cases stepped
  | stopped => cases call <;> cases stepped

/-- What the loop still has to do with its source and with what it holds, where every byte that it
writes leaves some work to others. -/
def work (leaves : Nat) (source : List UInt8) (loop : CopyLoop) : Nat :=
  (leaves + 4) * source.length + (leaves + 2) * loop.held.length +
    match loop with
    | reading => 1
    | writing _ => 2
    | stopped => 0

/-- A call that does not fail brings the loop on, unless it asks for no bytes. -/
theorem next_work (leaves : Nat) (room : loop = reading → 0 < limit)
    (stepped : loop.next limit source closed call = some step) (succeeds : call.fails = false) :
    step.loop.work leaves (source.drop step.taken) + leaves * step.given.length <
      loop.work leaves source := by
  have counts := (next_counts stepped succeeds).1
  have moves := congrArg List.length (next_conserves stepped succeeds)
  simp only [List.length_append] at moves
  unfold work
  cases loop with
  | reading =>
    cases call with
    | read more =>
      simp only [next, Option.ite_none_left_eq_some, Option.some.injEq] at stepped
      obtain ⟨some_, rfl⟩ := stepped
      have taken : 0 < (source.take (min (more + 1) limit)).length := by
        rw [List.length_take]
        have ready := List.length_pos_iff.mpr some_
        have asked := room rfl
        omega
      simp only [held, List.length_nil] at moves counts ⊢
      generalize (source.take (min (more + 1) limit)).length = count at *
      have rest : source.length = count + (source.drop count).length := by omega
      rw [rest, Nat.mul_add, Nat.add_mul leaves 4 count, Nat.add_mul leaves 2 count]
      omega
    | readEnd =>
      simp only [next, Option.ite_none_right_eq_some, Option.some.injEq] at stepped
      obtain ⟨-, rfl⟩ := stepped
      exact Nat.lt_succ_self _
    | readFails => cases succeeds
    | write more => cases stepped
    | writeFails => cases stepped
  | writing left =>
    cases call with
    | write more =>
      simp only [next, Option.some.injEq] at stepped
      subst stepped
      have whole := congrArg List.length (List.take_append_drop (more + 1) left)
      rw [List.length_append] at whole
      have total : (leaves + 2) * left.length =
          (leaves + 2) * (left.drop (more + 1)).length +
            (leaves * (left.take (more + 1)).length + 2 * (left.take (more + 1)).length) := by
        rw [← whole, Nat.mul_add, Nat.add_mul leaves 2 (left.take (more + 1)).length]
        omega
      split
      · rename_i done
        rw [done] at total
        simp only [held, List.drop_zero, List.length_nil] at total ⊢
        omega
      · rename_i more_
        have given : 0 < (left.take (more + 1)).length := by
          rw [List.length_take]
          have rest := List.length_pos_iff.mpr more_
          rw [List.length_drop] at rest
          omega
        simp only [held, List.drop_zero] at total ⊢
        omega
    | writeFails => cases succeeds
    | read more => cases stepped
    | readEnd => cases stepped
    | readFails => cases stepped
  | stopped => cases call <;> cases stepped

/-- A loop that is not over can go on, when its source has bytes ready or nothing will follow. -/
theorem next_ready (limit : Nat) (goes : loop ≠ stopped) (ready : source ≠ [] ∨ closed = true) :
    ∃ call step, call.fails = false ∧ loop.next limit source closed call = some step := by
  cases loop with
  | reading =>
    by_cases none : source = []
    · exact ⟨.readEnd, _, rfl, if_pos ⟨none, ready.resolve_left (· none)⟩⟩
    · exact ⟨.read 0, _, rfl, if_neg none⟩
  | writing left => exact ⟨.write 0, _, rfl, rfl⟩
  | stopped => exact absurd rfl goes

end CopyLoop

end FileServer.Lib
