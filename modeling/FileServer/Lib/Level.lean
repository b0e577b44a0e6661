import Mathlib.Data.List.Infix

/-!
# Counters that stop at zero

A counter that some events raise and others lower, but never below zero. It is the largest surplus of
rises over falls at the end of the events, so it is zero exactly if no end of them has more rises than
falls.
-/
namespace FileServer.Lib

variable {α : Type} (up down : α → Bool)

/-- The counter after an event. -/
def levelAfter (level : Nat) (event : α) : Nat :=
  if up event then level + 1 else if down event then level - 1 else level

/-- The counter after the events, oldest first. -/
def level (events : List α) : Nat := events.foldl (levelAfter up down) 0

/-- One more event. -/
theorem level_append (events : List α) (event : α) :
    level up down (events ++ [event]) = levelAfter up down (level up down events) event := by
  unfold level
  rw [List.foldl_append]
  rfl

/-- The falls among the events. -/
def falls (events : List α) : Nat := events.countP fun event => !up event && down event

/-- No end of the events has a surplus beyond the counter. -/
theorem surplus_le_level {events tail : List α} (suffix : tail <:+ events) :
    tail.countP up ≤ falls up down tail + level up down events := by
  obtain ⟨front, rfl⟩ := suffix
  induction tail using List.reverseRecOn with
  | nil => simp
  | append_singleton tail event ih =>
    rw [← List.append_assoc, level_append]
    unfold falls levelAfter
    rw [List.countP_append, List.countP_append, List.countP_singleton, List.countP_singleton]
    unfold falls at ih
    cases rises : up event with
    | true =>
      simp only [Bool.not_true, Bool.false_and, Bool.false_eq_true, if_false, if_true]
      omega
    | false =>
      cases lowers : down event with
      | true =>
        simp only [Bool.not_false, Bool.true_and, Bool.false_eq_true, if_false, if_true]
        omega
      | false =>
        simp only [Bool.not_false, Bool.and_false, Bool.false_eq_true, if_false]
        omega

/-- Some end of the events has the counter as its surplus. -/
theorem exists_surplus_eq_level (events : List α) : ∃ tail, tail <:+ events ∧
    tail.countP up = falls up down tail + level up down events := by
  induction events using List.reverseRecOn with
  | nil => exact ⟨[], List.suffix_rfl, rfl⟩
  | append_singleton events event ih =>
    obtain ⟨tail, suffix, surplus⟩ := ih
    rw [level_append]
    by_cases stops : up event = false ∧ down event = true ∧ level up down events = 0
    · -- the counter is at zero and stays there
      obtain ⟨rises, lowers, zero⟩ := stops
      refine ⟨[], List.nil_suffix, ?_⟩
      unfold falls levelAfter
      simp [rises, lowers, zero]
    · refine ⟨tail ++ [event], (List.suffix_append_inj_of_length_eq rfl).mpr ⟨suffix, rfl⟩, ?_⟩
      unfold falls levelAfter
      unfold falls at surplus
      rw [List.countP_append, List.countP_append, List.countP_singleton, List.countP_singleton]
      cases rises : up event with
      | true =>
        simp only [Bool.not_true, Bool.false_and, Bool.false_eq_true, if_false, if_true]
        omega
      | false =>
        cases lowers : down event with
        | true =>
          have some_ : level up down events ≠ 0 := fun zero => stops ⟨rises, lowers, zero⟩
          simp only [Bool.not_false, Bool.true_and, Bool.false_eq_true, if_false, if_true]
          omega
        | false =>
          simp only [Bool.not_false, Bool.and_false, Bool.false_eq_true, if_false]
          omega

/-- The counter is zero exactly if no end of the events has more rises than falls. -/
theorem level_eq_zero_iff (events : List α) : level up down events = 0 ↔
    ∀ tail, tail <:+ events → tail.countP up ≤ falls up down tail := by
  constructor
  · intro zero tail suffix
    have bound := surplus_le_level up down suffix
    rwa [zero, Nat.add_zero] at bound
  · intro none
    obtain ⟨tail, suffix, surplus⟩ := exists_surplus_eq_level up down events
    have bound := none tail suffix
    omega

end FileServer.Lib
