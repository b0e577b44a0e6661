import Mathlib.Data.List.Basic

/-!
# Record locks

The lock table of one file under `fcntl`: which process holds which kind of lock on the whole
file. A request is granted when no other process holds a conflicting lock, and replaces the
lock the process already has. A process that asks for no lock is not hindered by the table.
-/
namespace FileServer.Lib

/-- The two kinds of record lock. -/
inductive LockMode
  /-- A read lock, compatible with other read locks. -/
  | shared
  /-- A write lock, compatible with nothing. -/
  | exclusive
deriving DecidableEq

/-- The locks held on one file, by process. -/
abbrev LockTable (process : Type) := List (process × LockMode)

namespace LockTable

variable {process : Type}

/-- The process holds a lock of some kind. -/
def Holds (table : LockTable process) (holder : process) : Prop :=
  ∃ mode, (holder, mode) ∈ table

/-- A write lock excludes every lock of another process. -/
def Consistent (table : LockTable process) : Prop :=
  ∀ holder other mode, (holder, LockMode.exclusive) ∈ table → (other, mode) ∈ table →
    other = holder

/-- An empty table is consistent. -/
theorem consistent_nil : Consistent ([] : LockTable process) := by
  intro _ _ _ member
  simp at member

/-- While one process holds a write lock no other process holds any lock. -/
theorem Consistent.exclusive {table : LockTable process} (consistent : table.Consistent)
    {holder other : process} (writes : (holder, LockMode.exclusive) ∈ table)
    (also : table.Holds other) : other = holder := by
  obtain ⟨mode, member⟩ := also
  exact consistent holder other mode writes member

variable [DecidableEq process]

/-- No other process holds a lock that conflicts with the request. -/
def grantable (table : LockTable process) (caller : process) (mode : LockMode) : Bool :=
  table.all fun held => held.1 = caller ∨ (held.2 = .shared ∧ mode = .shared)

/-- The table without the locks of the process. -/
def release (table : LockTable process) (caller : process) : LockTable process :=
  table.filter fun held => held.1 ≠ caller

/-- The table after a granted request. -/
def acquire (table : LockTable process) (caller : process) (mode : LockMode) :
    LockTable process :=
  (caller, mode) :: table.release caller

@[simp]
theorem mem_release {table : LockTable process} {caller holder : process} {mode : LockMode} :
    (holder, mode) ∈ table.release caller ↔ (holder, mode) ∈ table ∧ holder ≠ caller := by
  simp [release]

@[simp]
theorem mem_acquire {table : LockTable process} {caller holder : process}
    {mode held : LockMode} :
    (holder, held) ∈ table.acquire caller mode ↔
      (holder = caller ∧ held = mode) ∨ ((holder, held) ∈ table ∧ holder ≠ caller) := by
  simp [acquire]

/-- Releasing keeps the table consistent. -/
theorem Consistent.release {table : LockTable process} (consistent : table.Consistent)
    (caller : process) : (table.release caller).Consistent := by
  intro holder other mode writes also
  exact consistent holder other mode (mem_release.mp writes).1 (mem_release.mp also).1

/-- What the table allows: every other lock is compatible with the request. -/
theorem grantable_iff {table : LockTable process} {caller : process} {mode : LockMode} :
    table.grantable caller mode = true ↔
      ∀ holder held, (holder, held) ∈ table → holder ≠ caller →
        held = .shared ∧ mode = .shared := by
  simp only [grantable, List.all_eq_true, decide_eq_true_eq, Prod.forall]
  constructor
  · intro grant holder held member other
    exact (grant holder held member).resolve_left other
  · intro compatible holder held member
    by_cases same : holder = caller
    · exact Or.inl same
    · exact Or.inr (compatible holder held member same)

/-- A granted request keeps the table consistent. -/
theorem Consistent.acquire {table : LockTable process} (consistent : table.Consistent)
    {caller : process} {mode : LockMode} (grant : table.grantable caller mode = true) :
    (table.acquire caller mode).Consistent := by
  have compatible := grantable_iff.mp grant
  intro holder other held writes also
  rcases mem_acquire.mp writes with ⟨rfl, rfl⟩ | ⟨member, different⟩
  · rcases mem_acquire.mp also with ⟨rfl, -⟩ | ⟨elsewhere, apart⟩
    · rfl
    · exact absurd (compatible other held elsewhere apart).2 (by decide)
  · rcases mem_acquire.mp also with ⟨rfl, rfl⟩ | ⟨elsewhere, -⟩
    · exact absurd (compatible holder .exclusive member different).1 (by decide)
    · exact consistent holder other held member elsewhere

end LockTable

end FileServer.Lib
