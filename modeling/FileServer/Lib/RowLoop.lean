import Mathlib.Data.List.Basic
import FileServer.Lib.Table

/-!
# Loops over the rows of a table

A loop that looks at one row after another by its index, replaces it, and carries local variables along.
On a table that nobody else touches, the passes of the loop are a recursion over the rows; a loop that
stops at the first row meeting a test is the search of that row.
-/
namespace FileServer.Lib

variable {α β : Type}

/-- One pass of the loop. -/
def visitRow (visit : Nat → α → β → α × β) (index : Nat) (state : List α × β) : List α × β :=
  match state.1[index]? with
  | none => state
  | some row => (state.1.set index (visit index row state.2).1, (visit index row state.2).2)

/-- All passes from an index on. -/
def visitRows (visit : Nat → α → β → α × β) : Nat → List α → β → List α × β
  | _, [], known => ([], known)
  | index, row :: rest, known =>
    let (row, known) := visit index row known
    let (rest, known) := visitRows visit (index + 1) rest known
    (row :: rest, known)

/-- A pass leaves the number of rows. -/
@[simp]
theorem length_visitRow (visit : Nat → α → β → α × β) (index : Nat) (state : List α × β) :
    (visitRow visit index state).1.length = state.1.length := by
  unfold visitRow
  split
  · rfl
  · exact List.length_set

/-- A pass over a row behind others. -/
theorem visitRow_append (visit : Nat → α → β → α × β) (before : List α) (row : α) (rest : List α)
    (known : β) : visitRow visit before.length (before ++ row :: rest, known) =
      (before ++ [(visit before.length row known).1] ++ rest, (visit before.length row known).2) := by
  unfold visitRow
  simp

/-- A change of a row behind others. -/
theorem modify_behind (change : α → α) (before : List α) (row : α) (rest : List α) :
    (before ++ row :: rest).modify before.length change = before ++ change row :: rest := by
  induction before with
  | nil => rfl
  | cons first before ih => exact congrArg (first :: ·) ih

/-- The passes of the loop are the recursion over the rows. -/
theorem foldl_visitRow (visit : Nat → α → β → α × β) (table : List α) (known : β) :
    (List.range table.length).foldl (fun state index => visitRow visit index state)
      (table, known) = visitRows visit 0 table known := by
  -- what lies before the index has been visited
  have behind : ∀ (rest before : List α) (known : β),
      (List.range' before.length rest.length).foldl (fun state index => visitRow visit index state)
        (before ++ rest, known) =
      (before ++ (visitRows visit before.length rest known).1,
        (visitRows visit before.length rest known).2) := by
    intro rest
    induction rest with
    | nil => exact fun before known => rfl
    | cons row rest ih =>
      intro before known
      have visited := ih (before ++ [(visit before.length row known).1])
        (visit before.length row known).2
      rw [List.length_append, List.length_singleton] at visited
      rw [List.length_cons, List.range'_succ, List.foldl_cons, visitRow_append, visited,
        List.append_assoc]
      rfl
  rw [List.range_eq_range']
  exact behind table [] known

/-- Passes that act on one part of a state act there as the passes on the part alone, and keep what each
of them keeps. -/
theorem foldl_part {σ ρ γ : Type} (access : Nat → σ × β → σ × β)
    (pass : Nat → ρ × β → ρ × β) (part : σ → ρ) (other : σ → γ)
    (acts : ∀ index state, (part (access index state).1, (access index state).2) =
      pass index (part state.1, state.2))
    (keeps : ∀ index state, other (access index state).1 = other state.1)
    (indices : List Nat) (state : σ × β) :
    let left := (indices.map access).foldl (fun state access => access state) state
    (part left.1, left.2) = indices.foldl (fun state index => pass index state)
        (part state.1, state.2) ∧
      other left.1 = other state.1 := by
  induction indices generalizing state with
  | nil => exact ⟨rfl, rfl⟩
  | cons index indices ih =>
    obtain ⟨acted, kept⟩ := ih (access index state)
    rw [acts] at acted
    exact ⟨acted, kept.trans (keeps index state)⟩

/-- A pass of a loop that stops at the first row meeting a test and updates it. -/
def firstRow (test : α → Bool) (update : α → α) (_ : Nat) (row : α) (hit : Option α) :
    α × Option α :=
  match hit with
  | some found => (row, some found)
  | none => if test row then (update row, some row) else (row, none)

/-- Such a loop is the search with an update. -/
theorem visitRows_firstRow (test : α → Bool) (update : α → α) (index : Nat) (table : List α) :
    visitRows (firstRow test update) index table none =
      ((updateFirst test update table).2, (updateFirst test update table).1) := by
  -- behind the row nothing changes
  have done : ∀ (rest : List α) (index : Nat) (found : α),
      visitRows (firstRow test update) index rest (some found) = (rest, some found) := by
    intro rest
    induction rest with
    | nil => exact fun index found => rfl
    | cons row rest ih =>
      intro index found
      simp only [visitRows, firstRow, ih]
  induction table generalizing index with
  | nil => rfl
  | cons row rest ih =>
    cases met : test row with
    | true => simp only [visitRows, firstRow, updateFirst, met, if_true, done]
    | false => simp only [visitRows, firstRow, updateFirst, met, Bool.false_eq_true, if_false, ih]

/-- A search that updates nothing. -/
theorem updateFirst_id (test : α → Bool) (table : List α) :
    updateFirst test id table = (table.find? test, table) := by
  induction table with
  | nil => rfl
  | cons row rest ih =>
    cases met : test row with
    | true => simp [updateFirst, met]
    | false => simp [updateFirst, met, ih]

/-- A pass of a loop that visits every row on its own and gathers what it finds. -/
def everyRow {γ : Type} (visit : α → α × List γ) (_ : Nat) (row : α) (found : List γ) :
    α × List γ :=
  ((visit row).1, found ++ (visit row).2)

/-- Such a loop changes and gathers row by row. -/
theorem visitRows_everyRow {γ : Type} (visit : α → α × List γ) (index : Nat) (table : List α)
    (found : List γ) : visitRows (everyRow visit) index table found =
      (table.map fun row => (visit row).1, found ++ table.flatMap fun row => (visit row).2) := by
  induction table generalizing index found with
  | nil => simp [visitRows]
  | cons row rest ih => simp [visitRows, everyRow, ih]

/-- A pass of a loop that changes every row on its own. -/
def changeRow (change : α → α) (_ : Nat) (row : α) (known : β) : α × β := (change row, known)

/-- Such a loop changes row by row. -/
theorem visitRows_changeRow (change : α → α) (index : Nat) (table : List α) (known : β) :
    visitRows (changeRow change) index table known = (table.map change, known) := by
  induction table generalizing index with
  | nil => rfl
  | cons row rest ih => simp [visitRows, changeRow, ih]

/-- A pass of a loop that looks for the index of the first row meeting a test. -/
def firstIndex (test : α → Bool) (index : Nat) (row : α) (hit : Option Nat) : α × Option Nat :=
  match hit with
  | some found => (row, some found)
  | none => if test row then (row, some index) else (row, none)

/-- Such a loop is the search of the index. -/
theorem visitRows_firstIndex (test : α → Bool) (index : Nat) (table : List α) :
    visitRows (firstIndex test) index table none =
      (table, (table.findIdx? test).map (index + ·)) := by
  have done : ∀ (rest : List α) (index found : Nat),
      visitRows (firstIndex test) index rest (some found) = (rest, some found) := by
    intro rest
    induction rest with
    | nil => exact fun index found => rfl
    | cons row rest ih =>
      intro index found
      simp only [visitRows, firstIndex, ih]
  induction table generalizing index with
  | nil => rfl
  | cons row rest ih =>
    cases met : test row with
    | true => simp [visitRows, firstIndex, met, done, List.findIdx?_cons]
    | false =>
      simp only [visitRows, firstIndex, met, Bool.false_eq_true, if_false, ih, List.findIdx?_cons,
        Option.map_map]
      refine congrArg (Prod.mk _) (congrArg (Option.map · _) (funext fun position => ?_))
      show index + 1 + position = index + (position + 1)
      omega

end FileServer.Lib
