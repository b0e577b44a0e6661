import Mathlib.Data.List.Basic

/-!
# Tables searched for their first matching row

A loop over the rows of a table that stops at the first row meeting a test and updates it.
One lemma splits the table at that row; the rest of a proof speaks about the three parts.
-/
namespace FileServer.Lib

variable {α : Type}

/-- The first row that meets the test, as it was, and the table with that row updated. -/
def updateFirst (test : α → Bool) (update : α → α) : List α → Option α × List α
  | [] => (none, [])
  | row :: rest =>
    if test row then (some row, update row :: rest)
    else
      let (hit, rest) := updateFirst test update rest
      (hit, row :: rest)

/-- No row meets the test and nothing changes, or the first one that does is updated. -/
theorem updateFirst_cases (test : α → Bool) (update : α → α) (table : List α) :
    ((∀ row ∈ table, test row = false) ∧ updateFirst test update table = (none, table)) ∨
      ∃ before row after, table = before ++ row :: after ∧
        (∀ earlier ∈ before, test earlier = false) ∧ test row = true ∧
        table.findIdx test = before.length ∧
        updateFirst test update table = (some row, before ++ update row :: after) := by
  induction table with
  | nil => exact Or.inl ⟨by simp, rfl⟩
  | cons head rest ih =>
    cases met : test head with
    | true =>
      exact Or.inr ⟨[], head, rest, rfl, by simp, met, by simp [List.findIdx_cons, met],
        by simp [updateFirst, met]⟩
    | false =>
      obtain ⟨none, same⟩ | ⟨before, row, after, rfl, skipped, found, index, same⟩ := ih
      · exact Or.inl ⟨by simpa [met] using none, by simp [updateFirst, met, same]⟩
      · refine Or.inr ⟨head :: before, row, after, rfl, by simpa [met] using skipped, found, ?_,
          by simp [updateFirst, met, same]⟩
        simp [List.findIdx_cons, met, index]

/-- The table keeps its length. -/
@[simp]
theorem length_updateFirst (test : α → Bool) (update : α → α) (table : List α) :
    (updateFirst test update table).2.length = table.length := by
  obtain ⟨-, same⟩ | ⟨before, row, after, rfl, -, -, -, same⟩ :=
    updateFirst_cases test update table
  · rw [same]
  · simp [same]

/-- Without a row that meets the test nothing changes. -/
theorem updateFirst_of_find?_none {test : α → Bool} (update : α → α) {table : List α}
    (missing : table.find? test = none) : updateFirst test update table = (none, table) := by
  obtain ⟨-, same⟩ | ⟨before, row, after, rfl, -, met, -⟩ := updateFirst_cases test update table
  · exact same
  · exact absurd met (List.find?_eq_none.mp missing row (by simp))

/-- The row that a search finds is the one that is updated. -/
theorem updateFirst_of_find?_some {test : α → Bool} (update : α → α) {table : List α} {row : α}
    (found : table.find? test = some row) : ∃ before after, table = before ++ row :: after ∧
      updateFirst test update table = (some row, before ++ update row :: after) := by
  obtain ⟨fails, -⟩ | ⟨before, hit, after, rfl, skipped, met, -, same⟩ :=
    updateFirst_cases test update table
  · have passed := fails row (List.mem_of_find?_eq_some found)
    rw [List.find?_some found] at passed
    cases passed
  · have none : before.find? test = none :=
      List.find?_eq_none.mpr fun earlier member => by simp [skipped earlier member]
    rw [List.find?_append, none, Option.none_or, List.find?_cons_of_pos met] at found
    cases found
    exact ⟨before, after, rfl, same⟩

/-- A table in which one row is replaced: every row is the old one, or it is the one replaced. -/
theorem getElem?_replace (before after : List α) (old new : α) {index : Nat} {row : α}
    (found : (before ++ old :: after)[index]? = some row) :
    (before ++ new :: after)[index]? = some row ∨
      (index = before.length ∧ row = old ∧ (before ++ new :: after)[index]? = some new) := by
  rcases Nat.lt_trichotomy index before.length with early | here | late
  · left
    rw [List.getElem?_append_left early] at found ⊢
    exact found
  · right
    subst here
    obtain rfl : old = row := by simpa using found
    exact ⟨rfl, rfl, by simp⟩
  · left
    obtain ⟨distance, rfl⟩ := Nat.exists_eq_add_of_lt late
    have behind : before.length + distance + 1 - before.length = distance + 1 := by omega
    rw [List.getElem?_append_right (by omega), behind] at found ⊢
    exact found

/-- A row that fails the test stays as it is. -/
theorem getElem?_updateFirst {test : α → Bool} {update : α → α} {table : List α} {index : Nat}
    {row : α} (found : table[index]? = some row) (fails : test row = false) :
    (updateFirst test update table).2[index]? = some row := by
  obtain ⟨-, same⟩ | ⟨before, hit, after, rfl, -, met, -, same⟩ :=
    updateFirst_cases test update table
  · rw [same]
    exact found
  · rw [same]
    rcases getElem?_replace before after hit (update hit) found with kept | ⟨-, rfl, -⟩
    · exact kept
    · rw [met] at fails
      cases fails

/-- The first row that meets the test is updated. -/
theorem getElem?_updateFirst_findIdx? {test : α → Bool} {update : α → α} {table : List α}
    {index : Nat} (first : table.findIdx? test = some index) :
    (updateFirst test update table).2[index]? = table[index]?.map update := by
  obtain ⟨fails, -⟩ | ⟨before, hit, after, rfl, -, -, here, same⟩ :=
    updateFirst_cases test update table
  · rw [List.findIdx?_eq_none_iff.mpr fails] at first
    cases first
  · rw [List.findIdx?_eq_some_iff_findIdx_eq] at first
    obtain rfl : before.length = index := here.symm.trans first.2
    rw [same]
    simp

end FileServer.Lib
