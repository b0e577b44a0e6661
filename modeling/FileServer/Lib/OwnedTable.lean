import Mathlib.Logic.Function.Basic
import FileServer.Lib.Table

/-!
# Tables of rows with owners

A table whose rows are in use or not, each with the name of an owner, which stays in the row when
the row is given up. An owner takes the first row that is not in use, and gives up the first row
that carries its name, in use or not. Owners come and go, and a name may return. The two searches
fit together because no row before that of an owner ever carries its name.
-/
namespace FileServer.Lib

variable {α name : Type}

/-- The place of every owner that has a row; no other row is in use. -/
structure Owned (active : α → Bool) (owner : α → name) (table : List α)
    (place : name → Option Nat) : Prop where
  /-- A row in use is that of its owner. -/
  placed : ∀ index row, table[index]? = some row → active row = true →
    place (owner row) = some index
  /-- The row of an owner is in use and carries its name. -/
  held : ∀ who index, place who = some index →
    ∃ row, table[index]? = some row ∧ active row = true ∧ owner row = who
  /-- No earlier row carries its name. -/
  first : ∀ who index, place who = some index → ∀ earlier, earlier < index →
    ∀ row, table[earlier]? = some row → owner row ≠ who

namespace Owned

variable {active : α → Bool} {owner : α → name} {table : List α} {place : name → Option Nat}

/-- A table in which no row is in use. -/
theorem of_unused (unused : ∀ row ∈ table, active row = false) :
    Owned active owner table fun _ => none := by
  refine ⟨fun index row found busy => ?_, fun _ _ placed => ?_, fun _ _ placed => ?_⟩
  · rw [unused row (List.mem_of_getElem? found)] at busy
    cases busy
  · cases placed
  · cases placed

/-- No two rows in use have the same owner. -/
theorem nodup_take (owned : Owned active owner table place) (count : Nat) :
    (((table.take count).filter active).map owner).Nodup := by
  have whole : ((table.filter active).map owner).Nodup := by
    rw [List.Nodup, List.pairwise_map, List.pairwise_filter, List.pairwise_iff_getElem]
    intro first second here there early busy busy' same
    have one := owned.placed first table[first] (List.getElem?_eq_getElem here) busy
    have other := owned.placed second table[second] (List.getElem?_eq_getElem there) busy'
    rw [same, other] at one
    have positions := Option.some.inj one
    omega
  exact whole.sublist (((List.take_sublist count table).filter active).map owner)

variable [DecidableEq name]

/-- An owner without a row takes the first one that is not in use, if there is one. -/
theorem insert (owned : Owned active owner table place) {who : name} (free : place who = none)
    {row : α} (busy : active row = true) (named : owner row = who) :
    Owned active owner (updateFirst (fun row => !active row) (fun _ => row) table).2
      (Function.update place who (table.findIdx? fun row => !active row)) := by
  obtain ⟨full, same⟩ | ⟨before, old, after, rfl, skipped, found, index, same⟩ :=
    updateFirst_cases (fun row => !active row) (fun _ => row) table
  · have none : table.findIdx? (fun row => !active row) = none := by
      rw [List.findIdx?_eq_none_iff]
      exact full
    rw [same, none, ← free, Function.update_eq_self]
    exact owned
  · have place_ : (before ++ old :: after).findIdx? (fun row => !active row) =
        some before.length := by
      rw [List.findIdx?_eq_some_iff_findIdx_eq, index]
      simp
    have old_ : active old = false := by simpa using found
    rw [same, place_]
    -- a row other than the one taken is as before
    have other : ∀ position, position ≠ before.length →
        (before ++ row :: after)[position]? = (before ++ old :: after)[position]? := by
      intro position different
      rcases Nat.lt_or_gt_of_ne different with early | late
      · rw [List.getElem?_append_left early, List.getElem?_append_left early]
      · obtain ⟨distance, rfl⟩ := Nat.exists_eq_add_of_lt late
        rw [List.getElem?_append_right (by omega), List.getElem?_append_right (by omega)]
        rw [show before.length + distance + 1 - before.length = distance + 1 by omega]
        rfl
    have taken : (before ++ row :: after)[before.length]? = some row := by simp
    have given : (before ++ old :: after)[before.length]? = some old := by simp
    -- the name is on no row that was in use
    have unused : ∀ (position : Nat) entry, (before ++ old :: after)[position]? = some entry →
        active entry = true → owner entry ≠ who := by
      intro position entry found busy same
      have placed := owned.placed position entry found busy
      rw [same, free] at placed
      cases placed
    refine ⟨fun position entry found busy => ?_, fun other_ position placed => ?_,
      fun other_ position placed earlier before_ entry found => ?_⟩
    · by_cases here : position = before.length
      · subst here
        obtain rfl := Option.some.inj (taken.symm.trans found)
        rw [named, Function.update_self]
      · rw [other position here] at found
        rw [Function.update_of_ne (unused position entry found busy)]
        exact owned.placed position entry found busy
    · by_cases mine : other_ = who
      · subst mine
        rw [Function.update_self] at placed
        obtain rfl := Option.some.inj placed
        exact ⟨row, taken, busy, named⟩
      · rw [Function.update_of_ne mine] at placed
        obtain ⟨entry, found, busy_, named_⟩ := owned.held other_ position placed
        have here : position ≠ before.length := by
          rintro rfl
          obtain rfl := Option.some.inj (given.symm.trans found)
          rw [old_] at busy_
          cases busy_
        exact ⟨entry, (other position here).trans found, busy_, named_⟩
    · by_cases mine : other_ = who
      · subst mine
        rw [Function.update_self] at placed
        obtain rfl := Option.some.inj placed
        rw [other earlier (by omega)] at found
        apply unused earlier entry found
        rw [List.getElem?_append_left before_] at found
        simpa using skipped entry (List.mem_of_getElem? found)
      · rw [Function.update_of_ne mine] at placed
        by_cases here : earlier = before.length
        · subst here
          obtain rfl := Option.some.inj (taken.symm.trans found)
          rw [named]
          exact fun same => mine same.symm
        · rw [other earlier here] at found
          exact owned.first other_ position placed earlier before_ entry found

/-- An owner gives up its own row, although the search is for the first row with its name. -/
theorem remove_place (owned : Owned active owner table place) {who : name} {index : Nat}
    (placed : place who = some index) {row : α} (found : table[index]? = some row)
    (update : α → α) :
    (updateFirst (fun row => owner row = who) update table).2 = table.set index (update row) := by
  obtain ⟨entry, same, -, named⟩ := owned.held who index placed
  obtain rfl := Option.some.inj (same.symm.trans found)
  obtain ⟨absent, -⟩ | ⟨before, hit, after, rfl, skipped, mine, -, updated⟩ :=
    updateFirst_cases (fun row => decide (owner row = who)) update table
  · have other := absent entry (List.mem_of_getElem? found)
    rw [decide_eq_false_iff_not] at other
    exact absurd named other
  · have here : before.length = index := by
      rcases Nat.lt_trichotomy before.length index with early | same | late
      · have apart := owned.first who index placed before.length early hit (by simp)
        exact absurd (of_decide_eq_true mine) apart
      · exact same
      · rw [List.getElem?_append_left late] at found
        have other := skipped entry (List.mem_of_getElem? found)
        rw [decide_eq_false_iff_not] at other
        exact absurd named other
    subst here
    obtain rfl : hit = entry := by simpa using found
    rw [updated]
    simp

/-- An owner without a row changes nothing when it looks for its name. -/
theorem remove_none (owned : Owned active owner table place) {who : name}
    (free : place who = none) {update : α → α}
    (idle : ∀ row, active row = false → update row = row) :
    (updateFirst (fun row => owner row = who) update table).2 = table := by
  obtain ⟨-, same⟩ | ⟨before, hit, after, rfl, -, mine, -, updated⟩ :=
    updateFirst_cases (fun row => decide (owner row = who)) update table
  · rw [same]
  · have unused : active hit = false := by
      by_contra busy
      have placed := owned.placed before.length hit (by simp) (Bool.not_eq_false _ ▸ busy)
      rw [of_decide_eq_true mine, free] at placed
      cases placed
    rw [updated, idle hit unused]

/-- An owner that has given up its row has no place. -/
theorem remove (owned : Owned active owner table place) (who : name) {update : α → α}
    (idle : ∀ row, active row = false → update row = row)
    (ends : ∀ row, active (update row) = false) (keeps : ∀ row, owner (update row) = owner row) :
    Owned active owner (updateFirst (fun row => owner row = who) update table).2
      (Function.update place who none) := by
  cases placed : place who with
  | none =>
    rw [owned.remove_none placed idle, ← placed, Function.update_eq_self]
    exact owned
  | some index =>
    obtain ⟨row, found, busy, named⟩ := owned.held who index placed
    rw [owned.remove_place placed found]
    -- no other row in use carries the name
    have apart : ∀ position entry, position ≠ index → table[position]? = some entry →
        active entry = true → owner entry ≠ who := by
      intro position entry different found busy same
      have here := owned.placed position entry found busy
      rw [same, placed] at here
      exact different (Option.some.inj here).symm
    refine ⟨fun position entry found_ busy_ => ?_, fun other position placed_ => ?_,
      fun other position placed_ earlier before entry found_ => ?_⟩
    · by_cases here : position = index
      · subst here
        have ended : (table.set position (update row))[position]? = some (update row) :=
          List.getElem?_set_self (List.getElem?_eq_some_iff.mp found).1
        obtain rfl := Option.some.inj (ended.symm.trans found_)
        rw [ends row] at busy_
        cases busy_
      · rw [List.getElem?_set_ne (Ne.symm here)] at found_
        rw [Function.update_of_ne (apart position entry here found_ busy_)]
        exact owned.placed position entry found_ busy_
    · by_cases mine : other = who
      · subst mine
        rw [Function.update_self] at placed_
        cases placed_
      · rw [Function.update_of_ne mine] at placed_
        obtain ⟨entry, found_, busy_, named_⟩ := owned.held other position placed_
        have here : position ≠ index := by
          rintro rfl
          obtain rfl := Option.some.inj (found.symm.trans found_)
          exact mine (named_.symm.trans named)
        refine ⟨entry, ?_, busy_, named_⟩
        rw [List.getElem?_set_ne (Ne.symm here)]
        exact found_
    · by_cases mine : other = who
      · subst mine
        rw [Function.update_self] at placed_
        cases placed_
      · rw [Function.update_of_ne mine] at placed_
        by_cases here : earlier = index
        · subst here
          have ended : (table.set earlier (update row))[earlier]? = some (update row) :=
            List.getElem?_set_self (List.getElem?_eq_some_iff.mp found).1
          obtain rfl := Option.some.inj (ended.symm.trans found_)
          rw [keeps row, named]
          exact fun same => mine same.symm
        · rw [List.getElem?_set_ne (Ne.symm here)] at found_
          exact owned.first other position placed_ earlier before entry found_

end Owned

end FileServer.Lib
