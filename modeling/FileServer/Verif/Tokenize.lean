import FileServer.Model.Command

/-!
# Arguments of a command

What `tokenizeCommand` makes of a payload: the arguments are its first words, each lies inside
the payload with its terminator and stays there, and the last one ends where the text ends
exactly when the text ends in a word and has no more words than there is room for.
-/
namespace FileServer

open FileServer.Lib

/-- The arguments found are the next words, as many as there is room for. -/
theorem tokenizeLoop_words (room : Nat) (cursor : Cursor) :
    (tokenizeLoop room (strtok 32 cursor)).1.map Token.text =
      (words 32 cursor.text).take room := by
  induction room generalizing cursor with
  | zero => rfl
  | succ room ih =>
    obtain ⟨head, tail⟩ := strtok_words 32 cursor
    cases call : strtok 32 cursor with
    | mk found saved =>
      rw [call] at head tail
      cases found with
      | none =>
        rw [Option.map_none, eq_comm, List.head?_eq_none_iff] at head
        rw [head]
        rfl
      | some token =>
        have left := ih saved
        rw [tail] at left
        cases all : words 32 cursor.text with
        | nil => simp [all] at head
        | cons word rest =>
          simp only [all, Option.map_some, List.head?_cons, Option.some.injEq, List.tail_cons]
            at head left
          simp only [tokenizeLoop, List.map_cons, head, left, List.take_succ_cons]

/-- The call that finds no room takes a word as well: the words left are those after it. -/
theorem tokenizeLoop_left (room : Nat) (cursor : Cursor) :
    words 32 (tokenizeLoop room (strtok 32 cursor)).2.text =
      (words 32 cursor.text).drop (room + 1) := by
  induction room generalizing cursor with
  | zero => rw [tokenizeLoop, (strtok_words 32 cursor).2, List.drop_one]
  | succ room ih =>
    obtain ⟨head, tail⟩ := strtok_words 32 cursor
    cases call : strtok 32 cursor with
    | mk found saved =>
      rw [call] at head tail
      cases found with
      | none =>
        rw [Option.map_none, eq_comm, List.head?_eq_none_iff] at head
        rw [tokenizeLoop, tail, head, List.tail_nil, List.drop_nil]
      | some token =>
        rw [tokenizeLoop, ih saved, tail, List.drop_tail]

/-- The loop advances. -/
theorem tokenizeLoop_advances (room : Nat) (cursor : Cursor) :
    cursor.Advances (tokenizeLoop room (strtok 32 cursor)).2 := by
  induction room generalizing cursor with
  | zero => exact strtok_advances 32 cursor
  | succ room ih =>
    have first := strtok_advances 32 cursor
    cases call : strtok 32 cursor with
    | mk found saved =>
      rw [call] at first
      cases found with
      | none => exact first
      | some token => exact first.trans (ih saved)

/-- An argument lies inside the string that is split, and the pointer to it reads as the
argument once all of them are found. -/
theorem tokenizeLoop_token {room : Nat} {cursor : Cursor} {token : Token}
    (member : token ∈ (tokenizeLoop room (strtok 32 cursor)).1) :
    cursor.offset ≤ token.start ∧ token.finish ≤ cursor.terminator ∧ NulFree token.text ∧
      token.text ≠ [] ∧
      cString ((tokenizeLoop room (strtok 32 cursor)).2.memory.drop token.start) =
        token.text := by
  induction room generalizing cursor with
  | zero => exact absurd member List.not_mem_nil
  | succ room ih =>
    have first := strtok_advances 32 cursor
    have inside := @strtok_token 32 cursor
    cases call : strtok 32 cursor with
    | mk found saved =>
      rw [call] at first inside member
      cases found with
      | none => exact absurd member List.not_mem_nil
      | some token =>
        rcases List.mem_cons.mp member with rfl | later
        · exact inside rfl (tokenizeLoop_advances room saved)
        · obtain ⟨start, finish, clean, filled, read⟩ := ih later
          exact ⟨first.forward.trans start, first.terminator ▸ finish, clean, filled, read⟩

/-- The last argument ends at the terminator exactly when the text ends in a word and there is
room for all words. -/
theorem tokenizeLoop_last {room : Nat} {cursor : Cursor} {last : Token}
    (ends : (tokenizeLoop room (strtok 32 cursor)).1.getLast? = some last) :
    last.finish = cursor.terminator ↔
      cursor.text.getLast? ≠ some 32 ∧ (words 32 cursor.text).length ≤ room := by
  induction room generalizing cursor with
  | zero => cases ends
  | succ room ih =>
    have none_left : ∀ next : Cursor, words 32 next.text = [] →
        (tokenizeLoop room (strtok 32 next)).1 = [] := by
      intro next empty
      have texts := tokenizeLoop_words room next
      rw [empty, List.take_nil] at texts
      exact List.map_eq_nil_iff.mp texts
    have step := strtok_step 32 cursor
    generalize strtok 32 cursor = result at step ends
    cases step with
    | none => cases ends
    | @last lead word all filled unbroken read left =>
      simp only [tokenizeLoop] at ends
      rw [none_left _ (by rw [left, words_nil]), List.getLast?_singleton, Option.some.injEq] at ends
      subst ends
      have size := congrArg List.length read
      rw [List.length_append] at size
      have one : words 32 cursor.text = [word] := by
        rw [read, words_append_of_all_delimiter all, words_single unbroken filled]
      refine iff_of_true ?_ ⟨?_, ?_⟩
      · simp only [Token.finish, Cursor.terminator]
        omega
      · intro space
        rw [read, List.getLast?_append_of_ne_nil _ filled] at space
        exact unbroken (List.mem_of_getLast? space)
      · rw [one]
        exact Nat.succ_le_succ (Nat.zero_le _)
    | @word lead word rest all filled unbroken read left =>
      have size := congrArg List.length read
      simp only [List.length_append, List.length_cons] at size
      have more : words 32 cursor.text = word :: words 32 rest := by
        rw [read, List.append_assoc, words_append_of_all_delimiter all, words_append_delimiter,
          words_single unbroken filled]
        rfl
      have same : Cursor.terminator
          ⟨cursor.memory.set (cursor.offset + lead.length + word.length) 0,
            cursor.offset + lead.length + word.length + 1⟩ = cursor.terminator := by
        rw [Cursor.terminator, Cursor.terminator, left]
        simp only
        omega
      simp only [tokenizeLoop] at ends
      generalize Cursor.mk _ (cursor.offset + lead.length + word.length + 1) = next
        at left same ends
      have texts := tokenizeLoop_words room next
      rw [left] at texts
      cases later : (tokenizeLoop room (strtok 32 next)).1 with
      | nil =>
        rw [later, List.getLast?_singleton, Option.some.injEq] at ends
        subst ends
        refine iff_of_false (by simp only [Token.finish, Cursor.terminator]; omega) ?_
        rintro ⟨open_, count⟩
        -- either only spaces are left, or words for which there is no room
        have empty : words 32 rest = [] := by
          rw [later, List.map_nil, eq_comm, List.take_eq_nil_iff] at texts
          rcases texts with full | empty
          · rw [more, List.length_cons, full] at count
            exact List.length_eq_zero_iff.mp (by omega)
          · exact empty
        refine open_ ?_
        rw [read, List.getLast?_append_of_ne_nil _ (List.cons_ne_nil _ _),
          List.getLast?_eq_some_getLast (List.cons_ne_nil _ _), Option.some.injEq]
        rcases List.mem_cons.mp (List.getLast_mem (List.cons_ne_nil (32 : UInt8) rest)) with it | it
        · exact it
        · exact all_delimiter_of_words_eq_nil empty _ it
      | cons head tail =>
        rw [later, List.getLast?_cons_cons] at ends
        have goOn := ih (by rw [later]; exact ends)
        rw [same, left] at goOn
        have filled : rest ≠ [] := by
          rintro rfl
          rw [later, words_nil, List.take_nil] at texts
          cases texts
        obtain ⟨first, others, rfl⟩ := List.exists_cons_of_ne_nil filled
        rw [goOn, more, List.length_cons, Nat.succ_le_succ_iff, read,
          List.getLast?_append_of_ne_nil _ (List.cons_ne_nil _ _), List.getLast?_cons_cons]

/-- No argument starts before the first one, which starts where the text does unless the text
starts with a space. -/
theorem tokenizeLoop_first {room : Nat} {cursor : Cursor} {first : Token} {later : List Token}
    (tokens : (tokenizeLoop room (strtok 32 cursor)).1 = first :: later) :
    (∀ token ∈ first :: later, first.start ≤ token.finish) ∧
      (first.start = cursor.offset ↔ cursor.text.head? ≠ some 32) := by
  cases room with
  | zero => cases tokens
  | succ room =>
    have inside : ∀ saved, ∀ token ∈ (tokenizeLoop room (strtok 32 saved)).1,
        saved.offset ≤ token.finish := fun saved token member =>
      (tokenizeLoop_token member).1.trans (Nat.le_add_right _ _)
    have starts : ∀ lead word back : List UInt8, (∀ byte ∈ lead, byte = 32) → word ≠ [] →
        (32 : UInt8) ∉ word → cursor.text = lead ++ word ++ back →
          (cursor.offset + lead.length = cursor.offset ↔ cursor.text.head? ≠ some 32) := by
      intro lead word back all filled unbroken read
      rw [read]
      cases lead with
      | nil =>
        obtain ⟨head, tail, rfl⟩ := List.exists_cons_of_ne_nil filled
        simpa using fun same : head = 32 => unbroken (by simp [same])
      | cons space rest => simp [all space (by simp)]
    have step := strtok_step 32 cursor
    generalize strtok 32 cursor = result at step tokens
    cases step with
    | none => cases tokens
    | @last lead word all filled unbroken read left =>
      cases tokens
      refine ⟨?_, starts lead word [] all filled unbroken (by rw [read, List.append_nil])⟩
      intro token member
      rcases List.mem_cons.mp member with rfl | after
      · exact Nat.le_add_right _ _
      · exact (Nat.le_add_right _ _).trans (inside _ token after)
    | @word lead word rest all filled unbroken read left =>
      cases tokens
      refine ⟨?_, starts lead word (32 :: rest) all filled unbroken read⟩
      intro token member
      rcases List.mem_cons.mp member with rfl | after
      · exact Nat.le_add_right _ _
      · have behind := inside _ token after
        simp only at behind ⊢
        omega

end FileServer
