import Mathlib.Data.List.Basic

/-!
# Sequential executions

Tasks that each turn a content into an answer and a new content, executed one after the other.
-/
namespace FileServer.Lib

variable {task content answer : Type}

/-- The answers of the tasks executed in order, and the content after the last one. -/
def inOrder (execute : task → content → answer × content) :
    List task → content → List (task × answer) × content
  | [], start => ([], start)
  | next :: rest, start =>
    let (given, after) := execute next start
    let (answers, final) := inOrder execute rest after
    ((next, given) :: answers, final)

/-- One more task is executed on what the earlier ones leave. -/
theorem inOrder_append (execute : task → content → answer × content) (order : List task)
    (last : task) (start : content) :
    inOrder execute (order ++ [last]) start =
      ((inOrder execute order start).1 ++
          [(last, (execute last (inOrder execute order start).2).1)],
        (execute last (inOrder execute order start).2).2) := by
  induction order generalizing start with
  | nil => rfl
  | cons next rest ih => simp only [List.cons_append, inOrder, ih]

/-- Tasks whose answers are put into other words leave the same. -/
theorem inOrder_reworded {other : Type} {execute : task → content → answer × content}
    {reworded : task → content → other × content} (word : answer → other)
    (same : ∀ task content,
      reworded task content = (word (execute task content).1, (execute task content).2))
    (order : List task) (start : content) :
    inOrder reworded order start =
      ((inOrder execute order start).1.map fun entry => (entry.1, word entry.2),
        (inOrder execute order start).2) := by
  induction order generalizing start with
  | nil => rfl
  | cons next rest ih => simp only [inOrder, same, ih, List.map_cons]

/-- Each task has one answer, in order. -/
@[simp]
theorem map_fst_inOrder (execute : task → content → answer × content) (order : List task)
    (start : content) : (inOrder execute order start).1.map Prod.fst = order := by
  induction order generalizing start with
  | nil => rfl
  | cons next rest ih => simp [inOrder, ih]

/-- Each answer is that of the task on some content. -/
theorem mem_inOrder {execute : task → content → answer × content} {order : List task}
    {start : content} {entry : task × answer} (member : entry ∈ (inOrder execute order start).1) :
    ∃ found, entry.2 = (execute entry.1 found).1 := by
  induction order generalizing start with
  | nil => exact absurd member List.not_mem_nil
  | cons next rest ih =>
    rcases List.mem_cons.mp member with rfl | later
    · exact ⟨start, rfl⟩
    · exact ih later

end FileServer.Lib
