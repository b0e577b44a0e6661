import FileServer.Lib.Run

/-!
# Byte streams read in blocks

A program that reads a stream through calls for an exact number of bytes is a `Reader`: in
each control state it wants a block of known positive size and moves on when the block is
full. One `read` call hands over any non-empty part of what is missing. Where the calls cut
the stream does not matter: every receipt amounts to feeding its bytes one by one. A `Pipe`
puts the buffers of a writing program, of which each `write` call accepts any non-empty part,
in front of a reader.
-/
namespace FileServer.Lib

/-- A program reading blocks of exact size. -/
structure Reader (σ : Type) where
  /-- Size of the block wanted next. -/
  want : σ → Nat
  /-- No block is empty. -/
  want_pos : ∀ control, 0 < want control
  /-- What the program does with a full block. -/
  accept : σ → List UInt8 → σ

/-- A reader between two `read` calls. -/
structure Reading (σ : Type) where
  /-- Control state of the program. -/
  control : σ
  /-- The part of the wanted block received so far. -/
  recvd : List UInt8
deriving DecidableEq

namespace Reader

variable {σ : Type} (reader : Reader σ)

/-- Bytes still missing from the wanted block. -/
def missing (reading : Reading σ) : Nat := reader.want reading.control - reading.recvd.length

/-- The block is not yet full. -/
def Waiting (reading : Reading σ) : Prop :=
  reading.recvd.length < reader.want reading.control

/-- A `read` call returns these bytes. -/
def receive (reading : Reading σ) (chunk : List UInt8) : Reading σ :=
  let recvd := reading.recvd ++ chunk
  if recvd.length < reader.want reading.control then { reading with recvd }
  else ⟨reader.accept reading.control recvd, []⟩

/-- The bytes arrive one by one. -/
def feed (reading : Reading σ) (bytes : List UInt8) : Reading σ :=
  bytes.foldl (fun reading byte => reader.receive reading [byte]) reading

@[simp]
theorem feed_nil (reading : Reading σ) : reader.feed reading [] = reading := rfl

@[simp]
theorem feed_append (reading : Reading σ) (first second : List UInt8) :
    reader.feed reading (first ++ second) = reader.feed (reader.feed reading first) second :=
  List.foldl_append

/-- After any receipt the reader waits for something. -/
theorem receive_waiting (reading : Reading σ) (chunk : List UInt8) :
    reader.Waiting (reader.receive reading chunk) := by
  by_cases more : (reading.recvd ++ chunk).length < reader.want reading.control
  · simp only [receive, more, ↓reduceIte]
    exact more
  · simp only [receive, more, ↓reduceIte]
    exact reader.want_pos _

/-- A receipt within the wanted block amounts to feeding its bytes. -/
theorem receive_eq_feed {reading : Reading σ} {chunk : List UInt8} (filled : chunk ≠ [])
    (inside : chunk.length ≤ reader.missing reading) :
    reader.receive reading chunk = reader.feed reading chunk := by
  induction chunk generalizing reading with
  | nil => exact absurd rfl filled
  | cons byte rest ih =>
    cases rest with
    | nil => rfl
    | cons later rest =>
      simp only [missing, List.length_cons] at inside
      -- the first byte cannot complete the block, since another one fits
      have more : (reading.recvd ++ [byte]).length < reader.want reading.control := by
        rw [List.length_append, List.length_singleton]
        omega
      have first : reader.receive reading [byte] =
          { reading with recvd := reading.recvd ++ [byte] } := by
        simp only [receive, more, ↓reduceIte]
      calc
        reader.receive reading (byte :: later :: rest) =
            reader.receive { reading with recvd := reading.recvd ++ [byte] } (later :: rest) := by
          simp [receive, List.append_assoc]
        _ = reader.feed { reading with recvd := reading.recvd ++ [byte] } (later :: rest) := by
          apply ih (by simp)
          simp only [missing, List.length_append, List.length_cons, List.length_nil]
          omega
        _ = reader.feed reading (byte :: later :: rest) := by
          rw [← first]
          rfl

/-- A whole block takes the reader to its next control state. -/
theorem feed_block {control : σ} {block : List UInt8}
    (exact : block.length = reader.want control) :
    reader.feed ⟨control, []⟩ block = ⟨reader.accept control block, []⟩ := by
  have positive := reader.want_pos control
  have filled : block ≠ [] := by
    rintro rfl
    simp only [List.length_nil] at exact
    omega
  rw [← reader.receive_eq_feed filled (by simp [missing, exact])]
  simp [receive, exact]

end Reader

/-- One `write` call on the buffers a program still has to write: the bytes accepted, at most
`more` beyond the first, and the buffers left; none when everything is written. -/
def writeSome (more : Nat) : List (List UInt8) → Option (List UInt8 × List (List UInt8))
  | [] => none
  | buffer :: rest =>
    let left := buffer.drop (more + 1)
    some (buffer.take (more + 1), if left = [] then rest else left :: rest)

/-- What is accepted and what is left are what there was to write. -/
theorem writeSome_flatten {more : Nat} {unsent left : List (List UInt8)} {chunk : List UInt8}
    (step : writeSome more unsent = some (chunk, left)) :
    chunk ++ left.flatten = unsent.flatten := by
  cases unsent with
  | nil => simp [writeSome] at step
  | cons buffer rest =>
    simp only [writeSome, Option.some.injEq, Prod.mk.injEq] at step
    obtain ⟨rfl, rfl⟩ := step
    have whole : buffer.take (more + 1) ++ buffer.drop (more + 1) = buffer :=
      List.take_append_drop _ _
    split
    · rename_i done
      rw [done, List.append_nil] at whole
      rw [whole, List.flatten_cons]
    · rw [List.flatten_cons, ← List.append_assoc, whole, List.flatten_cons]

/-- Buffers with something in them stay so. -/
theorem writeSome_filled {more : Nat} {unsent left : List (List UInt8)} {chunk : List UInt8}
    (step : writeSome more unsent = some (chunk, left)) (filled : [] ∉ unsent) : [] ∉ left := by
  cases unsent with
  | nil => simp [writeSome] at step
  | cons buffer rest =>
    simp only [writeSome, Option.some.injEq, Prod.mk.injEq] at step
    obtain ⟨-, rfl⟩ := step
    rw [List.mem_cons, not_or] at filled
    split
    · exact filled.2
    · rename_i unfinished
      rw [List.mem_cons, not_or]
      exact ⟨Ne.symm unfinished, filled.2⟩

/-- Buffers a program still has to write, bytes on their way, and the reader. -/
structure Pipe (σ : Type) where
  /-- What is left of the buffer being written, and the buffers after it. -/
  unsent : List (List UInt8)
  /-- Bytes accepted from the writer and not yet handed to the reader. -/
  inFlight : List UInt8
  /-- The reading program. -/
  reading : Reading σ

/-- One system call on the pipe; the number says how much it moves, at least one byte. -/
inductive PipeCall
  /-- A `write` accepts at most that many further bytes of the buffer. -/
  | write (more : Nat)
  /-- A `read` returns at most that many further bytes. -/
  | read (more : Nat)

namespace Pipe

variable {σ : Type} (reader : Reader σ)

/-- A call on the pipe; none when it blocks or there is nothing to write. -/
def next (pipe : Pipe σ) : PipeCall → Option (Pipe σ)
  | .write more => (writeSome more pipe.unsent).map fun (chunk, left) =>
      { pipe with unsent := left, inFlight := pipe.inFlight ++ chunk }
  | .read more =>
    if pipe.inFlight = [] then none
    else
      let count := min (more + 1) (reader.missing pipe.reading)
      some { pipe with
        inFlight := pipe.inFlight.drop count
        reading := reader.receive pipe.reading (pipe.inFlight.take count) }

/-- The reader once everything written and to be written has arrived. -/
def outcome (pipe : Pipe σ) : Reading σ :=
  reader.feed pipe.reading (pipe.inFlight ++ pipe.unsent.flatten)

/-- Moving bytes along the pipe does not change what the reader ends up with. -/
theorem next_outcome {pipe after : Pipe σ} {call : PipeCall}
    (waiting : reader.Waiting pipe.reading) (step : pipe.next reader call = some after) :
    reader.Waiting after.reading ∧ after.outcome reader = pipe.outcome reader := by
  cases call with
  | write more =>
    obtain ⟨⟨chunk, left⟩, written, rfl⟩ := Option.map_eq_some_iff.mp step
    refine ⟨waiting, ?_⟩
    simp only [outcome]
    rw [List.append_assoc, writeSome_flatten written]
  | read more =>
    by_cases empty : pipe.inFlight = []
    · simp [next, empty] at step
    · simp only [next, empty, ↓reduceIte, Option.some.injEq] at step
      subst step
      refine ⟨reader.receive_waiting _ _, ?_⟩
      have room : 0 < reader.missing pipe.reading := Nat.sub_pos_of_lt waiting
      have some_bytes : 0 < pipe.inFlight.length := List.length_pos_iff.mpr empty
      have filled : pipe.inFlight.take (min (more + 1) (reader.missing pipe.reading)) ≠ [] := by
        rw [← List.length_pos_iff, List.length_take]
        omega
      have inside : (pipe.inFlight.take (min (more + 1) (reader.missing pipe.reading))).length ≤
          reader.missing pipe.reading := by
        rw [List.length_take]
        omega
      simp only [outcome, reader.receive_eq_feed filled inside]
      rw [← reader.feed_append, ← List.append_assoc, List.take_append_drop]

/-- A pipe on which no call goes on has carried everything. -/
theorem empty_of_blocked {pipe : Pipe σ} (blocked : ∀ call, pipe.next reader call = none) :
    pipe.unsent = [] ∧ pipe.inFlight = [] := by
  constructor
  · have write := blocked (.write 0)
    cases left : pipe.unsent with
    | nil => rfl
    | cons buffer rest => simp [next, left, writeSome] at write
  · have read := blocked (.read 0)
    by_contra more
    simp [next, more] at read

/-- However the calls cut the stream, a reader that has received all of it stands where
feeding the written buffers leaves it. -/
theorem run_delivers {pipe final : Pipe σ} {calls : List PipeCall}
    (waiting : reader.Waiting pipe.reading) (run : runFrom (next reader) pipe calls = some final)
    (written : final.unsent = []) (drained : final.inFlight = []) :
    final.reading = pipe.outcome reader := by
  have kept := run_invariant
    (fun state => reader.Waiting state.reading ∧ state.outcome reader = pipe.outcome reader)
    (fun state call after holds step => by
      obtain ⟨still, same⟩ := next_outcome reader holds.1 step
      exact ⟨still, same.trans holds.2⟩) ⟨waiting, rfl⟩ run
  have whole := kept.2
  rw [outcome, written, drained] at whole
  simpa using whole

end Pipe

end FileServer.Lib
