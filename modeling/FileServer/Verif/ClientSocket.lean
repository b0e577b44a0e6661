import FileServer.Model.ClientSocket
import Mathlib.Data.Fintype.Basic

/-!
# Whole messages on a shared socket

As long as no unlocked send overlaps another send, the record lock keeps the remaining ones
apart, and the client reads an interleaving of whole messages. Nothing in the code prevents
the overlap: a reply of the handler can fall between the two writes of a child.
-/
namespace FileServer

open FileServer.Lib

namespace SendPhase

/-- The process is in the middle of a message: part of it is written, part of it is not. -/
def PartWay : SendPhase → Prop
  | writing send unsent => unsent.flatten ≠ send.message.bytes
  | _ => False

/-- The process writes, or has written, under the lock. -/
def Locked : SendPhase → Prop
  | writing send _ => send.takesLock = true
  | unlocking => True
  | _ => False

instance : (phase : SendPhase) → Decidable phase.PartWay
  | writing send unsent => inferInstanceAs (Decidable (unsent.flatten ≠ send.message.bytes))
  | idle | locking _ | unlocking => .isFalse id

instance : (phase : SendPhase) → Decidable phase.Locked
  | writing send _ => inferInstanceAs (Decidable (send.takesLock = true))
  | unlocking => .isTrue trivial
  | idle | locking _ => .isFalse id

/-- What is left to write comes in buffers that are not empty. -/
def Filled : SendPhase → Prop
  | writing _ unsent => [] ∉ unsent ∧ unsent ≠ []
  | _ => True

end SendPhase

variable {process : Type} [DecidableEq process]

namespace ClientSocket

/-- A write falls into the message of another process only where both processes send by
`sendProtocolMsgLocked`. -/
def Undisturbed (socket : ClientSocket process) : process × WriterStep → Prop
  | (caller, .write _) => ∀ other, other ≠ caller → (socket.phase other).PartWay →
      (socket.phase caller).Locked ∧ (socket.phase other).Locked
  | _ => True

instance [Fintype process] (socket : ClientSocket process) :
    (step : process × WriterStep) → Decidable (socket.Undisturbed step)
  | (caller, .write _) => inferInstanceAs (Decidable (∀ other, other ≠ caller →
      (socket.phase other).PartWay →
        (socket.phase caller).Locked ∧ (socket.phase other).Locked))
  | (_, .start _) | (_, .lock) | (_, .unlock) => .isTrue trivial

/-- The client reads whole messages: those finished by the writers, each writer's in order,
followed at most by the front of one message in progress. -/
def ReadsWhole (socket : ClientSocket process) : Prop :=
  ∃ (order : List (process × Received)) (front : List UInt8),
    (∀ writer, (order.filter (·.1 = writer)).map Prod.snd = socket.sent writer) ∧
      socket.stream = (order.map Prod.snd).flatMap Received.bytes ++ front ∧
      (front = [] ∨ ∃ writer send unsent, socket.phase writer = .writing send unsent ∧
        front ++ unsent.flatten = send.message.bytes) ∧
      (messageReader.feed (betweenMessages []) socket.stream).control.delivered =
        order.map Prod.snd

/-- What the writers keep: the lock is held by whoever writes under it, and at most one of
them is in the middle of a message, whose front ends the stream. -/
structure Sound (socket : ClientSocket process) (order : List (process × Received))
    (front : List UInt8) : Prop where
  /-- A held lock excludes others. -/
  consistent : socket.locks.Consistent
  /-- Who writes under the lock holds it. -/
  holds : ∀ writer, (socket.phase writer).Locked → (writer, LockMode.exclusive) ∈ socket.locks
  /-- Buffers left to write are not empty. -/
  filled : ∀ writer, (socket.phase writer).Filled
  /-- The messages finished are those of the order. -/
  finished : ∀ writer, (order.filter (·.1 = writer)).map Prod.snd = socket.sent writer
  /-- Their headers announce their payloads. -/
  announced : ∀ message ∈ order.map Prod.snd, message.Announced
  /-- The stream is the messages in order and a front. -/
  stream : socket.stream = (order.map Prod.snd).flatMap Received.bytes ++ front
  /-- The front belongs to the one process in the middle of a message. -/
  middle : (front = [] ∧ ∀ writer, ¬ (socket.phase writer).PartWay) ∨
    ∃ writer send unsent, socket.phase writer = .writing send unsent ∧
      front ++ unsent.flatten = send.message.bytes ∧
      ∀ other, other ≠ writer → ¬ (socket.phase other).PartWay

section Steps

variable {socket after : ClientSocket process} {order : List (process × Received)}
  {front : List UInt8} {handler caller : process}

/-- A sound socket is read as whole messages. -/
theorem Sound.readsWhole (sound : Sound socket order front) : socket.ReadsWhole := by
  refine ⟨order, front, sound.finished, sound.stream, ?_, ?_⟩
  · rcases sound.middle with ⟨rfl, -⟩ | ⟨writer, send, unsent, phase, whole, -⟩
    · exact Or.inl rfl
    · exact Or.inr ⟨writer, send, unsent, phase, whole⟩
  · rw [sound.stream, Reader.feed_append, feed_messages [] sound.announced, List.nil_append]
    rcases sound.middle with ⟨rfl, -⟩ | ⟨writer, send, unsent, phase, whole, -⟩
    · rfl
    · have left := sound.filled writer
      rw [phase] at left
      obtain ⟨filled, some_left⟩ := left
      refine feed_unfinished _ send.announced whole fun done => ?_
      obtain ⟨buffer, rest, rfl⟩ := List.exists_cons_of_ne_nil some_left
      rw [List.flatten_cons, List.append_eq_nil_iff] at done
      exact filled (by simp [done.1])

/-- A process that is not writing goes on to a phase in which nothing of a message is written,
with the lock if it must: the socket stays sound. -/
theorem Sound.enter (sound : Sound socket order front) {phase : SendPhase}
    {locks : LockTable process} (consistent : locks.Consistent)
    (kept : ∀ writer, writer ≠ caller → (writer, LockMode.exclusive) ∈ socket.locks →
      (writer, LockMode.exclusive) ∈ locks)
    (holds : phase.Locked → (caller, LockMode.exclusive) ∈ locks)
    (idle : ∀ send unsent, socket.phase caller ≠ .writing send unsent)
    (fresh : ¬ phase.PartWay) (filled : phase.Filled) :
    Sound { socket.enter caller phase with locks } order front := by
  have others : ∀ writer, ¬ (socket.phase writer).PartWay →
      ¬ (Function.update socket.phase caller phase writer).PartWay := by
    intro writer unbegun
    by_cases same : writer = caller
    · subst same
      rwa [Function.update_self]
    · rwa [Function.update_of_ne same]
  refine ⟨consistent, ?_, ?_, sound.finished, sound.announced, sound.stream, ?_⟩
  · intro writer locked
    by_cases same : writer = caller
    · subst same
      simp only [ClientSocket.enter, Function.update_self] at locked
      exact holds locked
    · simp only [ClientSocket.enter, Function.update_of_ne same] at locked
      exact kept writer same (sound.holds writer locked)
  · intro writer
    by_cases same : writer = caller
    · subst same
      simpa only [ClientSocket.enter, Function.update_self] using filled
    · simpa only [ClientSocket.enter, Function.update_of_ne same] using sound.filled writer
  · rcases sound.middle with ⟨none, unbegun⟩ | ⟨writer, send, unsent, writing, whole, unbegun⟩
    · exact Or.inl ⟨none, fun writer => others writer (unbegun writer)⟩
    · have apart : writer ≠ caller := by
        rintro rfl
        exact idle send unsent writing
      refine Or.inr ⟨writer, send, unsent, ?_, whole, fun other different =>
        others other (unbegun other different)⟩
      simp only [ClientSocket.enter, Function.update_of_ne apart, writing]

/-- The front is what the caller of an undisturbed write has written of its message, and
nobody else is in the middle of one. -/
theorem Sound.writer (sound : Sound socket order front) {send : SocketSend}
    {unsent : List (List UInt8)} {more : Nat} (writing : socket.phase caller = .writing send unsent)
    (undisturbed : socket.Undisturbed (caller, .write more)) :
    front ++ unsent.flatten = send.message.bytes ∧
      ∀ other, other ≠ caller → ¬ (socket.phase other).PartWay := by
  -- two writers under the lock would both hold it
  have others : ∀ other, other ≠ caller → ¬ (socket.phase other).PartWay := by
    intro other different begun
    obtain ⟨mine, theirs⟩ := undisturbed other different begun
    exact different (sound.consistent.exclusive (sound.holds caller mine)
      ⟨_, sound.holds other theirs⟩)
  refine ⟨?_, others⟩
  rcases sound.middle with ⟨rfl, unbegun⟩ | ⟨writer, held, left, phase, whole, unbegun⟩
  · by_contra begun
    exact unbegun caller (by rwa [writing])
  · by_cases same : writer = caller
    · subst same
      rw [writing] at phase
      cases phase
      exact whole
    · have nothing : front = [] := by
        have unwritten : left.flatten = held.message.bytes := by
          by_contra begun
          exact others writer same (by rwa [phase])
        rw [unwritten] at whole
        exact List.append_left_eq_self.mp whole
      by_contra begun
      rw [nothing, List.nil_append] at begun
      exact unbegun caller (Ne.symm same) (by rwa [writing])

/-- An undisturbed write leaves the socket sound. -/
theorem Sound.write (sound : Sound socket order front) {send : SocketSend}
    {unsent left : List (List UInt8)} {chunk : List UInt8} {more : Nat}
    (writing : socket.phase caller = .writing send unsent)
    (undisturbed : socket.Undisturbed (caller, .write more))
    (step : writeSome more unsent = some (chunk, left)) :
    ∃ order front, Sound (socket.afterWrite caller send chunk left) order front := by
  obtain ⟨whole, unbegun⟩ := sound.writer writing undisturbed
  have before := sound.filled caller
  rw [writing] at before
  rw [← writeSome_flatten step, ← List.append_assoc] at whole
  have locked : send.takesLock = true → (caller, LockMode.exclusive) ∈ socket.locks :=
    fun takes => sound.holds caller (by rwa [writing])
  by_cases done : left = []
  · -- the message is finished and joins the order
    subst done
    rw [List.flatten_nil, List.append_nil] at whole
    have finished : socket.afterWrite caller send chunk [] =
        ⟨Function.update socket.phase caller (if send.takesLock then .unlocking else .idle),
          socket.locks, socket.stream ++ chunk,
          Function.update socket.sent caller (socket.sent caller ++ [send.message])⟩ := by
      simp [afterWrite, ClientSocket.enter]
    rw [finished]
    refine ⟨order ++ [(caller, send.message)], [], sound.consistent, ?_, ?_, ?_, ?_, ?_, ?_⟩
    · intro writer held
      by_cases same : writer = caller
      · subst same
        simp only [Function.update_self] at held
        by_cases takes : send.takesLock
        · exact locked takes
        · simp [takes, SendPhase.Locked] at held
      · simp only [Function.update_of_ne same] at held
        exact sound.holds writer held
    · intro writer
      by_cases same : writer = caller
      · subst same
        simp only [Function.update_self]
        split <;> trivial
      · simpa only [Function.update_of_ne same] using sound.filled writer
    · intro writer
      by_cases same : writer = caller
      · subst same
        simp [sound.finished]
      · simp [Function.update_of_ne same, Ne.symm same, sound.finished]
    · intro message member
      rw [List.map_append, List.mem_append] at member
      rcases member with early | last
      · exact sound.announced message early
      · simp only [List.map_cons, List.map_nil, List.mem_singleton] at last
        exact last ▸ send.announced
    · simp [sound.stream, whole]
    · refine Or.inl ⟨rfl, fun writer begun => ?_⟩
      by_cases same : writer = caller
      · subst same
        simp only [Function.update_self] at begun
        split at begun <;> exact begun
      · simp only [Function.update_of_ne same] at begun
        exact unbegun writer same begun
  · -- the front grows
    have grown : socket.afterWrite caller send chunk left =
        ⟨Function.update socket.phase caller (.writing send left), socket.locks,
          socket.stream ++ chunk, socket.sent⟩ := by
      simp [afterWrite, ClientSocket.enter, done]
    rw [grown]
    refine ⟨order, front ++ chunk, sound.consistent, ?_, ?_, sound.finished, sound.announced, ?_,
      Or.inr ⟨caller, send, left, Function.update_self .., whole, ?_⟩⟩
    · intro writer held
      by_cases same : writer = caller
      · subst same
        simp only [Function.update_self] at held
        exact locked held
      · simp only [Function.update_of_ne same] at held
        exact sound.holds writer held
    · intro writer
      by_cases same : writer = caller
      · subst same
        simp only [Function.update_self]
        exact ⟨writeSome_filled step before.1, done⟩
      · simpa only [Function.update_of_ne same] using sound.filled writer
    · rw [sound.stream, List.append_assoc]
    · intro other different
      simp only [Function.update_of_ne different]
      exact unbegun other different

/-- Every step of a run that no unlocked send disturbs leaves the socket sound. -/
theorem Sound.next (sound : Sound socket order front) {step : process × WriterStep}
    (undisturbed : socket.Undisturbed step) (taken : socket.next handler step = some after) :
    ∃ order front, Sound after order front := by
  obtain ⟨caller, step⟩ := step
  cases step with
  | start send =>
    cases phase : socket.phase caller with
    | idle =>
      simp only [ClientSocket.next, phase] at taken
      have quiet : ∀ other unsent, socket.phase caller ≠ .writing other unsent := by simp [phase]
      by_cases takes : send.takesLock
      · simp only [takes, ↓reduceIte, Option.some.injEq] at taken
        subst taken
        exact ⟨order, front, sound.enter sound.consistent (fun _ _ held => held) False.elim quiet
          id trivial⟩
      · simp only [takes, Bool.false_eq_true, ↓reduceIte] at taken
        split at taken
        · obtain rfl := Option.some.inj taken
          exact ⟨order, front, sound.enter sound.consistent (fun _ _ held => held)
            (fun locked => absurd locked takes) quiet (fun begun => begun send.flatten_buffers)
            ⟨send.buffers_filled, send.buffers_ne_nil⟩⟩
        · cases taken
    | _ => simp [ClientSocket.next, phase] at taken
  | lock =>
    cases phase : socket.phase caller with
    | locking send =>
      simp only [ClientSocket.next, phase] at taken
      split at taken
      · rename_i granted
        obtain rfl := Option.some.inj taken
        exact ⟨order, front, sound.enter (sound.consistent.acquire granted)
          (fun _ different held => LockTable.mem_acquire.mpr (Or.inr ⟨held, different⟩))
          (fun _ => LockTable.mem_acquire.mpr (Or.inl ⟨rfl, rfl⟩)) (by simp [phase])
          (fun begun => begun send.flatten_buffers) ⟨send.buffers_filled, send.buffers_ne_nil⟩⟩
      · cases taken
    | _ => simp [ClientSocket.next, phase] at taken
  | write more =>
    cases phase : socket.phase caller with
    | writing send unsent =>
      simp only [ClientSocket.next, phase] at taken
      obtain ⟨⟨chunk, left⟩, written, rfl⟩ := Option.map_eq_some_iff.mp taken
      exact sound.write phase undisturbed written
    | _ => simp [ClientSocket.next, phase] at taken
  | unlock =>
    cases phase : socket.phase caller with
    | unlocking =>
      simp only [ClientSocket.next, phase, Option.some.injEq] at taken
      subst taken
      exact ⟨order, front, sound.enter (sound.consistent.release caller)
        (fun _ different held => LockTable.mem_release.mpr ⟨held, different⟩) False.elim
        (by simp [phase]) id trivial⟩
    | _ => simp [ClientSocket.next, phase] at taken

end Steps

/-- A socket nobody has used is sound. -/
theorem sound_start : Sound (start : ClientSocket process) [] [] where
  consistent := LockTable.consistent_nil
  holds _ := False.elim
  filled _ := trivial
  finished _ := rfl
  announced _ member := absurd member List.not_mem_nil
  stream := rfl
  middle := Or.inl ⟨rfl, fun _ => id⟩

/-- In every run in which no unlocked send overlaps another send, the client reads an
interleaving of the whole messages sent. -/
theorem readsWhole_of_undisturbed (handler : process) (schedule : List (process × WriterStep))
    {socket : ClientSocket process}
    (undisturbed : StepsMeet (next handler) Undisturbed start schedule)
    (reached : runFrom (next handler) start schedule = some socket) : socket.ReadsWhole := by
  obtain ⟨order, front, sound⟩ := run_invariant_of_meets
    (fun socket : ClientSocket process => ∃ order front, Sound socket order front)
    (fun socket step after holds meets taken => by
      obtain ⟨order, front, sound⟩ := holds
      exact sound.next meets taken)
    ⟨[], [], sound_start⟩ undisturbed reached
  exact sound.readsWhole

/-- The message a child sends at the end of an upload. -/
def uploadConcluded : SocketSend :=
  .protocolMsgLocked .text 0 (str "upload b a concluded") 1 (.zero 3)

/-- The reply of the handler to a command it does not know. -/
def commandNotFound : SocketSend := .protocolMsg .text (-1) (str "Command not found") (.zero 3)

/-- A child (`false`) and the handler (`true`) send one after the other. -/
def sendsApart : List (Bool × WriterStep) :=
  [(false, .start uploadConcluded), (false, .lock), (false, .write 15), (false, .write 20),
    (true, .start commandNotFound), (true, .write 15), (false, .unlock), (true, .write 17)]

/-- The client reads both messages when the sends are apart. -/
theorem readsWhole_sendsApart : ∃ socket, runFrom (next true) start sendsApart = some socket ∧
    socket.stream.length = 71 ∧ socket.ReadsWhole :=
  ⟨_, rfl, by decide +kernel,
    readsWhole_of_undisturbed true sendsApart (by decide +kernel) rfl⟩

/-- The reply of the handler (`true`) falls between the header and the text of a child. -/
def replyInside : List (Bool × WriterStep) :=
  [(false, .start uploadConcluded), (false, .lock), (false, .write 15),
    (true, .start commandNotFound), (true, .write 15), (true, .write 17), (false, .write 20),
    (false, .unlock)]

/-- Two messages are sent, and the client reads something else. -/
theorem not_readsWhole_replyInside :
    ∃ socket, runFrom (next true) start replyInside = some socket ∧ ¬ socket.ReadsWhole := by
  refine ⟨_, rfl, ?_⟩
  rintro ⟨order, front, finished, -, -, delivered⟩
  have mine : (order.filter (·.1 = true)).length = 1 := by
    rw [← List.length_map Prod.snd, finished true]
    decide +kernel
  have theirs : (order.filter (·.1 = false)).length = 1 := by
    rw [← List.length_map Prod.snd, finished false]
    decide +kernel
  -- what the reader passes on is one message with a payload of both
  have single : order.length = 1 := by
    rw [← List.length_map Prod.snd, ← delivered]
    decide +kernel
  obtain ⟨⟨writer, message⟩, rfl⟩ := List.length_eq_one_iff.mp single
  cases writer with
  | false => simp at mine
  | true => simp at theirs

end ClientSocket

end FileServer
