import FileServer.Model.ClientConnection

/-!
# Framing of client messages

Without signals the handler passes on exactly the messages the client writes, however the
stream is cut. A signal does no harm between two messages. Anywhere else it costs the bytes of
the header read so far, or the connection, and no later event makes up for that.
-/
namespace FileServer

open FileServer.Lib

namespace MessageLoop

/-- Messages passed on are never taken back. -/
theorem delivered_receive (reading : Reading MessageLoop) (chunk : List UInt8) :
    reading.control.delivered <+: (messageReader.receive reading chunk).control.delivered := by
  simp only [Reader.receive]
  split
  · exact List.prefix_refl _
  · simp only [messageReader]
    split
    · split
      · exact List.prefix_refl _
      · exact List.prefix_append _ _
    · exact List.prefix_append _ _

/-- The messages passed on so far begin those passed on later. -/
theorem delivered_feed (reading : Reading MessageLoop) (bytes : List UInt8) :
    reading.control.delivered <+: (messageReader.feed reading bytes).control.delivered := by
  induction bytes generalizing reading with
  | nil => exact List.prefix_refl _
  | cons byte rest ih => exact (delivered_receive reading [byte]).trans (ih _)

/-- Bytes read of the message in progress. -/
def progress (reading : Reading MessageLoop) : Nat :=
  match reading.control.position with
  | .header => reading.recvd.length
  | .payload _ _ => MsgHeader.layout.size + reading.recvd.length

/-- Bytes read and not dropped. -/
def kept (reading : Reading MessageLoop) : Nat :=
  (reading.control.delivered.flatMap Received.bytes).length + progress reading

/-- A `read` within the wanted block keeps every byte. -/
theorem kept_receive {reading : Reading MessageLoop} {chunk : List UInt8}
    (waiting : messageReader.Waiting reading)
    (inside : chunk.length ≤ messageReader.missing reading) :
    kept (messageReader.receive reading chunk) = kept reading + chunk.length := by
  obtain ⟨⟨position, delivered⟩, recvd⟩ := reading
  simp only [Reader.missing, Reader.Waiting] at inside waiting
  by_cases more : (recvd ++ chunk).length < messageReader.want ⟨position, delivered⟩
  · simp only [Reader.receive, more, ↓reduceIte]
    cases position with
    | header => simp only [kept, progress, List.length_append]; omega
    | payload header announced => simp only [kept, progress, List.length_append]; omega
  · -- the block is full, and no longer than wanted
    have full : (recvd ++ chunk).length = messageReader.want ⟨position, delivered⟩ := by
      rw [List.length_append] at more ⊢
      omega
    simp only [Reader.receive, more, ↓reduceIte]
    cases position with
    | header =>
      have size : recvd.length + chunk.length = MsgHeader.layout.size := by
        rw [← List.length_append]
        exact full
      by_cases announced : 0 < (MsgHeader.layout.decode (recvd ++ chunk)).payloadLength.toNat
      · simp only [messageReader, announced, ↓reduceDIte, kept, progress, List.length_nil]
        omega
      · simp only [messageReader, announced, ↓reduceDIte, kept, progress, List.length_nil,
          List.flatMap_append, List.length_append, List.flatMap_cons, List.flatMap_nil,
          Received.bytes, Layout.length_encode]
        omega
    | payload header announced =>
      simp only [messageReader, kept, progress, List.length_nil, List.flatMap_append,
        List.length_append, List.flatMap_cons, List.flatMap_nil, Received.bytes,
        Layout.length_encode]
      omega

end MessageLoop

namespace ClientConnection

/-- A signal arrives only while the handler waits for the first byte of a header. -/
def BetweenMessages (connection : ClientConnection) : ConnectionEvent → Prop
  | .transfer _ => True
  | .interrupt => connection.pipe.reading.control.position = .header ∧
      connection.pipe.reading.recvd = []

instance (connection : ClientConnection) :
    (event : ConnectionEvent) → Decidable (connection.BetweenMessages event)
  | .transfer _ => .isTrue trivial
  | .interrupt => inferInstanceAs (Decidable (_ ∧ _))

/-- The connection is open, what was passed on are the first of the messages, and all of them
once everything is written and read. -/
def Lossless (messages : List Received) (connection : ClientConnection) : Prop :=
  connection.closed = false ∧ connection.dispatched <+: messages ∧
    (connection.pipe.unsent = [] → connection.pipe.inFlight = [] →
      connection.pipe.reading = betweenMessages messages)

/-- Nothing more will be passed on: the handler has left, or has read all there is. -/
def Ended (connection : ClientConnection) : Prop :=
  connection.closed = true ∨ (connection.pipe.unsent = [] ∧ connection.pipe.inFlight = [])

variable {connection after : ClientConnection} {event : ConnectionEvent}

/-- A signal between two messages changes nothing. -/
theorem interrupted_eq (between : connection.BetweenMessages .interrupt) :
    connection.interrupted = connection := by
  obtain ⟨⟨unsent, inFlight, ⟨position, delivered⟩, recvd⟩, closed⟩ := connection
  obtain ⟨rfl, rfl⟩ := between
  rfl

/-- What an event does to the pipe: a call moves bytes, or a signal arrives while no byte is
there. -/
theorem next_cases (step : connection.next event = some after) :
    (∃ call pipe, event = .transfer call ∧ connection.pipe.next messageReader call = some pipe ∧
        after = { connection with pipe }) ∨
      (event = .interrupt ∧ connection.closed = false ∧ connection.pipe.inFlight = [] ∧
        after = connection.interrupted) := by
  cases event with
  | transfer call =>
    cases call with
    | write more =>
      obtain ⟨pipe, moved, rfl⟩ := Option.map_eq_some_iff.mp step
      exact Or.inl ⟨_, pipe, rfl, moved, rfl⟩
    | read more =>
      simp only [next] at step
      split at step
      · cases step
      · obtain ⟨pipe, moved, rfl⟩ := Option.map_eq_some_iff.mp step
        exact Or.inl ⟨_, pipe, rfl, moved, rfl⟩
  | interrupt =>
    simp only [next] at step
    split at step
    · cases step
    · rename_i waiting
      rw [not_or, not_not, Bool.not_eq_true] at waiting
      exact Or.inr ⟨rfl, waiting.1, waiting.2, (Option.some.inj step).symm⟩

/-- On the way the handler will read exactly the messages. -/
structure OnCourse (messages : List Received) (connection : ClientConnection) : Prop where
  /-- The handler is in its loop. -/
  open_ : connection.closed = false
  /-- `readAll` waits for something. -/
  waiting : messageReader.Waiting connection.pipe.reading
  /-- Reading the rest of the stream passes on the messages. -/
  outcome : connection.pipe.outcome messageReader = betweenMessages messages

/-- What the client has to write are the bytes of its messages. -/
theorem flatten_unsent_start (messages : List Received) :
    (start messages).pipe.unsent.flatten = messages.flatMap Received.bytes := by
  induction messages with
  | nil => rfl
  | cons message rest ih =>
    simp only [start, List.flatMap_cons, List.flatten_append, flatten_writeAll] at ih ⊢
    rw [ih]
    rfl

/-- A client that has not written anything is on course. -/
theorem onCourse_start {messages : List Received}
    (announced : ∀ message ∈ messages, message.Announced) : OnCourse messages (start messages) where
  open_ := rfl
  waiting := betweenMessages_waiting []
  outcome := by
    rw [Pipe.outcome, flatten_unsent_start]
    exact feed_messages [] announced

/-- An event with no signal inside a message stays on course. -/
theorem OnCourse.next {messages : List Received} (course : OnCourse messages connection)
    (between : connection.BetweenMessages event) (step : connection.next event = some after) :
    OnCourse messages after := by
  obtain ⟨call, pipe, rfl, moved, rfl⟩ | ⟨rfl, -, -, rfl⟩ := next_cases step
  · obtain ⟨waiting, same⟩ := Pipe.next_outcome messageReader course.waiting moved
    exact ⟨course.open_, waiting, same.trans course.outcome⟩
  · rw [interrupted_eq between]
    exact course

/-- On course nothing is lost. -/
theorem OnCourse.lossless {messages : List Received} (course : OnCourse messages connection) :
    Lossless messages connection := by
  refine ⟨course.open_, ?_, fun written read => ?_⟩
  · have begun := MessageLoop.delivered_feed connection.pipe.reading
      (connection.pipe.inFlight ++ connection.pipe.unsent.flatten)
    have outcome := course.outcome
    rw [Pipe.outcome] at outcome
    rwa [outcome] at begun
  · have outcome := course.outcome
    simpa [Pipe.outcome, written, read] using outcome

/-- Bytes that are not lost: read and kept, under way, or still to be written. -/
def account (connection : ClientConnection) : Nat :=
  MessageLoop.kept connection.pipe.reading + connection.pipe.inFlight.length +
    connection.pipe.unsent.flatten.length

/-- Calls on the pipe lose no byte. -/
theorem account_transfer {pipe after : Pipe MessageLoop} {call : PipeCall}
    (waiting : messageReader.Waiting pipe.reading)
    (moved : pipe.next messageReader call = some after) (closed : Bool) :
    account ⟨after, closed⟩ = account ⟨pipe, closed⟩ := by
  cases call with
  | write more =>
    obtain ⟨⟨chunk, left⟩, written, rfl⟩ := Option.map_eq_some_iff.mp moved
    have whole := congrArg List.length (writeSome_flatten written)
    simp only [account, List.length_append] at whole ⊢
    omega
  | read more =>
    simp only [Pipe.next] at moved
    split at moved
    · cases moved
    · obtain rfl := Option.some.inj moved
      simp only [account]
      rw [MessageLoop.kept_receive waiting (by rw [List.length_take]; omega), List.length_take,
        List.length_drop]
      omega

/-- A signal inside a message costs bytes or the connection; nothing else does. -/
theorem account_next (waiting : messageReader.Waiting connection.pipe.reading)
    (step : connection.next event = some after) :
    messageReader.Waiting after.pipe.reading ∧
      (connection.closed = true → after.closed = true) ∧
      after.account ≤ connection.account ∧
      (¬ connection.BetweenMessages event →
        after.closed = true ∨ after.account < connection.account) := by
  obtain ⟨call, pipe, rfl, moved, rfl⟩ | ⟨rfl, open_, -, rfl⟩ := next_cases step
  · exact ⟨(Pipe.next_outcome messageReader waiting moved).1, id,
      (account_transfer waiting moved _).le, fun inside => absurd trivial inside⟩
  · obtain ⟨⟨unsent, inFlight, ⟨position, delivered⟩, recvd⟩, closed⟩ := connection
    cases position with
    | header =>
      refine ⟨messageReader.want_pos _, id, ?_, fun inside => Or.inr ?_⟩
      · simp only [account, interrupted, MessageLoop.kept, MessageLoop.progress, List.length_nil]
        omega
      · have some_bytes : 0 < recvd.length :=
          List.length_pos_iff.mpr fun empty => inside ⟨rfl, empty⟩
        simp only [account, interrupted, MessageLoop.kept, MessageLoop.progress, List.length_nil]
        omega
    | payload header announced =>
      exact ⟨waiting, fun _ => rfl, le_rfl, fun _ => Or.inl rfl⟩

/-- Over a run the handler stays out of its loop once it has left, and no byte is gained. -/
theorem account_run {final : ClientConnection} {schedule : List ConnectionEvent}
    (waiting : messageReader.Waiting connection.pipe.reading)
    (run : runFrom next connection schedule = some final) :
    (connection.closed = true → final.closed = true) ∧ final.account ≤ connection.account ∧
      (¬ StepsMeet next BetweenMessages connection schedule →
        final.closed = true ∨ final.account < connection.account) := by
  induction schedule generalizing connection with
  | nil =>
    obtain rfl := Option.some.inj run
    exact ⟨id, le_rfl, fun inside => absurd trivial inside⟩
  | cons event rest ih =>
    cases taken : connection.next event with
    | none => simp [runFrom, taken] at run
    | some after =>
      rw [runFrom, taken, Option.bind_some] at run
      obtain ⟨still, stays, fewer, costs⟩ := account_next waiting taken
      obtain ⟨later, least, lost⟩ := ih still run
      refine ⟨fun closed => later (stays closed), least.trans fewer, fun inside => ?_⟩
      by_cases between : connection.BetweenMessages event
      · have remaining : ¬ StepsMeet next BetweenMessages after rest := by
          intro meets
          refine inside ⟨between, fun reached same => ?_⟩
          rw [taken, Option.some.injEq] at same
          exact same ▸ meets
        exact (lost remaining).imp id fun less => by omega
      · exact (costs between).imp later fun less => by omega

/-- A client writes messages with payloads, whose lengths leave room for the byte the handler
adds. The handler passes on exactly these messages, in every state of every run in which no
signal arrives inside a message; and in a run that has ended with all of them passed on, none
has. -/
theorem lossless_of_betweenMessages (messages : List Received)
    (announced : ∀ message ∈ messages, message.Announced ∧
      0 < message.1.payloadLength.toNat ∧ message.1.payloadLength.toNat < 2 ^ 32 - 1)
    (schedule : List ConnectionEvent) {final : ClientConnection}
    (reached : runFrom next (start messages) schedule = some final) :
    (StepsMeet next BetweenMessages (start messages) schedule → Lossless messages final) ∧
      (Ended final → Lossless messages final →
        StepsMeet next BetweenMessages (start messages) schedule) := by
  have course := onCourse_start fun message member => (announced message member).1
  constructor
  · intro meets
    exact (run_invariant_of_meets _ (fun _ _ _ course between step => course.next between step)
      course meets reached).lossless
  · intro ended lossless
    by_contra inside
    have whole : (start messages).account = (messages.flatMap Received.bytes).length := by
      simp only [account, flatten_unsent_start]
      exact Nat.zero_add _
    have lost := (account_run course.waiting reached).2.2 inside
    obtain ⟨open_, -, all⟩ := lossless
    rcases ended with closed | ⟨written, read⟩
    · exact absurd (open_.symm.trans closed) (by decide)
    · have kept : final.account = (messages.flatMap Received.bytes).length := by
        rw [account, all written read, written, read]
        rfl
      rcases lost with closed | less
      · exact absurd (open_.symm.trans closed) (by decide)
      · omega

/-- The message a client sends for a short command. -/
def changeDirectory : Received :=
  (⟨.cmdreq, 0, 8, 0, .zero 3⟩, str "cd docs" ++ [0])

/-- The command arrives in pieces, with a signal before and after it. -/
def signalBetween : List ConnectionEvent :=
  [.interrupt, .transfer (.write 3), .transfer (.read 1), .transfer (.write 11),
    .transfer (.read 20), .transfer (.write 7), .transfer (.read 7), .interrupt]

/-- Signals between messages do no harm to a command. -/
theorem lossless_signalBetween :
    ∃ final, runFrom next (start [changeDirectory]) signalBetween = some final ∧
      final.dispatched.length = 1 ∧ Lossless [changeDirectory] final :=
  ⟨_, rfl, by decide +kernel, (lossless_of_betweenMessages [changeDirectory]
    (by decide) signalBetween rfl).1 (by decide +kernel)⟩

/-- The signal arrives after four bytes of the header. -/
def signalInside : List ConnectionEvent :=
  [.transfer (.write 3), .transfer (.read 3), .interrupt, .transfer (.write 11),
    .transfer (.write 7), .transfer (.read 15)]

/-- The handler drops the bytes and takes what follows for a header. -/
theorem not_lossless_signalInside :
    ∃ final, runFrom next (start [changeDirectory]) signalInside = some final ∧
      ¬ Lossless [changeDirectory] final := by
  refine ⟨_, rfl, ?_⟩
  rintro ⟨-, begun, -⟩
  revert begun
  decide +kernel

end ClientConnection

end FileServer
