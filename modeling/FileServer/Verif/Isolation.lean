import FileServer.Verif.Handlers
import FileServer.Verif.Tokenize

/-!
# Isolation of messages

What a process keeps besides its session is the position saved by `strtok`. A message with a
payload overwrites it before it is used; a message without one goes on where an earlier command
had more words than there was room for.
-/
namespace FileServer

open FileServer.Lib

/-- The arguments a message is split into; none when there is nothing to split. -/
def arguments (state : HandlerState) (message : Received) : Option (List (List UInt8)) :=
  (tokenizeCommand (payload message) state.saved).map fun split => split.1.map Token.text

/-- A process that serves a client can come into a state, with its surroundings. -/
def Reaches {ω : Type} (pid : UInt32) (serve : Surroundings ω) (state : HandlerState)
    (world : ω) : Prop :=
  ∃ behind start history run,
    runFrom (ClientRun.next pid serve) (.start behind start) history = some run ∧
      run.state = some state ∧ run.world = world

/-- A message is handled in the same way after every two histories that leave the same session
and the same shared state: its arguments are the same, and so is all that its command does. -/
def Isolated (message : Received) : Prop :=
  ∀ {ω shared : Type} (pid : UInt32) (serve : Surroundings ω) (view : ω → shared)
    {first second : HandlerState} {here there : ω},
    Reaches pid serve first here → Reaches pid serve second there →
      first.session = second.session → view here = view there →
        arguments first message = arguments second message ∧
          handleMessage pid first message = handleMessage pid second message

/-- A message with a payload does not depend on anything but the session. -/
theorem handleMessage_congr (pid : UInt32) {first second : HandlerState} {message : Received}
    (filled : message.1.payloadLength ≠ 0) (same : first.session = second.session) :
    arguments first message = arguments second message ∧
      handleMessage pid first message = handleMessage pid second message := by
  have split : ∀ state : HandlerState, tokenizeCommand (payload message) state.saved =
      some (tokenizeLoop maxArgs (strtok 32 ⟨message.2 ++ [0], 0⟩)) := by
    intro state
    rw [payload, if_neg filled]
    rfl
  constructor
  · simp only [arguments, split]
  · simp only [handleMessage, filled, ↓reduceIte, dispatchPayload, split, same]

/-- A message without a payload gets the words for which an earlier command had no room. -/
theorem arguments_leftover {state : HandlerState} {message : Received} (earlier : Received)
    (empty : message.1.payloadLength = 0)
    (saved : state.saved =
      some (tokenizeLoop maxArgs (strtok 32 ⟨earlier.2 ++ [0], 0⟩)).2) :
    arguments state message =
      some (((words 32 (cString earlier.2)).drop (maxArgs + 1)).take maxArgs) := by
  have text : Cursor.text ⟨earlier.2 ++ [0], 0⟩ = cString earlier.2 := cString_append_zero _
  rw [arguments, payload, if_pos empty, saved, tokenizeCommand, Option.none_or, Option.map_some,
    Option.map_some, tokenizeLoop_words, tokenizeLoop_left, text]

/-- An unknown command with more words than there is room for; the last is the name of another
command. -/
def overlongCommand (last : List UInt8) : Received :=
  let text := str "unknown-command a b c d e " ++ last ++ [0]
  (⟨.cmdreq, 0, UInt32.ofNat text.length, 0, .zero 3⟩, text)

/-- What a process keeps after it. -/
def afterOverlong (last : List UInt8) : HandlerState :=
  ⟨.zero, some (tokenizeLoop maxArgs (strtok 32 ⟨(overlongCommand last).2 ++ [0], 0⟩)).2,
    fun _ => 0⟩

/-- Only the command named last makes a difference. -/
theorem reaches_afterOverlong :
    Reaches 0 (alone fun _ => 0) (afterOverlong (str "ls")) initSharedRegistry ∧
      Reaches 0 (alone fun _ => 0) (afterOverlong (str "cd")) initSharedRegistry :=
  ⟨⟨fun _ => 0, initSharedRegistry, [.message (overlongCommand (str "ls")) (by decide)], _,
      rfl, rfl, rfl⟩,
    ⟨fun _ => 0, initSharedRegistry, [.message (overlongCommand (str "cd")) (by decide)], _,
      rfl, rfl, rfl⟩⟩

/-- A message without a payload runs the command that an earlier one has named. -/
theorem arguments_afterOverlong {message : Received} (empty : message.1.payloadLength = 0) :
    arguments (afterOverlong (str "ls")) message = some [str "ls"] ∧
      arguments (afterOverlong (str "cd")) message = some [str "cd"] := by
  constructor
  · rw [arguments_leftover (overlongCommand (str "ls")) empty rfl]
    decide +kernel
  · rw [arguments_leftover (overlongCommand (str "cd")) empty rfl]
    decide +kernel

/-- What a message without a payload does depends on the commands before it. -/
theorem not_isolated_of_empty {message : Received} (empty : message.1.payloadLength = 0) :
    ¬ Isolated message := by
  intro isolated
  have same := (isolated 0 (alone fun _ => 0) id reaches_afterOverlong.1
    reaches_afterOverlong.2 rfl rfl).1
  rw [(arguments_afterOverlong empty).1, (arguments_afterOverlong empty).2] at same
  exact absurd same (by decide)

/-- A message is isolated from earlier ones exactly when it has a payload. -/
theorem isolated_iff (message : Received) : Isolated message ↔ message.1.payloadLength ≠ 0 := by
  constructor
  · exact fun isolated empty => not_isolated_of_empty empty isolated
  · intro filled _ _ pid _ _ _ _ _ _ _ _ same _
    exact handleMessage_congr pid filled same

/-- A message without a payload. -/
def emptyMessage : Received := (⟨.cmdreq, 0, 0, 0, .zero 3⟩, [])

/-- The shortest message is not isolated. -/
theorem not_isolated_emptyMessage : ¬ Isolated emptyMessage := not_isolated_of_empty rfl

end FileServer
