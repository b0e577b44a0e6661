import FileServer.Model.Handlers
import FileServer.Lib.Run

/-!
# The loop of `handleClient`

One pass of the loop looks for a signal, reads a message and dispatches it; when the client is
gone the session is taken out of the registry. Between the passes the process keeps its session
and, inside `strtok`, the place where the last command was left.

A run is a process of the server with its surroundings: what answers its calls is a parameter,
so a result about runs holds for every behaviour of the helper, of the other sessions and of
the client. A process forked for a background transfer is a run as well: the one in which its
`fork` is answered as in the new process.
-/
namespace FileServer

open FileServer.Lib

/-- What a process keeps between two messages. -/
structure HandlerState where
  /-- The session. -/
  session : ClientSession
  /-- The position saved by `strtok`, in the payload of an earlier message. -/
  saved : Option Cursor
  /-- The bytes behind that payload. -/
  behind : Nat → UInt8

/-- How a pass of the loop ends. -/
inductive LoopOutcome
  /-- The loop goes on. -/
  | next (state : HandlerState)
  /-- The loop is left. -/
  | leave
  /-- The process is gone, or waits for ever. -/
  | gone

/-- `dispatchCommands`, from the payload on. -/
def dispatchPayload (pid : UInt32) (state : HandlerState) (hdr : MsgHeader)
    (payload : Option Cursor) : HandlerScript LoopOutcome :=
  match tokenizeCommand payload state.saved with
  | none => pure .gone
  | some (argv, saved) => do
    let session ← dispatchCommands
      ⟨pid, argv, saved.memory, state.behind, hdr, state.session⟩
    match session with
    | none => pure .gone
    | some session => pure (.next { state with session, saved := some saved })

/-- The size of the block for a payload, in 32-bit arithmetic. -/
def payloadSize (hdr : MsgHeader) : UInt32 := hdr.payloadLength + 1

/-- What `dispatchCommands` is passed: a null pointer when the header announces no payload. -/
def payload (message : Received) : Option Cursor :=
  if message.1.payloadLength = 0 then none else some ⟨message.2 ++ [0], 0⟩

/-- The part of the loop after the header: the payload is read into a new block and dispatched.
Reading fails when there is no block, and destroys the heap when the block is too small. -/
def handleMessage (pid : UInt32) (state : HandlerState) (message : Received) :
    HandlerScript LoopOutcome :=
  if message.1.payloadLength = 0 then dispatchPayload pid state message.1 (payload message)
  else do
    match ← perform (.malloc (payloadSize message.1)) with
    | none => pure .leave
    | some behind =>
      if payloadSize message.1 ≤ message.1.payloadLength then pure .gone
      else dispatchPayload pid { state with behind } message.1 (payload message)

/-- The end of `handleClient`. -/
def closeClient (pid : UInt32) (session : ClientSession) : HandlerScript Unit :=
  if session.state = .loggedIn then do
    let _ ← perform (.enter (.cleanupUserRequests session.usernameText))
    let _ ← perform (.enter (.removeOnlineUser pid))
  else pure ()

/-- What `readAll` of a header and of the payload after it bring. -/
inductive ClientInput
  /-- A whole message. -/
  | message (received : Received) (announced : received.Announced)
  /-- A signal arrived first. -/
  | interrupted
  /-- The stream has ended or failed. -/
  | closed

/-- The test of the flag that the signal handler sets. -/
def noticeSignal (session : ClientSession) : HandlerScript Unit := do
  if ← perform .signalReceived then checkForNotifications session else pure ()

/-- The rest of the loop; none when there is no further pass. -/
def handleInput (pid : UInt32) (state : HandlerState) :
    ClientInput → HandlerScript (Option HandlerState)
  | .interrupted => pure (some state)
  | .closed => do
    closeClient pid state.session
    pure none
  | .message received _ => do
    match ← handleMessage pid state received with
    | .next state => pure (some state)
    | .leave =>
      closeClient pid state.session
      pure none
    | .gone => pure none

/-- One pass of the loop. -/
def clientPass (pid : UInt32) (state : HandlerState) (input : ClientInput) :
    HandlerScript (Option HandlerState) := do
  noticeSignal state.session
  handleInput pid state input

/-- What answers the calls of a process. -/
abbrev Surroundings (ω : Type) := ω → (op : HandlerOp) → op.Answer × ω

/-- A process of the server with its surroundings. -/
structure ClientRun (ω : Type) where
  /-- What the process keeps; none after its end. -/
  state : Option HandlerState
  /-- The surroundings. -/
  world : ω
  /-- The calls made so far with their answers, each with the session in which its pass of the
  loop began. -/
  log : List (ClientSession × HandlerEvent)

namespace ClientRun

variable {ω : Type}

/-- `handleClient` has been called. -/
def start (behind : Nat → UInt8) (world : ω) : ClientRun ω :=
  ⟨some ⟨.zero, none, behind⟩, world, []⟩

/-- One pass of the loop. -/
def next (pid : UInt32) (serve : Surroundings ω) (run : ClientRun ω) (input : ClientInput) :
    Option (ClientRun ω) :=
  run.state.map fun state =>
    let pass := (clientPass pid state input).runOn serve run.world
    ⟨pass.value, pass.world, run.log ++ pass.events.map fun event => (state.session, event)⟩

end ClientRun

end FileServer
