import FileServer.Model.Utility

/-!
# Reading the messages of a client

The reading side of `handleClient`. The client writes its messages to the socket; the handler
reads a header and its payload with `readAll`. The signal handler is installed without
`SA_RESTART`, so a signal that arrives while `read` waits for data makes `readAll` fail and
drop what it has: in a header the loop starts over, in a payload it ends.
-/
namespace FileServer

open FileServer.Lib

/-- A client and the handler that reads from it. -/
structure ClientConnection where
  /-- What the client has to write, what is under way and what the handler has read. -/
  pipe : Pipe MessageLoop
  /-- The handler has left its loop. -/
  closed : Bool

/-- What can happen on the connection. -/
inductive ConnectionEvent
  /-- A `write` of the client or a `read` of the handler moves bytes. -/
  | transfer (call : PipeCall)
  /-- `SIGUSR1` arrives while `read` waits, no byte being there. -/
  | interrupt

namespace ClientConnection

/-- The client is about to write the messages. -/
def start (messages : List Received) : ClientConnection where
  pipe := ⟨messages.flatMap fun message => writeAll (MsgHeader.layout.encode message.1) ++
    writeAll message.2, [], betweenMessages []⟩
  closed := false

/-- Messages passed to `dispatchCommands`, oldest first. -/
def dispatched (connection : ClientConnection) : List Received :=
  connection.pipe.reading.control.delivered

/-- `readAll` has failed with `EINTR`. -/
def interrupted (connection : ClientConnection) : ClientConnection :=
  match connection.pipe.reading.control.position with
  | .header =>
    { connection with pipe.reading := { connection.pipe.reading with recvd := [] } }
  | .payload _ _ => { connection with closed := true }

/-- An event; none when it cannot happen. -/
def next (connection : ClientConnection) : ConnectionEvent → Option ClientConnection
  | .transfer (.write more) =>
    (connection.pipe.next messageReader (.write more)).map fun pipe => { connection with pipe }
  | .transfer (.read more) =>
    if connection.closed then none
    else (connection.pipe.next messageReader (.read more)).map fun pipe =>
      { connection with pipe }
  | .interrupt =>
    if connection.closed ∨ connection.pipe.inFlight ≠ [] then none
    else some connection.interrupted

end ClientConnection

end FileServer
