import FileServer.Lib.Budget
import FileServer.Model.ClientThreads
import FileServer.Model.HandleClient

/-!
# A client and its handler

The client with the process of the server that handles it and the processes forked there for transfers.
Commands reach the handler and messages reach the client in the order in which they are written, and a
message is written in one piece; `ClientSocket` says of which runs this is true. What the client and the
processes do comes in any order, every call of a process is answered in any way, and a message need not
be written at all.
-/
namespace FileServer

open FileServer.Lib

/-- The message that a call sends to the client, if it sends one; the padding is what the stack held. -/
def HandlerOp.message (padding : CharArray 3) : HandlerOp → Option Received
  | .sendProtocolMsg type status msg => some (textMessage type status.toUInt32 msg 0 padding)
  | .sendProtocolMsgBg type status msg isBg | .sendProtocolMsgLocked type status msg isBg =>
    some (textMessage type status.toUInt32 msg (if isBg then 1 else 0) padding)
  | .writeClient type payload => some (messageHeader type 0 payload.length 0 padding, payload)
  | _ => none

/-- The answer with which the process created by a `fork` goes on. -/
def forkCopy : (op : HandlerOp) → op.Answer → Option op.Answer
  | .fork, .parent => some .child
  | _, _ => none

/-- A `fork` does not return in the caller as it does in the process created. -/
def returnsAsCaller : HandlerEvent → Bool
  | ⟨.fork, .child⟩ => false
  | _ => true

/-- A message on its way to the client. -/
structure Outgoing where
  /-- The command that it answers, by its place among the commands read; a notification answers none.
  No variable of the program holds it. -/
  command : Option Nat
  /-- The message. -/
  message : Received
deriving DecidableEq

/-- Where `handleClient` stands. -/
inductive HandlerPlace
  /-- In front of `readAll`: looking for a signal and sending notifications, or done with that. -/
  | noticing (state : HandlerState) (script : HandlerScript Unit)
  /-- Behind `readAll`, up to the next pass of the loop or the end. -/
  | serving (script : HandlerScript (Option HandlerState))

/-- A process forked for a transfer. -/
structure TransferChild where
  /-- The command it serves, by its place among the commands read. -/
  command : Nat
  /-- What is left to do. -/
  script : HandlerScript (Option HandlerState)

/-- What is done with a call of a process. -/
structure CallAnswer where
  /-- The call with its answer. -/
  event : HandlerEvent
  /-- A message is written, unless the lock or the socket fails. -/
  written : Bool
  /-- What the stack held. -/
  padding : CharArray 3

/-- The message that the call sends. -/
def CallAnswer.sends (answer : CallAnswer) (command : Option Nat) : List Outgoing :=
  if answer.written then
    ((answer.event.1.message answer.padding).map fun message => ⟨command, message⟩).toList
  else []

/-- What happens next. -/
inductive DialogueStep
  /-- A step of the client. -/
  | client (step : ClientStep)
  /-- The handler reads the next command. -/
  | read
  /-- A signal interrupts the handler in `readAll`. -/
  | interrupt
  /-- `readAll` of the handler fails. -/
  | close
  /-- The loop of `handleClient` goes on. -/
  | loop
  /-- A call of the handler. -/
  | call (answer : CallAnswer)
  /-- A call of a process that it has forked. -/
  | childCall (index : Nat) (answer : CallAnswer)

/-- The client, its handler and what is on its way between them. -/
structure Dialogue where
  /-- The client. -/
  client : ClientThreads
  /-- Commands on their way to the handler, oldest first. -/
  commands : List Received
  /-- Commands that the handler has read, oldest first. -/
  taken : List Received
  /-- Where the handler stands. -/
  handler : HandlerPlace
  /-- The processes that it has forked. -/
  children : List TransferChild
  /-- Messages on their way to the client, oldest first. -/
  messages : List Outgoing
  /-- The message that the client has read last. -/
  lastRead : Option Outgoing

/-- The command that the client writes in a step. -/
def ClientThreads.writes (client : ClientThreads) : ClientStep → Option Received
  | .writer .advance =>
    match client.writer with
    | .sending message => some message
    | _ => none
  | _ => none

namespace Dialogue

/-- The client has connected. -/
def start (behind : Nat → UInt8) : Dialogue :=
  ⟨.start, [], [], .noticing ⟨.zero, none, behind⟩ (noticeSignal .zero), [], [], none⟩

/-- A step of the client, which reads the messages in their order. -/
def clientNext (dialogue : Dialogue) (step : ClientStep) : Option Dialogue :=
  match step with
  | .reader (.receive message) =>
    match dialogue.messages with
    | [] => none
    | first :: later =>
      if first.message = message then
        (dialogue.client.next step).map fun client =>
          { dialogue with client, messages := later, lastRead := some first }
      else none
  | _ => (dialogue.client.next step).map fun client =>
      { dialogue with
        client
        commands := dialogue.commands ++ (dialogue.client.writes step).toList }

/-- The handler goes on with what `readAll` brings. -/
def input (pid : UInt32) (dialogue : Dialogue) (brought : ClientInput) : Option Dialogue :=
  match dialogue.handler with
  | .noticing state (.pure _) =>
    some { dialogue with handler := .serving (handleInput pid state brought) }
  | _ => none

/-- A call of the handler; a `fork` that succeeds creates a process. -/
def handlerNext (dialogue : Dialogue) (answer : CallAnswer) : Option Dialogue :=
  match dialogue.handler with
  | .noticing state script => (script.resume answer.event).map fun script =>
      { dialogue with
        handler := .noticing state script
        messages := dialogue.messages ++ answer.sends none }
  | .serving script =>
    if returnsAsCaller answer.event then
      (script.resume answer.event).map fun rest =>
        let command := dialogue.taken.length - 1
        let copy := (forkCopy answer.event.1 answer.event.2).bind fun other =>
          script.resume ⟨answer.event.1, other⟩
        { dialogue with
          handler := .serving rest
          children := dialogue.children ++ (copy.map fun script => ⟨command, script⟩).toList
          messages := dialogue.messages ++ answer.sends (some command) }
    else none

/-- A call of a process that the handler has forked. -/
def childNext (dialogue : Dialogue) (index : Nat) (answer : CallAnswer) : Option Dialogue :=
  dialogue.children[index]?.bind fun child => (child.script.resume answer.event).map fun script =>
    { dialogue with
      children := dialogue.children.set index { child with script }
      messages := dialogue.messages ++ answer.sends (some child.command) }

/-- One step. -/
def next (pid : UInt32) (dialogue : Dialogue) : DialogueStep → Option Dialogue
  | .client step => dialogue.clientNext step
  | .read =>
    match dialogue.commands with
    | [] => none
    | message :: later =>
      if announced : message.Announced then
        { dialogue with
          commands := later
          taken := dialogue.taken ++ [message] }.input pid (.message message announced)
      else none
  | .interrupt => dialogue.input pid .interrupted
  | .close => dialogue.input pid .closed
  | .loop =>
    match dialogue.handler with
    | .serving (.pure (some state)) =>
      some { dialogue with handler := .noticing state (noticeSignal state.session) }
    | _ => none
  | .call answer => dialogue.handlerNext answer
  | .childCall index answer => dialogue.childNext index answer

end Dialogue

end FileServer
