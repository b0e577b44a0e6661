import FileServer.Lib.Condition
import FileServer.Lib.Run
import FileServer.Model.Worker
import FileServer.Model.DataTransfer

/-!
# The threads of the client

`readThreadFunc` and `writeThreadFunc` with the threads that are started for transfers. They share
the variables of `client/main.c` and the lock `response_lock` with its condition. Every access to a
shared variable outside a lock is a step, a section under a lock that does not wait is one step, and
the steps of the threads come in any order. What the user types and what arrives from the server is
part of the schedule. The sections under `bg_lock` are single steps, too: `writeThreadFunc` also unlocks
it in front of the prompt without holding it, and that is taken to happen while no section runs.
-/
namespace FileServer

open FileServer.Lib

/-- What `readThreadFunc` prints for a message. -/
inductive ClientOutput
  /-- A text of a background operation; another line follows while content is recorded. -/
  | background (text : List UInt8) (recording : Bool)
  /-- A text that answers a command. -/
  | server (text : List UInt8)
  /-- A listing. -/
  | rows (entries : List ListRow)
  /-- The content of a file. -/
  | content (bytes : List UInt8)
  /-- The file is empty. -/
  | emptyFile
  /-- A message for a download that cannot be parsed. -/
  | badDownload (text : List UInt8)
  /-- A message for an upload that cannot be parsed. -/
  | badUpload
deriving DecidableEq

/-- A thread that runs `backgroundUploadFunc` or `backgroundDownloadFunc`. -/
structure TransferThread where
  /-- Which of the two. -/
  direction : Direction
  /-- Its argument. -/
  args : BgDownloadArgs
deriving DecidableEq

namespace Received

/-- `resp_buf`: the payload and a terminator. -/
def respBuf (message : Received) : List UInt8 := message.2 ++ [0]

/-- `resp_hdr.is_background`. -/
def background (message : Received) : Bool := message.1.isBackground ≠ 0

/-- The thread that `readThreadFunc` starts for a message, if it starts one. -/
def transfer (message : Received) : Option TransferThread :=
  match message.1.type with
  | .downloadRes => (transferArgs message.background message.respBuf).map (⟨.download, ·⟩)
  | .uploadRes => (transferArgs message.background message.respBuf).map (⟨.upload, ·⟩)
  | _ => none

/-- What `readThreadFunc` prints for a message. -/
def output (message : Received) (isWritingContent : Bool) : Option ClientOutput :=
  match message.1.type with
  | .text =>
    some (if message.background then .background (cString message.respBuf) isWritingContent
      else .server (cString message.respBuf))
  | .lsres => some (.rows (listRows message.2))
  | .readcmd => some (if 0 < message.1.payloadLength then .content message.2 else .emptyFile)
  | .downloadRes =>
    if message.transfer.isSome then none else some (.badDownload (cString message.respBuf))
  | .uploadRes => if message.transfer.isSome then none else some .badUpload
  | _ => none

/-- The block for the payload and its terminator, whose size is counted in 32 bits, is large enough. -/
def fits (message : Received) : Prop :=
  message.Announced ∧ message.1.payloadLength < message.1.payloadLength + 1

instance (message : Received) : Decidable message.fits := inferInstanceAs (Decidable (_ ∧ _))

/-- The message ends the wait for a response. -/
def clearsWait (message : Received) : Bool :=
  !message.background && message.1.type ≠ .downloadRes && message.1.type ≠ .uploadRes

end Received

/-- The threads that use `response_lock`. -/
inductive ClientThread
  /-- `readThreadFunc`. -/
  | reader
  /-- `writeThreadFunc`. -/
  | writer
deriving DecidableEq

/-- Where `writeThreadFunc` stands. -/
inductive WriteThreadPhase
  /-- At the head of the loop, about to test `should_exit`. -/
  | starting
  /-- About to lock `response_lock`. -/
  | locking
  /-- With the lock, about to test `waiting_for_response` and `should_exit`. -/
  | testing
  /-- In `pthread_cond_wait`. -/
  | waiting
  /-- Behind the lock, about to test `should_exit` again. -/
  | passing
  /-- In `fgets`. -/
  | prompting
  /-- Reading the content of a write command. -/
  | recording (command : CommandLine)
  /-- About to count a background command. -/
  | counting (message : Received)
  /-- About to set or to clear `waiting_for_response` for a command. -/
  | marking (message : Received)
  /-- About to write a command to the server. -/
  | sending (message : Received)
  /-- The function has returned. -/
  | ended

/-- Where `readThreadFunc` stands. -/
inductive ReadThreadPhase
  /-- At the head of the loop, about to test `should_exit`. -/
  | starting
  /-- In `readAll` of a message. -/
  | reading
  /-- About to print a message and to start its thread. -/
  | handling (message : Received)
  /-- About to lock `response_lock`. -/
  | locking
  /-- With the lock, about to clear `waiting_for_response`. -/
  | clearing
  /-- About to unlock `response_lock`. -/
  | unlocking
  /-- The connection is lost and `should_exit` is set; about to wake the writer. -/
  | alarming
  /-- The function has returned. -/
  | ended

/-- A step of `writeThreadFunc`. -/
inductive WriteThreadStep
  /-- The next test or call that needs nothing from outside. -/
  | advance
  /-- `fgets` returns a line, or nothing at the end of the input. -/
  | type (line : Option CommandLine) (padding : CharArray 3)
  /-- The content of a write command ends. -/
  | finishContent (content : List UInt8) (padding : CharArray 3)

/-- A step of `readThreadFunc`. -/
inductive ReadThreadStep
  /-- The next test or call that needs nothing from outside. -/
  | advance
  /-- A message has been read; one whose payload leaves its block destroys the heap. -/
  | receive (message : Received)
  /-- `readAll` reports a failure or the end of the stream. -/
  | fail
  /-- A message is printed and its thread started, if `pthread_create` succeeds. -/
  | handle (created : Bool)

/-- What happens next. -/
inductive ClientStep
  /-- A step of `writeThreadFunc`. -/
  | writer (step : WriteThreadStep)
  /-- A step of `readThreadFunc`. -/
  | reader (step : ReadThreadStep)
  /-- `pthread_cond_wait` returns for no reason. -/
  | wake
  /-- A transfer ends. -/
  | finish (index : Nat)

/-- What the threads have done. -/
inductive ClientEvent
  /-- The prompt of `writeThreadFunc`. -/
  | prompted
  /-- `exit` has been refused with this number of operations. -/
  | refused (pending : Nat)
  /-- A background command has been counted. -/
  | counted
  /-- `waiting_for_response` has been set for a foreground command or cleared for another one. -/
  | marked (background : Bool)
  /-- A command has been written to the server. -/
  | sent (message : Received)
  /-- A message has been read; one whose payload leaves its block destroys the heap. -/
  | received (message : Received)
  /-- Something has been printed by `readThreadFunc`. -/
  | shown (output : ClientOutput)
  /-- `waiting_for_response` has been cleared by `readThreadFunc`. -/
  | cleared
  /-- A transfer has ended. -/
  | finished (transfer : TransferThread)

/-- The variables of the client and its threads. -/
structure ClientThreads where
  /-- `should_exit`. -/
  shouldExit : Bool
  /-- `waiting_for_response`. -/
  waitingForResponse : Bool
  /-- `bg_ops_count`. -/
  bgOpsCount : Nat
  /-- `is_writing_content`. -/
  isWritingContent : Bool
  /-- `response_lock` and `response_cond`. -/
  response : Condition ClientThread
  /-- Where the writer stands. -/
  writer : WriteThreadPhase
  /-- Where the reader stands. -/
  reader : ReadThreadPhase
  /-- The transfers that run. -/
  transfers : List TransferThread
  /-- What the threads have done, oldest first. -/
  log : List ClientEvent

/-- The message for any command but a write command. -/
def commandMessage (command : CommandLine) (padding : CharArray 3) : Received :=
  let payload := command.text ++ [0]
  (clientHeader .cmdreq command payload.length padding, payload)

namespace ClientThreads

/-- The threads have been created. -/
def start : ClientThreads :=
  ⟨false, false, 0, false, .start, .starting, .starting, [], []⟩

/-- The writer goes on with a command that has been read. -/
def command (client : ClientThreads) (message : Received) : ClientThreads :=
  { client with writer := if message.background then .counting message else .marking message }

/-- A line has been typed. -/
def typed (client : ClientThreads) (padding : CharArray 3) : Option CommandLine → ClientThreads
  | none => { client with shouldExit := true, writer := .ended }
  | some line =>
    if line.text = [] then { client with writer := .starting }
    else if line.text = str "exit" then
      if 0 < client.bgOpsCount then
        { client with
          writer := .starting
          log := client.log ++ [.refused client.bgOpsCount] }
      else { client with shouldExit := true, writer := .ended }
    else if str "write " <+: line.text then
      { client with isWritingContent := true, writer := .recording line }
    else client.command (commandMessage line padding)

/-- The next test or call of the writer. -/
def advanceWriter (client : ClientThreads) : Option ClientThreads :=
  match client.writer with
  | .starting => some { client with writer := if client.shouldExit then .ended else .locking }
  | .locking => (client.response.next .writer .lock).map fun response =>
      { client with response, writer := .testing }
  | .testing =>
    if client.waitingForResponse && !client.shouldExit then
      (client.response.next .writer .resolve).map fun response =>
        { client with response, writer := .waiting }
    else
      (client.response.next .writer .unlock).map fun response =>
        { client with response, writer := .passing }
  | .waiting =>
    match client.response.phase .writer with
    | .resolved =>
      (client.response.next .writer .sleep).map fun response => { client with response }
    | .woken => (client.response.next .writer .lock).map fun response =>
        { client with response, writer := .testing }
    | _ => none
  | .passing =>
    some (if client.shouldExit then { client with writer := .ended }
      else { client with writer := .prompting, log := client.log ++ [.prompted] })
  | .counting message => some { client with
      bgOpsCount := client.bgOpsCount + 1
      writer := .marking message
      log := client.log ++ [.counted] }
  | .marking message =>
    if client.response.holder = none then
      some { client with
        waitingForResponse := !message.background
        writer := .sending message
        log := client.log ++ [.marked message.background] }
    else none
  | .sending message => some { client with
      writer := .starting
      log := client.log ++ [.sent message] }
  | .prompting | .recording _ | .ended => none

/-- A step of the writer. -/
def nextWriter (client : ClientThreads) : WriteThreadStep → Option ClientThreads
  | .advance => client.advanceWriter
  | .type line padding =>
    match client.writer with
    | .prompting => some (client.typed padding line)
    | _ => none
  | .finishContent content padding =>
    match client.writer with
    | .recording line => (writeMessage line content padding).map fun message =>
        { client with isWritingContent := false }.command message
    | _ => none

/-- A message is printed, and its thread is started. -/
def handled (client : ClientThreads) (message : Received) (created : Bool) : ClientThreads :=
  { client with
    reader := if message.clearsWait then .locking else .starting
    transfers := client.transfers ++ if created then message.transfer.toList else []
    log := client.log ++ ((message.output client.isWritingContent).map .shown).toList }

/-- The next test or call of the reader. -/
def advanceReader (client : ClientThreads) : Option ClientThreads :=
  match client.reader with
  | .starting => some { client with reader := if client.shouldExit then .ended else .reading }
  | .locking => (client.response.next .reader .lock).map fun response =>
      { client with response, reader := .clearing }
  | .clearing => some { client with
      waitingForResponse := false
      response := client.response.wakeAll
      reader := .unlocking
      log := client.log ++ [.cleared] }
  | .unlocking => (client.response.next .reader .unlock).map fun response =>
      { client with response, reader := .starting }
  | .alarming => some { client with response := client.response.wakeAll, reader := .ended }
  | .reading | .handling _ | .ended => none

/-- A step of the reader. -/
def nextReader (client : ClientThreads) : ReadThreadStep → Option ClientThreads
  | .advance => client.advanceReader
  | .receive message =>
    match client.reader with
    | .reading =>
      if message.fits then
        some { client with
          reader := .handling message
          log := client.log ++ [.received message] }
      else none
    | _ => none
  | .fail =>
    match client.reader with
    | .reading => some { client with shouldExit := true, reader := .alarming }
    | _ => none
  | .handle created =>
    match client.reader with
    | .handling message => some (client.handled message created)
    | _ => none

/-- One step of the client. -/
def next (client : ClientThreads) : ClientStep → Option ClientThreads
  | .writer step => client.nextWriter step
  | .reader step => client.nextReader step
  | .wake => (client.response.wake .writer).map fun response => { client with response }
  | .finish index => client.transfers[index]?.map fun transfer =>
      { client with
        bgOpsCount := client.bgOpsCount - 1
        transfers := client.transfers.eraseIdx index
        log := client.log ++ [.finished transfer] }

end ClientThreads

end FileServer
