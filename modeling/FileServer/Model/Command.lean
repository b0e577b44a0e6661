import FileServer.Lib.Script
import FileServer.Model.Registry

/-!
# Commands and the calls of their handlers

The splitting of a message into arguments by `tokenizeCommand`, what `dispatchCommands` passes
to the handler of a command, and what a handler asks of the rest of the system: memory, the
client socket, the helper process, the shared registry and, in the children forked for
background transfers, the data socket. Handlers are scripts over these calls, so their
surroundings answer in any way the types of the answers allow.
-/
namespace FileServer

open FileServer.Lib

/-- The loop of `tokenizeCommand`, with the result of the last `strtok` call and the number of
arguments it still has room for. -/
def tokenizeLoop : Nat → Option Token × Cursor → List Token × Cursor
  | 0, (_, saved) => ([], saved)
  | _ + 1, (none, saved) => ([], saved)
  | room + 1, (some token, saved) =>
    let (later, final) := tokenizeLoop room (strtok 32 saved)
    (token :: later, final)

/-- `tokenizeCommand`. For a null pointer `strtok` goes on from the position saved by the last
call; before the first call there is none, and it follows the null pointer. -/
def tokenizeCommand (input saved : Option Cursor) : Option (List Token × Cursor) :=
  (input.or saved).map fun cursor => tokenizeLoop maxArgs (strtok 32 cursor)

/-- What `dispatchCommands` passes to a handler, with the process it runs in. -/
structure HandlerCall where
  /-- `getpid()`. -/
  pid : UInt32
  /-- The arguments, by their positions in the payload. -/
  argv : List Token
  /-- The payload as `tokenizeCommand` leaves it. -/
  memory : List UInt8
  /-- The bytes that lie behind the payload. -/
  behind : Nat → UInt8
  /-- Header of the message. -/
  hdr : MsgHeader
  /-- The session. -/
  session : ClientSession

namespace HandlerCall

/-- The arguments as strings. -/
def args (call : HandlerCall) : List (List UInt8) := call.argv.map Token.text

/-- The byte at a position counted from the start of the payload. -/
def byteAt (call : HandlerCall) (position : Nat) : UInt8 :=
  if inside : position < call.memory.length then call.memory[position]
  else call.behind (position - call.memory.length)

/-- The bytes of a block that starts at a position of the payload. -/
def block (call : HandlerCall) (start length : Nat) : List UInt8 :=
  (List.range length).map fun index => call.byteAt (start + index)

end HandlerCall

/-- What `sendHelperRequest` and `sendHelperRequestRW` leave in `res`. -/
inductive HelperAnswer
  /-- The response of the helper. -/
  | answered (res : HelperResponse)
  /-- The request has been sent, and its response could not be read; `res` is what the stack held,
  perhaps partly overwritten. -/
  | failed (res : HelperResponse)
  /-- The request could not be sent; `res` is what the stack held. -/
  | unsent (res : HelperResponse)

namespace HelperAnswer

/-- The value returned. -/
def status : HelperAnswer → Int32
  | answered res => res.status
  | failed _ | unsent _ => -1

/-- The local variable `res` afterwards. -/
def res : HelperAnswer → HelperResponse
  | answered res | failed res | unsent res => res

end HelperAnswer

/-- What `fork` returns, in either process. -/
inductive ForkResult
  /-- No process was created. -/
  | failed
  /-- The caller goes on. -/
  | parent
  /-- The new process. -/
  | child

/-- Size of the buffers that file data passes through. -/
abbrev bufferSize : Nat := 16384

/-- What a handler asks of its surroundings. -/
inductive HandlerOp
  /-- `malloc`. -/
  | malloc (size : UInt32)
  /-- The test of `transfer_signal_received`, which is cleared afterwards. -/
  | signalReceived
  /-- A critical section of the registry. -/
  | enter (entered : CriticalSection)
  /-- The search for a user, once a second until it finds one. -/
  | awaitUser (destUser : List UInt8)
  /-- `kill` with `SIGUSR1`. -/
  | kill (pid : UInt32)
  /-- `sendProtocolMsg` to the client. -/
  | sendProtocolMsg (type : MsgType) (status : Int32) (msg : List UInt8)
  /-- `sendProtocolMsgBg` to the client. -/
  | sendProtocolMsgBg (type : MsgType) (status : Int32) (msg : List UInt8) (isBg : Bool)
  /-- `sendProtocolMsgLocked` to the client. -/
  | sendProtocolMsgLocked (type : MsgType) (status : Int32) (msg : List UInt8) (isBg : Bool)
  /-- A header and its payload passed to `writeAll` for the client. -/
  | writeClient (type : MsgType) (payload : List UInt8)
  /-- `connectToHelper`. -/
  | connectToHelper
  /-- `sendHelperRequest` or `sendHelperRequestRW`. -/
  | sendHelperRequest (request : HelperRequest)
  /-- `readAll` of a block from the helper. -/
  | readHelper (length : UInt32)
  /-- The socket for a data connection is created and bound. -/
  | bindDataPort
  /-- `fork`. -/
  | fork
  /-- `release_socket_lock` of the client socket. -/
  | releaseSocketLock
  /-- `accept` of the data connection. -/
  | acceptData
  /-- `read` from the helper into the transfer buffer. -/
  | readHelperPart (limit : Nat)
  /-- `writeAll` to the data connection. -/
  | writeData (bytes : List UInt8)
  /-- The `read` calls on the data connection, up to the first that returns nothing. -/
  | readData
  /-- `writeAll` to the helper. -/
  | writeHelper (bytes : List UInt8)
  /-- `close` of the data connection. -/
  | closeData
deriving DecidableEq

namespace HandlerOp

/-- How each call is answered. -/
abbrev Answer : HandlerOp → Type
  | malloc _ => Option (Nat → UInt8)
  | signalReceived => Bool
  | enter entered => entered.Result
  | awaitUser _ => Option UInt32
  | kill _ | sendProtocolMsg .. | sendProtocolMsgBg .. | sendProtocolMsgLocked .. => Unit
  | writeClient .. => Unit
  | connectToHelper => Bool
  | sendHelperRequest _ => HelperAnswer
  | readHelper length => Option { bytes : List UInt8 // bytes.length = length.toNat }
  | bindDataPort => Option UInt16
  | fork => ForkResult
  | releaseSocketLock => Unit
  | acceptData => Bool
  | readHelperPart limit =>
    Option { bytes : List UInt8 // 0 < bytes.length ∧ bytes.length ≤ limit }
  | writeData _ => Bool
  | readData => List { bytes : List UInt8 // 0 < bytes.length ∧ bytes.length ≤ bufferSize }
  | writeHelper _ => Bool
  | closeData => Unit

end HandlerOp

/-- A program of the server that makes these calls. -/
abbrev HandlerScript (α : Type) := Script HandlerOp HandlerOp.Answer α

/-- One call. -/
abbrev perform (op : HandlerOp) : HandlerScript op.Answer := Script.perform op

/-- A call made by a handler, with its answer. -/
abbrev HandlerEvent := Σ op : HandlerOp, op.Answer

/-- A handler gives the session it leaves, or none when its process does not come back to the
loop of `handleClient`. -/
abbrev Handler := HandlerCall → HandlerScript (Option ClientSession)

end FileServer
