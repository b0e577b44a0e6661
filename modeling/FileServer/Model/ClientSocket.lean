import FileServer.Lib.RecordLock
import FileServer.Lib.Run
import FileServer.Model.Net

/-!
# Writers of one client socket

The handler of a session and the children it forks for background transfers share the socket
of its client. A message is written by `writeAll` in two parts, each by as many `write` calls
as it takes. `sendProtocolMsgLocked` holds a record lock on the socket meanwhile, which hinders
only processes that ask for the lock.
-/
namespace FileServer

open FileServer.Lib

/-- The ways a message is sent to the client. -/
inductive SocketSend
  /-- `sendProtocolMsg`. -/
  | protocolMsg (type : MsgType) (status : UInt32) (msg : List UInt8) (padding : CharArray 3)
  /-- `sendProtocolMsgBg`, as called by `check_for_notifications`. -/
  | protocolMsgBg (type : MsgType) (status : UInt32) (msg : List UInt8) (isBg : UInt8)
      (padding : CharArray 3)
  /-- `sendProtocolMsgLocked`. -/
  | protocolMsgLocked (type : MsgType) (status : UInt32) (msg : List UInt8) (isBg : UInt8)
      (padding : CharArray 3)
  /-- The header and the data that `handleLs` and `handleRead` pass to `writeAll`. -/
  | twoPart (type : MsgType) (payload : List UInt8) (padding : CharArray 3)
      (short : payload.length < 2 ^ 32)

namespace SocketSend

/-- The message sent. -/
def message : SocketSend → Received
  | protocolMsg type status msg padding => textMessage type status msg 0 padding
  | protocolMsgBg type status msg isBg padding | protocolMsgLocked type status msg isBg padding =>
    textMessage type status msg isBg padding
  | twoPart type payload padding _ => (messageHeader type 0 payload.length 0 padding, payload)

/-- The buffers written, in order. -/
def buffers : SocketSend → List (List UInt8)
  | protocolMsg type status msg padding => sendProtocolMsg type status msg padding
  | protocolMsgBg type status msg isBg padding | protocolMsgLocked type status msg isBg padding =>
    sendProtocolMsgBg type status msg isBg padding
  | twoPart type payload padding _ =>
    writeAll (MsgHeader.layout.encode (messageHeader type 0 payload.length 0 padding)) ++
      writeAll payload

/-- The message is written between `acquire_socket_lock` and `release_socket_lock`. -/
def takesLock : SocketSend → Bool
  | protocolMsgLocked .. => true
  | _ => false

/-- The header announces the payload. -/
theorem announced (send : SocketSend) : send.message.Announced := by
  cases send with
  | twoPart type payload padding short =>
    simp only [message, Received.Announced, messageHeader, UInt32.toNat_ofNat']
    omega
  | _ => exact textMessage_announced _ _ _ _ _

/-- The buffers are the bytes of the message. -/
theorem flatten_buffers (send : SocketSend) : send.buffers.flatten = send.message.bytes := by
  cases send <;>
    simp [buffers, message, sendProtocolMsg, sendProtocolMsgBg, Received.bytes]

/-- No buffer is empty. -/
theorem buffers_filled (send : SocketSend) : [] ∉ send.buffers := by
  cases send <;> simp [buffers, sendProtocolMsg, sendProtocolMsgBg]

/-- A message has a header. -/
theorem bytes_ne_nil (send : SocketSend) : send.message.bytes ≠ [] := by
  intro empty
  have size := MsgHeader.layout.length_encode send.message.1
  rw [(List.append_eq_nil_iff.mp empty).1] at size
  exact absurd size (by decide)

/-- There is something to write. -/
theorem buffers_ne_nil (send : SocketSend) : send.buffers ≠ [] := by
  intro empty
  have whole := send.flatten_buffers
  rw [empty] at whole
  exact send.bytes_ne_nil whole.symm

end SocketSend

/-- Where a process stands in sending. -/
inductive SendPhase
  /-- Not sending. -/
  | idle
  /-- In `acquire_socket_lock`. -/
  | locking (send : SocketSend)
  /-- In `writeAll`, with this left to write. -/
  | writing (send : SocketSend) (unsent : List (List UInt8))
  /-- In `release_socket_lock`. -/
  | unlocking

/-- The socket with its writers. -/
structure ClientSocket (process : Type) where
  /-- Where each process stands. -/
  phase : process → SendPhase
  /-- Record locks on the socket. -/
  locks : LockTable process
  /-- Bytes written, oldest first. -/
  stream : List UInt8
  /-- Messages each process has finished sending, oldest first. -/
  sent : process → List Received

/-- A step of a process that sends messages. -/
inductive WriterStep
  /-- A send function is called. -/
  | start (send : SocketSend)
  /-- The lock is granted. -/
  | lock
  /-- A `write` accepts at most that many bytes beyond the first. -/
  | write (more : Nat)
  /-- The lock is released. -/
  | unlock

namespace ClientSocket

variable {process : Type} [DecidableEq process]

/-- Nobody has written anything. -/
def start : ClientSocket process := ⟨fun _ => .idle, [], [], fun _ => []⟩

/-- The process goes on to another phase. -/
def enter (socket : ClientSocket process) (caller : process) (phase : SendPhase) :
    ClientSocket process :=
  { socket with phase := Function.update socket.phase caller phase }

/-- The socket after a write; the message is finished when nothing is left of it. -/
def afterWrite (socket : ClientSocket process) (caller : process) (send : SocketSend)
    (chunk : List UInt8) (left : List (List UInt8)) : ClientSocket process :=
  let written := { socket with stream := socket.stream ++ chunk }
  if left = [] then
    { written.enter caller (if send.takesLock then .unlocking else .idle) with
      sent := Function.update socket.sent caller (socket.sent caller ++ [send.message]) }
  else written.enter caller (.writing send left)

/-- A step of one process; none where it cannot be taken. Children send only by
`sendProtocolMsgLocked`. -/
def next (handler : process) (socket : ClientSocket process) :
    process × WriterStep → Option (ClientSocket process)
  | (caller, .start send) =>
    match socket.phase caller with
    | .idle =>
      if send.takesLock then some (socket.enter caller (.locking send))
      else if caller = handler then some (socket.enter caller (.writing send send.buffers))
      else none
    | _ => none
  | (caller, .lock) =>
    match socket.phase caller with
    | .locking send =>
      if socket.locks.grantable caller .exclusive then
        some { socket.enter caller (.writing send send.buffers) with
          locks := socket.locks.acquire caller .exclusive }
      else none
    | _ => none
  | (caller, .write more) =>
    match socket.phase caller with
    | .writing send unsent =>
      (writeSome more unsent).map fun (chunk, left) => socket.afterWrite caller send chunk left
    | _ => none
  | (caller, .unlock) =>
    match socket.phase caller with
    | .unlocking =>
      some { socket.enter caller .idle with locks := socket.locks.release caller }
    | _ => none

end ClientSocket

end FileServer
