import FileServer.Lib.CopyLoop
import FileServer.Model.Command
import FileServer.Model.FileAccess

/-!
# Transfers over a data connection

An upload or a download call by call: the process that `handleUpload` or `handleDownload` forks,
the process of the helper that serves its request, the sockets between them and to the client,
and the file with its locks. The processes take their steps in any order, every call may move
less than it could, and every call may fail.
-/
namespace FileServer

open FileServer.Lib

/-- The two kinds of transfer. -/
inductive Direction
  /-- From the client to the server. -/
  | upload
  /-- From the server to the client. -/
  | download
deriving DecidableEq

/-- A file with the locks that helper processes hold on it. -/
structure SharedFile where
  /-- Content of the file. -/
  content : List UInt8
  /-- Record locks on the file. -/
  locks : LockTable Direction
deriving DecidableEq

/-- One direction of a socket. -/
structure Stream where
  /-- Bytes written and not yet read. -/
  buffered : List UInt8
  /-- The writer has closed its end. -/
  closed : Bool
deriving DecidableEq

/-- Nothing has been written. -/
def Stream.fresh : Stream := ⟨[], false⟩

/-- The stream after a reader has taken bytes. -/
def Stream.take (stream : Stream) (count : Nat) : Stream :=
  { stream with buffered := stream.buffered.drop count }

/-- The stream after a writer has given bytes. -/
def Stream.give (stream : Stream) (bytes : List UInt8) : Stream :=
  { stream with buffered := stream.buffered ++ bytes }

/-- The stream after its writer has closed it. -/
def Stream.close (stream : Stream) : Stream := { stream with closed := true }

/-- Where the process forked by a handler stands, with the progress of its copying loop. -/
inductive ChildPhase (κ : Type)
  /-- In `accept`. -/
  | accepting
  /-- In `sendHelperRequestRW`, the request sent. -/
  | waiting
  /-- In the copying loop. -/
  | copying (progress : κ)
  /-- About to report success. -/
  | concluding
  /-- About to report a failure. -/
  | refusing
  /-- About to close the connection to the helper. -/
  | closing
  /-- The process has ended. -/
  | ended
deriving DecidableEq

/-- Where the process of the helper stands. -/
inductive HelperPhase
  /-- No request has been sent. -/
  | idle
  /-- About to enter the sandbox and open the file. -/
  | opening
  /-- About to lock it. -/
  | locking
  /-- DOWNLOAD: about to call `fstat`. -/
  | measuring
  /-- About to write a response with status 0. -/
  | responding (payloadLen : UInt32)
  /-- In the copying loop, at a position of the file. -/
  | copying (position : Nat) (loop : CopyLoop)
  /-- About to write a response with status -1. -/
  | refusing
  /-- About to give up the lock, which changes nothing where none is held. -/
  | unlocking
  /-- The command is done. -/
  | finished
deriving DecidableEq

/-- A call of the process forked by a handler. -/
inductive ChildCall
  /-- A data connection is accepted and the request is sent. -/
  | accept
  /-- `accept` fails. -/
  | acceptFails
  /-- The request cannot be sent. -/
  | requestFails
  /-- The response is read. -/
  | receive
  /-- The response cannot be read. -/
  | receiveFails
  /-- A call of the copying loop. -/
  | copy (call : CopyCall)
  /-- The last message to the client. -/
  | report
  /-- The connection to the helper is closed. -/
  | close
deriving DecidableEq

/-- A call of the helper process. -/
inductive HelperAction
  /-- The next call succeeds. -/
  | proceed
  /-- The next call fails. -/
  | fail
  /-- A call of the copying loop. -/
  | copy (call : CopyCall)
deriving DecidableEq

/-- An upload. -/
structure Upload where
  /-- The process of the server. -/
  child : ChildPhase CopyLoop
  /-- The process of the helper. -/
  helper : HelperPhase
  /-- All bytes that the client has sent on the data connection. -/
  sent : List UInt8
  /-- The data connection. -/
  fromClient : Stream
  /-- The connection to the helper, after the request. -/
  toHelper : Stream
  /-- Status of the response of the helper. -/
  response : Option Int32
  /-- Status of the last message to the client. -/
  message : Option Int32
deriving DecidableEq

namespace Upload

/-- The data connection is still to be accepted. -/
def start : Upload := ⟨.accepting, .idle, [], .fresh, .fresh, none, none⟩

/-- The process forked by `handleUpload`. -/
def nextChild (upload : Upload) (call : ChildCall) : Option Upload :=
  match upload.child, call with
  | .accepting, .accept => some { upload with child := .waiting, helper := .opening }
  | .accepting, .acceptFails => some { upload with child := .ended }
  | .accepting, .requestFails => some { upload with child := .refusing }
  | .waiting, .receive => upload.response.map fun (status : Int32) =>
      { upload with child := if status = 0 then .copying .reading else .refusing }
  | .waiting, .receiveFails => some { upload with child := .refusing }
  | .copying loop, .copy call =>
    (loop.next bufferSize upload.fromClient.buffered upload.fromClient.closed call).map fun step =>
      { upload with
        child := if step.loop = .stopped then .concluding else .copying step.loop
        fromClient := upload.fromClient.take step.taken
        toHelper := upload.toHelper.give step.given }
  | .concluding, .report => some { upload with child := .closing, message := some 0 }
  | .refusing, .report => some { upload with child := .closing, message := some (-1) }
  | .closing, .close => some { upload with child := .ended, toHelper := upload.toHelper.close }
  | _, _ => none

/-- `HandleHelperUpload`. -/
def nextHelper (file : SharedFile) (upload : Upload) (action : HelperAction) :
    Option (SharedFile × Upload) :=
  match upload.helper, action with
  | .opening, .proceed => some ({ file with content := [] }, { upload with helper := .locking })
  | .locking, .proceed =>
    if file.locks.grantable .upload .exclusive then
      some ({ file with locks := file.locks.acquire .upload .exclusive },
        { upload with helper := .responding 0 })
    else none
  | .opening, .fail | .locking, .fail => some (file, { upload with helper := .refusing })
  | .responding _, .proceed =>
    some (file, { upload with helper := .copying 0 .reading, response := some 0 })
  | .responding _, .fail => some (file, { upload with helper := .unlocking })
  | .copying position loop, .copy call =>
    (loop.next bufferSize upload.toHelper.buffered upload.toHelper.closed call).map fun step =>
      ({ file with content := writeAt file.content position step.given },
        { upload with
          helper := if step.loop = .stopped then .unlocking
            else .copying (position + step.given.length) step.loop
          toHelper := upload.toHelper.take step.taken })
  | .refusing, .proceed =>
    some (file, { upload with helper := .unlocking, response := some (-1) })
  | .refusing, .fail => some (file, { upload with helper := .unlocking })
  | .unlocking, .proceed | .unlocking, .fail =>
    some ({ file with locks := file.locks.release .upload }, { upload with helper := .finished })
  | _, _ => none

end Upload

/-- A step of an upload. -/
inductive UploadLabel
  /-- The client writes to the data connection. -/
  | send (bytes : List UInt8)
  /-- The client closes the data connection. -/
  | hangUp
  /-- The process of the server makes a call. -/
  | child (call : ChildCall)
  /-- The helper process makes a call. -/
  | helper (action : HelperAction)
deriving DecidableEq

/-- One step of an upload; none when the call waits or is not the next one. -/
def Upload.next (file : SharedFile) (upload : Upload) : UploadLabel → Option (SharedFile × Upload)
  | .send bytes =>
    if upload.fromClient.closed then none
    else some (file, { upload with
      sent := upload.sent ++ bytes, fromClient := upload.fromClient.give bytes })
  | .hangUp =>
    if upload.fromClient.closed then none
    else some (file, { upload with fromClient := upload.fromClient.close })
  | .child call => (upload.nextChild call).map fun after => (file, after)
  | .helper action => upload.nextHelper file action

/-- A download. -/
structure Download where
  /-- The process of the server: the bytes it still has to read, and its loop. -/
  child : ChildPhase (Nat × CopyLoop)
  /-- The process of the helper. -/
  helper : HelperPhase
  /-- The connection from the helper, after the response. -/
  toServer : Stream
  /-- Status and `payload_len` of the response of the helper. -/
  response : Option (Int32 × UInt32)
  /-- All bytes written to the data connection. -/
  delivered : List UInt8
  /-- Status of the last message to the client. -/
  message : Option Int32
deriving DecidableEq

namespace Download

/-- The data connection is still to be accepted. -/
def start : Download := ⟨.accepting, .idle, .fresh, none, [], none⟩

/-- The head of the copying loop of `handleDownload`. -/
def head (left : Nat) : ChildPhase (Nat × CopyLoop) :=
  if left = 0 then .concluding else .copying (left, .reading)

/-- The loop of `handleDownload` after a call; what a block adds to `total_received` is counted
when the block is read. -/
def proceed (left : Nat) : CopyLoop → ChildPhase (Nat × CopyLoop)
  | .reading => head left
  | .writing block => .copying (left, .writing block)
  | .stopped => .concluding

/-- The process forked by `handleDownload`. -/
def nextChild (download : Download) (call : ChildCall) : Option Download :=
  match download.child, call with
  | .accepting, .accept => some { download with child := .waiting, helper := .opening }
  | .accepting, .acceptFails => some { download with child := .ended }
  | .accepting, .requestFails => some { download with child := .refusing }
  | .waiting, .receive => download.response.map fun (status, payloadLen) =>
      { download with child := if status = 0 then head payloadLen.toNat else .refusing }
  | .waiting, .receiveFails => some { download with child := .refusing }
  | .copying (left, loop), .copy call =>
    (loop.next (min left bufferSize) download.toServer.buffered download.toServer.closed call).map
      fun step =>
        { download with
          child := proceed (left - step.taken) step.loop
          toServer := download.toServer.take step.taken
          delivered := download.delivered ++ step.given }
  | .concluding, .report => some { download with child := .closing, message := some 0 }
  | .refusing, .report => some { download with child := .closing, message := some (-1) }
  | .closing, .close => some { download with child := .ended }
  | _, _ => none

/-- `HandleHelperDownload`. The connection stays open for further requests, unless the
privileges of root are not regained. -/
def nextHelper (file : SharedFile) (download : Download) (action : HelperAction) :
    Option (SharedFile × Download) :=
  match download.helper, action with
  | .opening, .proceed => some (file, { download with helper := .locking })
  | .locking, .proceed =>
    if file.locks.grantable .download .shared then
      some ({ file with locks := file.locks.acquire .download .shared },
        { download with helper := .measuring })
    else none
  | .measuring, .proceed => some (file,
      { download with helper := .responding (UInt32.ofNat file.content.length) })
  | .opening, .fail | .locking, .fail | .measuring, .fail =>
    some (file, { download with helper := .refusing })
  | .responding payloadLen, .proceed =>
    some (file, { download with
      helper := .copying 0 .reading, response := some (0, payloadLen) })
  | .responding _, .fail => some (file, { download with helper := .unlocking })
  | .copying position loop, .copy call =>
    (loop.next bufferSize (file.content.drop position) true call).map fun step =>
      (file, { download with
        helper := if step.loop = .stopped then .unlocking
          else .copying (position + step.taken) step.loop
        toServer := download.toServer.give step.given })
  | .refusing, .proceed =>
    some (file, { download with helper := .unlocking, response := some (-1, 0) })
  | .refusing, .fail => some (file, { download with helper := .unlocking })
  | .unlocking, .proceed =>
    some ({ file with locks := file.locks.release .download },
      { download with helper := .finished })
  | .unlocking, .fail =>
    some ({ file with locks := file.locks.release .download },
      { download with helper := .finished, toServer := download.toServer.close })
  | _, _ => none

end Download

/-- A step of a download. -/
inductive DownloadLabel
  /-- The process of the server makes a call. -/
  | child (call : ChildCall)
  /-- The helper process makes a call. -/
  | helper (action : HelperAction)
deriving DecidableEq

/-- One step of a download; none when the call waits or is not the next one. -/
def Download.next (file : SharedFile) (download : Download) :
    DownloadLabel → Option (SharedFile × Download)
  | .child call => (download.nextChild call).map fun after => (file, after)
  | .helper action => download.nextHelper file action

/-- A file, its upload and a later download of it. -/
structure RoundTrip where
  /-- The file. -/
  file : SharedFile
  /-- The upload. -/
  upload : Upload
  /-- The download. -/
  download : Download
deriving DecidableEq

/-- A step of either transfer. -/
inductive RoundTripLabel
  /-- A step of the upload. -/
  | upload (label : UploadLabel)
  /-- A step of the download. -/
  | download (label : DownloadLabel)
deriving DecidableEq

namespace RoundTrip

/-- Neither transfer has begun. -/
def start (content : List UInt8) : RoundTrip := ⟨⟨content, []⟩, .start, .start⟩

/-- One step. The client asks for the download after the message that the upload is
concluded. -/
def next (state : RoundTrip) : RoundTripLabel → Option RoundTrip
  | .upload label => (state.upload.next state.file label).map fun (file, upload) =>
      { state with file, upload }
  | .download label =>
    if state.upload.message = some 0 then
      (state.download.next state.file label).map fun (file, download) =>
        { state with file, download }
    else none

end RoundTrip

end FileServer
