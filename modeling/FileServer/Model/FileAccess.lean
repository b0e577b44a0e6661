import FileServer.Lib.Layout
import FileServer.Lib.RecordLock
import FileServer.Lib.Run

/-!
# Helper processes on one file

The system calls of `HandleHelperUpload`, `HandleHelperWrite`, `HandlerHelperCreateFile`,
`HandleHelperRead` and `HandleHelperDownload` on one existing regular file that each of them
may open. Every call is one step. A process has its own position in the file; the content and
the record locks are shared. Calls succeed, except that a lock request waits while it conflicts
and that `lseek` refuses a negative position.
-/
namespace FileServer

open FileServer.Lib

/-- The content after a `write` at a position; a gap before it is filled with zeros. -/
def writeAt (content : List UInt8) (position : Nat) (bytes : List UInt8) : List UInt8 :=
  if bytes = [] then content
  else overwrite (content ++ List.replicate (position - content.length) 0) position bytes

/-- A write at the end appends. -/
theorem writeAt_end (content bytes : List UInt8) :
    writeAt content content.length bytes = content ++ bytes := by
  unfold writeAt
  split
  · rename_i none
    rw [none, List.append_nil]
  · rw [Nat.sub_self, List.replicate_zero, List.append_nil]
    have behind := overwrite_after content [] bytes
    rw [List.append_nil] at behind
    rw [behind, List.drop_nil, List.append_nil]

/-- A second write goes on where the first one stopped. -/
theorem writeAt_append (content : List UInt8) (position : Nat) (first second : List UInt8) :
    writeAt (writeAt content position first) (position + first.length) second =
      writeAt content position (first ++ second) := by
  by_cases none : first = []
  · simp [none, writeAt]
  by_cases end_ : second = []
  · simp [end_, writeAt]
  simp only [writeAt, none, end_, List.append_eq_nil_iff, and_self, ↓reduceIte]
  obtain ⟨front, rest, filled, size⟩ : ∃ front rest,
      content ++ List.replicate (position - content.length) 0 = front ++ rest ∧
        front.length = position := by
    refine ⟨_, _, (List.take_append_drop position _).symm, List.length_take_of_le ?_⟩
    rw [List.length_append, List.length_replicate]
    omega
  rw [filled, ← size, overwrite_after, overwrite_after]
  -- the first write leaves no gap for the second one
  have reach : front.length + first.length ≤
      (front ++ (first ++ rest.drop first.length)).length := by
    simp only [List.length_append]
    omega
  rw [Nat.sub_eq_zero_of_le reach, List.replicate_zero, List.append_nil, ← List.append_assoc,
    ← List.length_append, overwrite_after, List.drop_drop]
  simp [List.append_assoc]

/-- A request about the file, with what the helper reads from the server. -/
inductive FileRequest
  /-- UPLOAD; the bytes arrive after the response. -/
  | upload (data : List UInt8)
  /-- WRITE. -/
  | write (offset : Int32) (data : List UInt8)
  /-- CREATE_FILE without the directory option. -/
  | createFile
  /-- READ. -/
  | read (offset : Int32)
  /-- DOWNLOAD. -/
  | download
deriving DecidableEq

/-- What the helper sends back: status and length in the response, and the bytes after it. -/
structure FileAnswer where
  /-- Zero on success. -/
  status : Int32
  /-- `payload_len` of the response. -/
  payloadLen : UInt32
  /-- Bytes sent after the response. -/
  bytes : List UInt8
deriving DecidableEq

/-- Success with nothing to send. -/
def FileAnswer.success : FileAnswer := ⟨0, 0, []⟩

/-- Failure. -/
def FileAnswer.failure : FileAnswer := ⟨-1, 0, []⟩

/-- Where a helper process stands, with the local variables it still needs. -/
inductive FilePhase
  /-- About to open the file. -/
  | ready
  /-- About to lock it. -/
  | opened
  /-- CREATE_FILE: about to close the first descriptor, which gives up the lock. -/
  | closing
  /-- WRITE: about to call `fstat`. -/
  | statWrite (offset : Int32) (data : List UInt8)
  /-- WRITE beyond the end: about to seek the end. -/
  | seekEnd (size : Nat) (offset : Int32) (data : List UInt8)
  /-- WRITE beyond the end: about to write a space. -/
  | padding (position index : Nat) (offset : Int32) (data : List UInt8)
      (short : (index : Int) < offset.toInt)
  /-- WRITE: about to write the data. -/
  | writing (position : Nat) (data : List UInt8)
  /-- READ: about to call `fstat`. -/
  | statRead (offset : Int32)
  /-- READ: about to read. -/
  | reading (position : Nat)
  /-- UPLOAD: about to write what has arrived. -/
  | receiving (position : Nat) (left : List UInt8)
  /-- DOWNLOAD: about to call `fstat`. -/
  | statDownload
  /-- DOWNLOAD: about to read the next part. -/
  | sending (size : UInt32) (position : Nat) (sent : List UInt8)
  /-- About to give up the lock. -/
  | unlocking (answer : FileAnswer)
  /-- Done. -/
  | finished (answer : FileAnswer)
deriving DecidableEq

namespace FileRequest

/-- The file is opened with `O_TRUNC`. -/
def truncates : FileRequest → Bool
  | upload _ | createFile => true
  | _ => false

/-- The lock asked for. -/
def lockMode : FileRequest → LockMode
  | read _ | download => .shared
  | _ => .exclusive

end FileRequest

namespace FilePhase

/-- The upload loop: it ends when no more bytes arrive. -/
def receive (position : Nat) (left : List UInt8) : FilePhase :=
  if left = [] then unlocking .success else receiving position left

/-- The padding loop of WRITE: it ends when the index has reached the offset. -/
def pad (position index : Nat) (offset : Int32) (data : List UInt8) : FilePhase :=
  if short : (index : Int) < offset.toInt then padding position index offset data short
  else writing position data

/-- The phase after the lock is granted. -/
def begin_ : FileRequest → FilePhase
  | .upload data => receive 0 data
  | .write offset data => statWrite offset data
  | .createFile => closing
  | .read offset => statRead offset
  | .download => statDownload

/-- A call made under the lock, which gives the next phase and the content after it; `more`
limits what one `write` of an upload takes. -/
def advance (more : Nat) (content : List UInt8) : FilePhase → Option (FilePhase × List UInt8)
  | statWrite offset data =>
    if offset.toInt > content.length then some (seekEnd content.length offset data, content)
    else if offset.toInt < 0 then some (unlocking .failure, content)
    else some (writing offset.toInt.toNat data, content)
  | seekEnd size offset data => some (pad content.length size offset data, content)
  | padding position index offset data _ =>
    some (pad (position + 1) (index + 1) offset data, writeAt content position [32])
  | writing position data => some (unlocking .success, writeAt content position data)
  | statRead offset =>
    if offset.toInt > content.length then some (unlocking .failure, content)
    else if offset.toInt < 0 then some (unlocking .failure, content)
    else some (reading offset.toInt.toNat, content)
  | reading position =>
    let bytes := (content.drop position).take 4096
    some (unlocking ⟨0, UInt32.ofNat bytes.length, bytes⟩, content)
  | receiving position left =>
    let chunk := left.take (more + 1)
    some (receive (position + chunk.length) (left.drop (more + 1)),
      writeAt content position chunk)
  | statDownload => some (sending (UInt32.ofNat content.length) 0 [], content)
  | sending size position sent =>
    let bytes := (content.drop position).take 16384
    if bytes = [] then some (unlocking ⟨0, size, sent⟩, content)
    else some (sending size (position + bytes.length) (sent ++ bytes), content)
  | ready | opened | closing | unlocking _ | finished _ => none

/-- The process holds a lock. -/
def held : FilePhase → Bool
  | ready | opened | finished _ => false
  | _ => true

end FilePhase

/-- The file and the helper processes. -/
structure FileState (process : Type) where
  /-- Content of the file. -/
  content : List UInt8
  /-- Record locks on the file. -/
  locks : LockTable process
  /-- Where each process stands. -/
  phase : process → FilePhase

namespace FileState

variable {process : Type} [DecidableEq process]

/-- No process has begun. -/
def start (content : List UInt8) : FileState process := ⟨content, [], fun _ => .ready⟩

/-- The process goes on to another phase. -/
def enter (state : FileState process) (caller : process) (phase : FilePhase) :
    FileState process :=
  { state with phase := Function.update state.phase caller phase }

/-- The next system call of a process; none while it waits for the lock, or when it is done. -/
def next (request : process → FileRequest) (state : FileState process) :
    process × Nat → Option (FileState process)
  | (caller, more) =>
    match state.phase caller with
    | .ready =>
      some { state.enter caller .opened with
        content := if (request caller).truncates then [] else state.content }
    | .opened =>
      if state.locks.grantable caller (request caller).lockMode then
        some { state.enter caller (.begin_ (request caller)) with
          locks := state.locks.acquire caller (request caller).lockMode }
      else none
    | .closing =>
      some { state.enter caller (.finished .success) with locks := state.locks.release caller }
    | .unlocking answer =>
      some { state.enter caller (.finished answer) with locks := state.locks.release caller }
    | phase =>
      (phase.advance more state.content).map fun (after, content) =>
        { state.enter caller after with content }

end FileState

end FileServer
