import FileServer.Lib.Scanf
import FileServer.Model.Net
import Mathlib.Data.List.Infix

/-!
# The worker of the client

The messages that `writeThreadFunc` of `client/worker.c` makes of the lines typed by the user, and what
`readThreadFunc` does with the messages of the server.
-/
namespace FileServer

open FileServer.Lib

/-- A line read by `fgets` into `command`, up to its newline. -/
structure CommandLine where
  /-- The characters typed. -/
  text : List UInt8
  /-- A string. -/
  clean : NulFree text
  /-- The newline is cut off. -/
  oneLine : (10 : UInt8) ∉ text
  /-- The line fits the array. -/
  short : text.length < 256

/-- The header of a message of the client; the padding is what the stack held. -/
def clientHeader (type : MsgType) (command : CommandLine) (length : Nat)
    (padding : CharArray 3) : MsgHeader :=
  ⟨type, 0, UInt32.ofNat length, if str " -b" <:+: command.text then 1 else 0, padding⟩

/-- The message for a write command: the line, its terminator and the content. The block for
the payload has as many bytes as the header announces, in 32-bit arithmetic; the client
destroys its heap when the payload does not fit. -/
def writeMessage (command : CommandLine) (content : List UInt8) (padding : CharArray 3) :
    Option Received :=
  let payload := command.text ++ [0] ++ content
  let header := clientHeader .writecmd command payload.length padding
  if header.payloadLength.toNat < payload.length then none else some (header, payload)

/-- `bg_download_args`. -/
structure BgDownloadArgs where
  /-- `port`. -/
  port : Int32
  /-- `dest_path`. -/
  destPath : List UInt8
  /-- `is_bg`. -/
  isBg : Bool
deriving DecidableEq

/-- The format of the `sscanf` calls of `readThreadFunc`. -/
def dataPortFormat : List Directive := directives (str "DATA_PORT %d %s")

/-- The arguments of the thread that `readThreadFunc` starts for a message of the type `DOWNLOAD_RES`
or `UPLOAD_RES`, if it starts one. -/
def transferArgs (isBackground : Bool) (respBuf : List UInt8) : Option BgDownloadArgs :=
  match sscanf dataPortFormat (cString respBuf) with
  | [.int port, .string destPath] => some ⟨port, destPath, isBackground⟩
  | _ => none

/-- A row of a listing, as `readThreadFunc` hands it to `printf`. -/
structure ListRow where
  /-- `entries[i].perms`. -/
  perms : List UInt8
  /-- `entries[i].name`. -/
  name : List UInt8
  /-- `(long)entries[i].size`. -/
  size : Int
deriving DecidableEq

/-- The row of the element of `entries` with the given index; a string without a terminator of its own
goes on in the memory behind it. -/
def listRow (respBuf : List UInt8) (i : Nat) : ListRow :=
  let memory := respBuf.drop (i * FileEntry.layout.size)
  { perms := cString (memory.drop 56)
    name := cString memory
    size := (FileEntry.layout.decode memory).size.toInt64.toInt }

/-- The rows that `readThreadFunc` prints for a message of the type `LSRES`. -/
def listRows (payload : List UInt8) : List ListRow :=
  (List.range (payload.length / FileEntry.layout.size)).map (listRow (payload ++ [0]))

end FileServer
