import FileServer.Model.Net

/-!
# Requests received by the helper

The loop of `handleCommands` in `helper/helper.c`: a header, the argument strings in one block,
the data in another, and the call of the function for the command. As a reader of blocks it
takes a request from the connection however the stream is cut.
-/
namespace FileServer

open FileServer.Lib

/-- The command a word stands for in the `switch` of `handleCommands`; none is the default. -/
def HelperCommand.ofWord (word : UInt32) : Option HelperCommand :=
  match word.toNat with
  | 0 => some createUser
  | 1 => some login
  | 2 => some cd
  | 3 => some ls
  | 4 => some createFile
  | 5 => some chmod
  | 6 => some delete
  | 7 => some move
  | 8 => some read
  | 9 => some write
  | 10 => some download
  | 11 => some upload
  | 12 => some transfer
  | _ => none

/-- The loop that unpacks the arguments: each starts behind the terminator of the one before.
None when it leaves the block. -/
def unpackArgs : Nat → List UInt8 → Option (List (List UInt8))
  | 0, _ => some []
  | count + 1, block =>
    let arg := cString block
    if arg.length < block.length then
      (unpackArgs count (block.drop (arg.length + 1))).map fun later => arg :: later
    else none

/-- What the `switch` of `handleCommands` works with. -/
structure HelperCall where
  /-- `hdr.cmd`. -/
  cmd : UInt32
  /-- `hdr.argc`. -/
  argc : UInt32
  /-- The strings that the front of `args` points to; the other elements are null pointers. None
  when unpacking has left the block. -/
  args : Option (List (List UInt8))
  /-- `hdr.session`. -/
  session : ClientSession
  /-- `hdr.offset`, as the `int` it is passed for. -/
  offset : Int32
  /-- The `hdr.data_len` bytes at `data_buf`. -/
  data : List UInt8
deriving DecidableEq

/-- The elements of `args` that the case of a command uses. -/
def HelperCommand.used (cmd : HelperCommand) (argc : Nat) : List Nat :=
  match cmd with
  | createUser | chmod | move => [0, 1]
  | createFile => if 2 < argc then [0, 1, 2] else [0, 1]
  | transfer => [0, 1, 2, 3]
  | login | cd | ls | delete | read | write | download | upload => [0]

/-- The elements of `args` that the `switch` uses. -/
def HelperCall.used (call : HelperCall) : List Nat :=
  match HelperCommand.ofWord call.cmd with
  | some cmd => cmd.used call.argc.toNat
  | none => []

/-- The call that a request stands for. -/
def HelperRequest.call (request : HelperRequest) : HelperCall where
  cmd := request.cmd.toWord
  argc := UInt32.ofNat request.argv.length
  args := some request.argv
  session := request.session.getD .zero
  offset := request.offset
  data := request.data

/-- Where the loop of `handleCommands` stands. -/
inductive RequestPosition
  /-- In `readAll` of the header. -/
  | header
  /-- In `readAll` of the argument strings. -/
  | payload (header : HelperRequestHeader) (announced : 0 < header.payloadLen.toNat)
  /-- In `readAll` of the data. -/
  | data (header : HelperRequestHeader) (args : Option (List (List UInt8)))
    (announced : 0 < header.dataLen.toNat)
deriving DecidableEq

/-- The loop of `handleCommands`, and what it has passed to its `switch`. -/
structure RequestLoop where
  /-- The `readAll` call in progress. -/
  position : RequestPosition
  /-- The calls so far, oldest first. -/
  delivered : List HelperCall
deriving DecidableEq

namespace RequestLoop

/-- The `switch`, after which the loop reads the next header. -/
def deliver (loop : RequestLoop) (header : HelperRequestHeader)
    (args : Option (List (List UInt8))) (data : List UInt8) : RequestLoop :=
  ⟨.header, loop.delivered ++ [⟨header.cmd, header.argc, args, header.session,
    header.offset.toInt32, data⟩]⟩

/-- The part of the loop after the arguments. -/
def takeData (loop : RequestLoop) (header : HelperRequestHeader)
    (args : Option (List (List UInt8))) : RequestLoop :=
  if announced : 0 < header.dataLen.toNat then
    { loop with position := .data header args announced }
  else loop.deliver header args []

end RequestLoop

/-- The loop of `handleCommands`: a header, the argument strings unless their length is zero,
and the data unless their length is zero. -/
def requestReader : Reader RequestLoop where
  want loop := match loop.position with
    | .header => HelperRequestHeader.layout.size
    | .payload header _ => header.payloadLen.toNat
    | .data header _ _ => header.dataLen.toNat
  want_pos loop := by
    obtain ⟨_ | ⟨header, announced⟩ | ⟨header, args, announced⟩, delivered⟩ := loop
    · exact Nat.zero_lt_succ _
    · exact announced
    · exact announced
  accept loop block := match loop.position with
    | .header =>
      let header := HelperRequestHeader.layout.decode block
      if announced : 0 < header.payloadLen.toNat then
        { loop with position := .payload header announced }
      else loop.takeData header (some [])
    | .payload header _ =>
      loop.takeData header (unpackArgs (min header.argc.toNat maxArgs) block)
    | .data header args _ => loop.deliver header args block

/-- The loop between requests. -/
def betweenRequests (delivered : List HelperCall) : Reading RequestLoop :=
  ⟨⟨.header, delivered⟩, []⟩

end FileServer
