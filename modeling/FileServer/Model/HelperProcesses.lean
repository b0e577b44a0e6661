import FileServer.Lib.Interleaving
import FileServer.Model.HelperHandlers
import FileServer.Model.Permissions

/-!
# Processes of the helper on one disk

Each request is served by a process of its own, which has its identity, its directories and its open
files for itself and shares the disk with the others. A call is one step. A lock that another process
holds makes a call wait; here the schedule decides how long, so that every order of calls that the
locks allow is among those of the model.
-/
namespace FileServer

open FileServer.Lib

/-- The processes and the disk. -/
structure HelperProcesses (process : Type) where
  /-- The entries on the disk. -/
  tree : FileTree
  /-- Their attributes. -/
  attributes : Location → Attributes
  /-- What each process has for itself; the disk in it is as the process has last seen it. -/
  own : process → Machine

namespace HelperProcesses

variable {process : Type} [DecidableEq process]

/-- A process on the disk as it is. -/
def machine (shared : HelperProcesses process) (caller : process) : Machine :=
  let own := shared.own caller
  { own with tree := shared.tree, world := { own.world with attributes := shared.attributes } }

/-- A call of one process. -/
def serve (caller : process) (shared : HelperProcesses process) (op : HelperOp) :
    op.Answer × HelperProcesses process :=
  let (answer, after) := (shared.machine caller).calls op
  (answer, ⟨after.tree, after.world.attributes, Function.update shared.own caller after⟩)

end HelperProcesses

/-- A request to move a file. -/
structure MoveRequest where
  /-- The session. -/
  session : ClientSession
  /-- The file. -/
  path1 : List UInt8
  /-- The directory to which it is moved. -/
  path2 : List UInt8

/-- New processes of the helper that serve one request each. -/
def movers {process : Type} (machine : Machine) (requests : process → MoveRequest) :
    Threads process (HelperProcesses process) HelperOp HelperOp.Answer HelperOutcome where
  shared := ⟨machine.tree, machine.world.attributes, fun _ => machine.fresh⟩
  script caller := handleHelperMove (requests caller).session (requests caller).path1
    (requests caller).path2 (.blank HelperCommand.move.toWord)

end FileServer
