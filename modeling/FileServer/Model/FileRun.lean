import Mathlib.Logic.Function.Basic
import FileServer.Model.Accounts
import FileServer.Model.FileSystem
import FileServer.Model.HandleClient

/-!
# The clients of the server on one disk

All processes that serve a client, with one disk behind them. Every request is served by a new process
of the helper on this disk, one request after the other; what else a handler asks is answered by
surroundings of its own, which also decide whether the request is sent and its response read. A process
forked for a transfer asks for a file in its own time. What `deluser` removes when a creation of a user is
undone is not part of this disk.
-/
namespace FileServer

open FileServer.Lib

/-- The calls of a handler: requests are served on the disk, the others by the surroundings. The process
that calls `fork` goes on as the caller. -/
def serveOnDisk {ω ε : Type} (helper : Helper) (kernel : HostSystem ω) (rest : Surroundings ε) :
    Surroundings (Host ω × ε)
  | (host, world), .sendHelperRequest request =>
    let (connection, after) := rest world (.sendHelperRequest request)
    let (answer, left) := connection.carry
      ((helper.serve request.call).runOn (Host.calls kernel) host.fresh) host
    (answer, left, after)
  | (host, world), .fork =>
    let (answer, after) := rest world .fork
    (match answer with
      | .failed => .failed
      | .parent | .child => .parent, host, after)
  | (host, world), op =>
    let (answer, after) := rest world op
    (answer, host, after)

/-- The processes that serve the clients, and the disk. -/
structure FileRun (ω ε : Type) where
  /-- What the process of each client keeps; none after its end. -/
  clients : Nat → Option HandlerState
  /-- The disk. -/
  host : Host ω
  /-- The other surroundings. -/
  world : ε

/-- What happens next. -/
inductive FileStep
  /-- One client passes through the loop of `handleClient`. -/
  | pass (client : Nat) (input : ClientInput)
  /-- A process forked for a download or an upload has its request served. -/
  | transfer (upload : Bool) (path : List UInt8) (session : ClientSession)

/-- The request of a process forked for a transfer. -/
def transferRequest (upload : Bool) (path : List UInt8) (session : ClientSession) : HelperRequest :=
  .readWrite (if upload then .upload else .download) [path] 0 (some session) []

namespace FileRun

variable {ω ε : Type}

/-- No client has sent anything. -/
def start (host : Host ω) (behind : Nat → UInt8) (world : ε) : FileRun ω ε :=
  ⟨fun _ => some ⟨.zero, none, behind⟩, host, world⟩

/-- A pass of one client through the loop. -/
def passed (helper : Helper) (kernel : HostSystem ω) (rest : Surroundings ε) (pids : Nat → UInt32)
    (run : FileRun ω ε) (client : Nat) (input : ClientInput) (state : HandlerState) :
    Script.Execution HandlerOp HandlerOp.Answer (Option HandlerState) (Host ω × ε) :=
  (clientPass (pids client) state input).runOn (serveOnDisk helper kernel rest) (run.host, run.world)

/-- One step. -/
def next (helper : Helper) (kernel : HostSystem ω) (rest : Surroundings ε) (pids : Nat → UInt32)
    (run : FileRun ω ε) : FileStep → Option (FileRun ω ε)
  | .pass client input => (run.clients client).map fun state =>
    let pass := run.passed helper kernel rest pids client input state
    ⟨Function.update run.clients client pass.value, pass.world.1, pass.world.2⟩
  | .transfer upload path session =>
    let served := (helper.serve (transferRequest upload path session).call).runOn
      (Host.calls kernel) run.host.fresh
    some { run with host := served.world }

end FileRun

end FileServer
