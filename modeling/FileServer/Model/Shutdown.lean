import FileServer.Model.HandlerProcesses

/-!
# The end of the server

`main` behind the loop of `startServer`. `performFullCleanup` holds the semaphore of the registry while
it ends the handler of one row in use after the other; the handlers go on meanwhile as far as they need
no semaphore. No connection is accepted any more. A handler ends by this signal or by returning from
`handleClient`, not by a write to a client that is gone, and no wait for the semaphore is interrupted.
-/
namespace FileServer

/-- The step is one that waits for the semaphore of the registry. -/
def HandlerProcess.locks (process : HandlerProcess) : HandlerStep → Bool
  | .test | .clear | .restart | .other | .request _ _ | .kill => false
  | .scan | .login _ _ | .poll | .create | .accept _ | .reject _ | .answer | .remove => true
  | .hangUp => process.loggedIn

/-- Where `main` stands. -/
inductive MainPhase
  /-- In the loop of `startServer`. -/
  | serving
  /-- In `performFullCleanup`, about to wait for the semaphore. -/
  | stopping
  /-- With the semaphore, about to look at a row. -/
  | sweeping (index : Nat)
  /-- In `waitpid` for the process of the row. -/
  | waiting (index : Nat) (pid : UInt32)
  /-- Behind `sem_post`. -/
  | finished
deriving DecidableEq

/-- `main` holds the semaphore. -/
def MainPhase.holds : MainPhase → Bool
  | sweeping _ | waiting _ _ => true
  | serving | stopping | finished => false

/-- `main` and the handlers. -/
structure ServerProcesses where
  /-- The handlers and the registry. -/
  system : HandlerSystem
  /-- Where `main` stands. -/
  main : MainPhase
  /-- The processes that `SIGTERM` has been sent to, oldest first. -/
  terminated : List UInt32

/-- What happens next. -/
inductive ServerStep
  /-- The handlers and the connections go on. -/
  | handlers (label : SystemLabel)
  /-- The loop of `startServer` is left. -/
  | exit
  /-- `sem_wait` of `performFullCleanup`. -/
  | lock
  /-- A look at a row, with the signal to its process; `sem_post` behind the last one. -/
  | look
  /-- The process waited for ends by the signal. -/
  | terminate
  /-- `waitpid` returns. -/
  | reap

namespace ServerProcesses

/-- No client has connected. -/
def start : ServerProcesses := ⟨.start, .serving, []⟩

/-- The handlers can go on so while `main` stands where it does. -/
def allows (server : ServerProcesses) : SystemLabel → Bool
  | .connect _ => server.main = .serving
  | .deliver _ => true
  | .act pid step => !server.main.holds || (server.system.handlers pid).any (!·.locks step)

/-- A process ends by a signal. -/
def ends (server : ServerProcesses) (pid : UInt32) : ServerProcesses :=
  { server with system :=
      { server.system with handlers := Function.update server.system.handlers pid none } }

/-- One step. -/
def next (server : ServerProcesses) : ServerStep → Option ServerProcesses
  | .handlers label =>
    if server.allows label then (server.system.next label).map ({ server with system := · })
    else none
  | .exit => if server.main = .serving then some { server with main := .stopping } else none
  | .lock => if server.main = .stopping then some { server with main := .sweeping 0 } else none
  | .look =>
    match server.main with
    | .sweeping index =>
      match server.system.registry.onlineUsers[index]? with
      | none => some { server with main := .finished }
      | some entry =>
        if entry.isActive = 0 then some { server with main := .sweeping (index + 1) }
        else some { server with
          main := .waiting index entry.handlerPid
          terminated := server.terminated ++ [entry.handlerPid] }
    | _ => none
  | .terminate =>
    match server.main with
    | .waiting _ pid => (server.system.handlers pid).map fun _ => server.ends pid
    | _ => none
  | .reap =>
    match server.main with
    | .waiting index pid =>
      if server.system.handlers pid = none then some { server with main := .sweeping (index + 1) }
      else none
    | _ => none

end ServerProcesses

end FileServer
