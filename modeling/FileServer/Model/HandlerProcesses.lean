import Mathlib.Logic.Function.Basic
import FileServer.Model.Handlers

/-!
# Handler processes over the shared registry

All processes of the server that run `handleClient`, as far as they use the registry and the
signal `SIGUSR1`. Every process takes one step at a time, the steps of the processes come in any
order, a critical section is one step, and a signal that has been sent is delivered at any later
moment. What a handler does between these steps leaves the registry alone.
-/
namespace FileServer

/-- Where a process stands in `handleClient`. -/
inductive HandlerPhase
  /-- About to test `transfer_signal_received`. -/
  | testing
  /-- In `check_for_notifications`, about to scan the slots. -/
  | checking
  /-- Behind the scan, about to clear `transfer_signal_received`. -/
  | clearing
  /-- In `readAll`. -/
  | reading
  /-- In `handleTransferRequest`, looking for the other user. -/
  | polling (filename destUser : List UInt8)
  /-- In `handleTransferRequest`, about to take a slot. -/
  | creating (filename destUser : List UInt8) (targetPid : UInt32)
  /-- In `handleTransferRequest`, about to signal that a slot is taken. -/
  | signalling (slotIdx : Nat) (targetPid : UInt32)
  /-- In `handleRejectTransfer`, about to look for the sender. -/
  | answering (senderName : List UInt8)
  /-- On the way out, about to give up its row. -/
  | leaving
deriving DecidableEq

/-- A process that runs `handleClient`. -/
structure HandlerProcess where
  /-- Where the process stands. -/
  phase : HandlerPhase
  /-- Its session. -/
  session : ClientSession
  /-- `transfer_signal_received`. -/
  transferSignalReceived : Bool
  /-- A signal has been sent to the process and is not yet delivered. -/
  signalInFlight : Bool
  /-- The row that the login filled, if it found one; no variable of the program holds it. -/
  row : Option Nat

/-- A step of `handleClient`. -/
inductive HandlerStep
  /-- The flag is tested. -/
  | test
  /-- The section of `check_for_notifications`. -/
  | scan
  /-- The flag is cleared. -/
  | clear
  /-- `readAll` is interrupted by a signal. -/
  | restart
  /-- A command that leaves the registry and the login alone. -/
  | other
  /-- `login`, accepted by the helper. -/
  | login (username : List UInt8) (res : HelperResponse)
  /-- `transfer_request`. -/
  | request (filename destUser : List UInt8)
  /-- A search for the other user. -/
  | poll
  /-- The section that takes a slot. -/
  | create
  /-- The signal to the other user. -/
  | kill
  /-- `accept`. -/
  | accept (reqId : UInt32)
  /-- `reject`, up to the end of its first section. -/
  | reject (targetId : UInt32)
  /-- The second section of `reject`. -/
  | answer
  /-- The loop is left, up to the end of `cleanup_user_requests`. -/
  | hangUp
  /-- The row is given up and the process ends. -/
  | remove
deriving DecidableEq

/-- What a step brings about. -/
structure HandlerEffect where
  /-- The registry afterwards. -/
  registry : SharedRegistry
  /-- The process afterwards; none when it has ended. -/
  process : Option HandlerProcess
  /-- The process that `SIGUSR1` is sent to. -/
  signals : Option UInt32

namespace HandlerProcess

/-- A process that has been forked. -/
def start : HandlerProcess := ⟨.testing, .zero, false, false, none⟩

/-- The session has logged in. -/
def loggedIn (process : HandlerProcess) : Bool := process.session.state = .loggedIn

/-- The user name of the session. -/
def user (process : HandlerProcess) : List UInt8 := process.session.usernameText

/-- The process goes on in another phase. -/
def go (process : HandlerProcess) (registry : SharedRegistry) (phase : HandlerPhase) :
    Option HandlerEffect :=
  some ⟨registry, some { process with phase }, none⟩

/-- The same for a command that needs a login. -/
def goLoggedIn (process : HandlerProcess) (registry : SharedRegistry) (phase : HandlerPhase) :
    Option HandlerEffect :=
  if process.loggedIn then process.go registry phase else none

/-- One step of a process; none when it is not the next one. -/
def next (process : HandlerProcess) (pid : UInt32) (registry : SharedRegistry)
    (step : HandlerStep) : Option HandlerEffect :=
  match process.phase, step with
  | .testing, .test =>
    process.go registry <|
      if process.transferSignalReceived then
        if process.loggedIn then .checking else .clearing
      else .reading
  | .checking, .scan =>
    process.go (registry.checkForNotifications process.user).2 .clearing
  | .clearing, .clear =>
    some ⟨registry, some { process with phase := .reading, transferSignalReceived := false }, none⟩
  | .reading, .restart =>
    if process.transferSignalReceived then process.go registry .testing else none
  | .reading, .other => process.go registry .testing
  | .reading, .login username res =>
    if process.loggedIn ∨ isUsernameValid (some username) = false then none
    else some ⟨registry.insertOnlineUser username pid,
      some { process with
        phase := .testing
        session := process.session.login res username
        row := registry.onlineUsers.findIdx? fun entry => entry.isActive = 0 }, none⟩
  | .reading, .request filename destUser =>
    process.goLoggedIn registry (.polling filename destUser)
  | .polling filename destUser, .poll =>
    process.go registry <|
      match registry.findUser destUser with
      | none => .polling filename destUser
      | some targetPid => .creating filename destUser targetPid
  | .creating filename destUser targetPid, .create =>
    let slotIdx := registry.pending.findIdx (·.status = .free)
    let (assignedId, after) := registry.createRequest filename destUser process.user
    process.go after (if assignedId = -1 then .testing else .signalling slotIdx targetPid)
  | .signalling _ targetPid, .kill =>
    some ⟨registry, some { process with phase := .testing }, some targetPid⟩
  | .reading, .accept reqId =>
    process.goLoggedIn (registry.acceptRequest reqId process.user).2 .testing
  | .reading, .reject targetId =>
    process.goLoggedIn (registry.rejectRequest targetId process.user).2 <|
      match (registry.rejectRequest targetId process.user).1 with
      | .rejected senderName => .answering senderName
      | .notYours | .notFound => .testing
  | .answering senderName, .answer =>
    some ⟨registry, some { process with phase := .testing }, registry.findUser senderName⟩
  | .reading, .hangUp =>
    if process.loggedIn then process.go (registry.cleanupUserRequests process.user) .leaving
    else some ⟨registry, none, none⟩
  | .leaving, .remove => some ⟨registry.removeOnlineUser pid, none, none⟩
  | _, _ => none

end HandlerProcess

/-- The registry and the processes that are alive, by process id. -/
structure HandlerSystem where
  /-- The registry that the processes share. -/
  registry : SharedRegistry
  /-- The process with an id, if one is alive. -/
  handlers : UInt32 → Option HandlerProcess

/-- What happens next. -/
inductive SystemLabel
  /-- A process is forked for a new connection. -/
  | connect (pid : UInt32)
  /-- A signal is delivered. -/
  | deliver (pid : UInt32)
  /-- A process makes a step. -/
  | act (pid : UInt32) (step : HandlerStep)
deriving DecidableEq

namespace HandlerSystem

/-- No client has connected. -/
def start : HandlerSystem := ⟨initSharedRegistry, fun _ => none⟩

/-- `kill` with `SIGUSR1`; it has no effect on a process that has ended. -/
def kill (handlers : UInt32 → Option HandlerProcess) (pid : UInt32) :
    UInt32 → Option HandlerProcess :=
  Function.update handlers pid
    ((handlers pid).map fun process => { process with signalInFlight := true })

/-- The system after the effect of a step. -/
def after (state : HandlerSystem) (pid : UInt32) (effect : HandlerEffect) : HandlerSystem where
  registry := effect.registry
  handlers :=
    let handlers := Function.update state.handlers pid effect.process
    match effect.signals with
    | none => handlers
    | some targetPid => kill handlers targetPid

/-- One step of the system. The id of a process is that of no other process alive, but may be that
of one that has ended. -/
def next (state : HandlerSystem) : SystemLabel → Option HandlerSystem
  | .connect pid =>
    if pid = 0 ∨ (state.handlers pid).isSome then none
    else some { state with handlers := Function.update state.handlers pid (some .start) }
  | .deliver pid => (state.handlers pid).bind fun process =>
    if process.signalInFlight then
      some { state with
        handlers := Function.update state.handlers pid (some { process with
          transferSignalReceived := true
          signalInFlight := false }) }
    else none
  | .act pid step => (state.handlers pid).bind fun process =>
    (process.next pid state.registry step).map (state.after pid)

end HandlerSystem

end FileServer
