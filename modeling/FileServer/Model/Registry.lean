import FileServer.Lib.CString
import FileServer.Lib.Table
import FileServer.Model.Net

/-!
# Critical sections of the shared registry

Everything the handlers of `handler/handlers.c` do between `sem_wait` and `sem_post` on the
registry. A section reads and writes the registry in one step and leaves a result in local
variables of its caller. Names are compared as `strcmp` does, on the strings read from the
character arrays.
-/
namespace FileServer

open FileServer.Lib

namespace SharedRegistry

/-- The first row of the table of users that meets the test, and the table with that row
updated. -/
def updateUser (registry : SharedRegistry) (test : UserEntry → Bool)
    (update : UserEntry → UserEntry) : Option UserEntry × SharedRegistry :=
  ((updateFirst test update registry.onlineUsers).1,
    { registry with
      onlineUsers := (updateFirst test update registry.onlineUsers).2
      length_onlineUsers := by rw [length_updateFirst, registry.length_onlineUsers] })

/-- The row is in use for the named user. -/
def isOnline (name : List UInt8) (entry : UserEntry) : Bool :=
  entry.isActive ≠ 0 ∧ entry.usernameText = name

/-- The search for an active row with the name, in `handleTransferRequest` and
`handleRejectTransfer`: the process in it. -/
def findUser (registry : SharedRegistry) (name : List UInt8) : Option UInt32 :=
  (registry.onlineUsers.find? (isOnline name)).map UserEntry.handlerPid

/-- The insertion made by `handleLogin`: the first row not in use is filled. -/
def insertOnlineUser (registry : SharedRegistry) (username : List UInt8) (pid : UInt32) :
    SharedRegistry :=
  (registry.updateUser (fun entry => entry.isActive = 0) fun _ =>
    ⟨.strncpy maxUsernameLen username, pid, 1⟩).2

/-- The removal made by `handleClient` on its way out: the first row with the process is put
out of use. -/
def removeOnlineUser (registry : SharedRegistry) (pid : UInt32) : SharedRegistry :=
  (registry.updateUser (fun entry => entry.handlerPid = pid) fun entry =>
    { entry with isActive := 0 }).2

end SharedRegistry

namespace TransferRequest

/-- The slot holds a request with the number, notified to the named user. -/
def acceptable (reqId : UInt32) (username : List UInt8) (slot : TransferRequest) : Bool :=
  slot.id = reqId ∧ slot.status = .notified ∧ slot.receiverText = username

/-- The slot is in use with the number. -/
def occupied (targetId : UInt32) (slot : TransferRequest) : Bool :=
  slot.id = targetId ∧ slot.status ≠ .free

/-- A slot given free when its request is accepted. -/
def accepted (slot : TransferRequest) : TransferRequest := { slot with status := .free, id := 0 }

/-- A slot found by `handleRejectTransfer`: the request is rejected if it was offered to the
caller, and kept otherwise. -/
def rejected (username : List UInt8) (slot : TransferRequest) : TransferRequest :=
  if slot.receiverText = username then { slot with status := .rejected, id := 0 } else slot

/-- A slot given free when its receiver leaves: 32 bytes are cleared from `sender` on, the last
12 of them in `receiver`. -/
def cleaned (slot : TransferRequest) : TransferRequest :=
  layout.decode (overwrite (layout.encode { slot with status := .free, id := 0 }) 4
    (List.replicate 32 0))

/-- A free slot taken for a request, except for the file name. -/
def requested (id : UInt32) (username destUser : List UInt8) (slot : TransferRequest) :
    TransferRequest :=
  { slot with
    id
    status := .pending
    sender := slot.sender.snprintf username (by decide)
    receiver := slot.receiver.snprintf destUser (by decide) }

end TransferRequest

/-- An entry of the lists `to_notify` and `is_rejection`. -/
structure Notice where
  /-- The slot as it was found. -/
  request : TransferRequest
  /-- Whether a rejection is reported rather than a new request. -/
  isRejection : Bool
deriving DecidableEq

/-- What the loop of `check_for_notifications` does with a slot. -/
def visitSlot (username : List UInt8) (slot : TransferRequest) : TransferRequest × List Notice :=
  if slot.status = .pending ∧ slot.receiverText = username then
    ({ slot with status := .notified }, [⟨slot, false⟩])
  else if slot.status = .rejected ∧ slot.senderText = username then (.zero, [⟨slot, true⟩])
  else (slot, [])

/-- What `cleanup_user_requests` does with a slot. -/
def cleanupSlot (username : List UInt8) (slot : TransferRequest) : TransferRequest :=
  if slot.status ≠ .free ∧ slot.receiverText = username then slot.cleaned else slot

/-- `FILENAME_MAX` of the C library. -/
abbrev filenameMax : Nat := 4096

/-- Position of `filename` in a slot. -/
abbrev filenameOffset : Nat := 44

/-- What `handleRejectTransfer` finds out. -/
inductive Rejection
  /-- The request is rejected; the name of its sender was copied. -/
  | rejected (senderName : List UInt8)
  /-- The request is not for the caller. -/
  | notYours
  /-- No slot in use has the number. -/
  | notFound

namespace SharedRegistry

/-- The first slot that meets the test, and the table with that slot updated. -/
def updateSlot (registry : SharedRegistry) (test : TransferRequest → Bool)
    (update : TransferRequest → TransferRequest) : Option TransferRequest × SharedRegistry :=
  ((updateFirst test update registry.pending).1,
    { registry with
      pending := (updateFirst test update registry.pending).2
      length_pending := by rw [length_updateFirst, registry.length_pending] })

/-- The snapshot taken by `check_for_notifications`. -/
def checkForNotifications (registry : SharedRegistry) (username : List UInt8) :
    List Notice × SharedRegistry :=
  (registry.pending.flatMap fun slot => (visitSlot username slot).2,
    { registry with
      pending := registry.pending.map fun slot => (visitSlot username slot).1
      length_pending := by rw [List.length_map, registry.length_pending] })

/-- `cleanup_user_requests`. -/
def cleanupUserRequests (registry : SharedRegistry) (username : List UInt8) : SharedRegistry :=
  { registry with
    pending := registry.pending.map (cleanupSlot username)
    length_pending := by rw [List.length_map, registry.length_pending] }

/-- The slots and the counter behind them, as they lie in memory. -/
def transferMemory (registry : SharedRegistry) : List UInt8 :=
  TransferRequest.layout.encodeList registry.pending ++
    Layout.word32.encode registry.globalIdCounter

/-- The registry whose slots and counter have been stored to through memory. -/
def withTransferMemory (registry : SharedRegistry) (memory : List UInt8) : SharedRegistry where
  onlineUsers := registry.onlineUsers
  pending := TransferRequest.layout.decodeList maxTransfers memory
  globalIdCounter :=
    Layout.word32.decode (memory.drop (maxTransfers * TransferRequest.layout.size))
  length_onlineUsers := registry.length_onlineUsers
  length_pending := TransferRequest.layout.length_decodeList _ _

/-- The copy of the file name into a slot. Its bound is `FILENAME_MAX` and not the size of the
field, so what does not fit goes on over the memory behind it; what lies behind the counter is
not part of the model. -/
def storeFilename (registry : SharedRegistry) (index : Nat) (filename : List UInt8) :
    SharedRegistry :=
  registry.withTransferMemory (overwrite registry.transferMemory
    (index * TransferRequest.layout.size + filenameOffset)
    (filename.take (filenameMax - 1) ++ [0]))

/-- The section of `handleTransferRequest` that takes the first free slot: the number assigned,
or minus one when there is none. -/
def createRequest (registry : SharedRegistry) (filename destUser username : List UInt8) :
    Int32 × SharedRegistry :=
  let index := registry.pending.findIdx (·.status = .free)
  let id := registry.globalIdCounter + 1
  match registry.updateSlot (·.status = .free) (·.requested id username destUser) with
  | (none, _) => (-1, registry)
  | (some _, taken) =>
    (id.toInt32, { taken with globalIdCounter := id }.storeFilename index filename)

/-- The section of `handleAcceptTransfer`: the request found, whose slot is free again. -/
def acceptRequest (registry : SharedRegistry) (reqId : UInt32) (username : List UInt8) :
    Option TransferRequest × SharedRegistry :=
  registry.updateSlot (·.acceptable reqId username) (·.accepted)

/-- The first section of `handleRejectTransfer`. -/
def rejectRequest (registry : SharedRegistry) (targetId : UInt32) (username : List UInt8) :
    Rejection × SharedRegistry :=
  let (found, after) := registry.updateSlot (·.occupied targetId) (·.rejected username)
  match found with
  | none => (.notFound, after)
  | some slot =>
    if slot.receiverText = username then
      (.rejected (slot.senderText.take (maxUsernameLen - 1)), after)
    else (.notYours, after)

end SharedRegistry

/-- A critical section with the values its caller supplies. -/
inductive CriticalSection
  | checkForNotifications (username : List UInt8)
  | cleanupUserRequests (username : List UInt8)
  | insertOnlineUser (username : List UInt8) (pid : UInt32)
  | removeOnlineUser (pid : UInt32)
  | findUser (destUser : List UInt8)
  | createRequest (filename destUser username : List UInt8)
  | acceptRequest (reqId : UInt32) (username : List UInt8)
  | rejectRequest (targetId : UInt32) (username : List UInt8)
deriving DecidableEq

namespace CriticalSection

/-- What a section leaves in the local variables of its caller. -/
abbrev Result : CriticalSection → Type
  | checkForNotifications _ => List Notice
  | cleanupUserRequests _ => Unit
  | insertOnlineUser _ _ => Unit
  | removeOnlineUser _ => Unit
  | findUser _ => Option UInt32
  | createRequest _ _ _ => Int32
  | acceptRequest _ _ => Option TransferRequest
  | rejectRequest _ _ => Rejection

/-- The result of a section and the registry after it. -/
def apply : (entered : CriticalSection) → SharedRegistry → entered.Result × SharedRegistry
  | checkForNotifications username, registry => registry.checkForNotifications username
  | cleanupUserRequests username, registry => ((), registry.cleanupUserRequests username)
  | insertOnlineUser username pid, registry => ((), registry.insertOnlineUser username pid)
  | removeOnlineUser pid, registry => ((), registry.removeOnlineUser pid)
  | findUser destUser, registry => (registry.findUser destUser, registry)
  | createRequest filename destUser username, registry =>
    registry.createRequest filename destUser username
  | acceptRequest reqId username, registry => registry.acceptRequest reqId username
  | rejectRequest targetId username, registry => registry.rejectRequest targetId username

/-- The section can change a slot of the table of transfers. -/
def changesTransfers : CriticalSection → Bool
  | insertOnlineUser _ _ | removeOnlineUser _ | findUser _ => false
  | _ => true

/-- The other sections leave the table of transfers and the counter as they are. -/
theorem apply_pending {entered : CriticalSection} (harmless : entered.changesTransfers = false)
    (registry : SharedRegistry) :
    (entered.apply registry).2.pending = registry.pending ∧
      (entered.apply registry).2.globalIdCounter = registry.globalIdCounter := by
  cases entered with
  | insertOnlineUser username pid => exact ⟨rfl, rfl⟩
  | removeOnlineUser pid => exact ⟨rfl, rfl⟩
  | findUser destUser => exact ⟨rfl, rfl⟩
  | _ => simp [changesTransfers] at harmless

end CriticalSection

end FileServer
