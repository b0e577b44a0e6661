import FileServer.Lib.RowLoop
import FileServer.Lib.Semaphore
import FileServer.Model.Registry

/-!
# The registry behind its semaphore

The critical sections as the handlers execute them: between `sem_wait` and `sem_post` the rows are
looked at one after the other, while other handlers run. `SIGUSR1` is installed without `SA_RESTART`,
and nobody looks at what `sem_wait` returns: a handler that the signal interrupts there goes on as if
the semaphore had been granted.
-/
namespace FileServer

open FileServer.Lib

namespace SharedRegistry

variable {σ : Type}

/-- A look at a user leaves the size of the table. -/
theorem length_visitUser (registry : SharedRegistry)
    (visit : Nat → UserEntry → σ → UserEntry × σ) (index : Nat) (known : σ) :
    (visitRow visit index (registry.onlineUsers, known)).1.length = maxUsers :=
  (length_visitRow ..).trans registry.length_onlineUsers

/-- A look at a transfer leaves the size of the table. -/
theorem length_visitTransfer (registry : SharedRegistry)
    (visit : Nat → TransferRequest → σ → TransferRequest × σ) (index : Nat) (known : σ) :
    (visitRow visit index (registry.pending, known)).1.length = maxTransfers :=
  (length_visitRow ..).trans registry.length_pending

/-- A change of a slot leaves the size of the table. -/
theorem length_modifySlot (registry : SharedRegistry) (index : Nat)
    (change : TransferRequest → TransferRequest) :
    (registry.pending.modify index change).length = maxTransfers :=
  (List.length_modify ..).trans registry.length_pending

/-- A look at one row of the table of users, with the local variables of the caller. -/
def visitUser (visit : Nat → UserEntry → σ → UserEntry × σ) (index : Nat) :
    Access SharedRegistry σ := fun state =>
  let visited := visitRow visit index (state.1.onlineUsers, state.2)
  ({ state.1 with
      onlineUsers := visited.1
      length_onlineUsers := state.1.length_visitUser visit index state.2 }, visited.2)

/-- A look at one slot of the table of transfers, with the local variables of the caller. -/
def visitTransfer (visit : Nat → TransferRequest → σ → TransferRequest × σ) (index : Nat) :
    Access SharedRegistry σ := fun state =>
  let visited := visitRow visit index (state.1.pending, state.2)
  ({ state.1 with
      pending := visited.1
      length_pending := state.1.length_visitTransfer visit index state.2 }, visited.2)

/-- A change of one slot. -/
def modifySlot (registry : SharedRegistry) (index : Nat)
    (change : TransferRequest → TransferRequest) : SharedRegistry :=
  { registry with
    pending := registry.pending.modify index change
    length_pending := registry.length_modifySlot index change }

end SharedRegistry

open SharedRegistry

/-- The loop over the users. -/
def forUsers {σ : Type} (visit : Nat → UserEntry → σ → UserEntry × σ) :
    List (Access SharedRegistry σ) :=
  (List.range maxUsers).map (visitUser visit)

/-- The loop over the transfers. -/
def forTransfers {σ : Type} (visit : Nat → TransferRequest → σ → TransferRequest × σ) :
    List (Access SharedRegistry σ) :=
  (List.range maxTransfers).map (visitTransfer visit)

/-- The local variables `slot_idx`, none for minus one, and `assigned_id` of
`handleTransferRequest`. -/
abbrev SlotLocals : Type := Option Nat × Int32

/-- A pass of the search of `handleTransferRequest` for a free slot. -/
def searchSlot (index : Nat) (slot : TransferRequest) (locals : SlotLocals) :
    TransferRequest × SlotLocals :=
  let (slot, slotIdx) := firstIndex (fun slot : TransferRequest => slot.status = .free) index slot
    locals.1
  (slot, slotIdx, locals.2)

/-- A store of `handleTransferRequest`, if a slot has been found. -/
def storeSlot (store : SharedRegistry → Nat → Int32 → SharedRegistry × Int32) :
    Access SharedRegistry SlotLocals := fun state =>
  match state.2.1 with
  | none => state
  | some slotIdx =>
    let (registry, assignedId) := store state.1 slotIdx state.2.2
    (registry, some slotIdx, assignedId)

/-- A name in the registry has room for its terminator. -/
theorem maxUsernameLen_pos : 0 < maxUsernameLen := by decide

/-- The stores of `handleTransferRequest`: the counter, and the fields of the slot. -/
def slotStores (filename destUser username : List UInt8) : List (Access SharedRegistry SlotLocals) :=
  [storeSlot fun registry _ _ =>
      ({ registry with globalIdCounter := registry.globalIdCounter + 1 },
        (registry.globalIdCounter + 1).toInt32),
    storeSlot fun registry slotIdx assignedId =>
      (registry.modifySlot slotIdx ({ · with id := assignedId.toUInt32 }), assignedId),
    storeSlot fun registry slotIdx assignedId =>
      (registry.modifySlot slotIdx ({ · with status := .pending }), assignedId),
    storeSlot fun registry slotIdx assignedId =>
      (registry.modifySlot slotIdx fun slot =>
        { slot with sender := slot.sender.snprintf username maxUsernameLen_pos }, assignedId),
    storeSlot fun registry slotIdx assignedId =>
      (registry.modifySlot slotIdx fun slot =>
        { slot with receiver := slot.receiver.snprintf destUser maxUsernameLen_pos }, assignedId),
    storeSlot fun registry slotIdx assignedId =>
      (registry.storeFilename slotIdx filename, assignedId)]

namespace CriticalSection

/-- The local variables that a section writes. -/
abbrev Locals : CriticalSection → Type
  | checkForNotifications _ => List Notice
  | cleanupUserRequests _ => Unit
  | insertOnlineUser _ _ => Option UserEntry
  | removeOnlineUser _ => Option UserEntry
  | findUser _ => Option UserEntry
  | createRequest _ _ _ => SlotLocals
  | acceptRequest _ _ => Option TransferRequest
  | rejectRequest _ _ => Option TransferRequest

/-- Their values in front of the section. -/
def begins : (entered : CriticalSection) → entered.Locals
  | checkForNotifications _ => []
  | cleanupUserRequests _ => ()
  | insertOnlineUser _ _ => none
  | removeOnlineUser _ => none
  | findUser _ => none
  | createRequest _ _ _ => (none, -1)
  | acceptRequest _ _ => none
  | rejectRequest _ _ => none

/-- The accesses of a section. -/
def accesses : (entered : CriticalSection) → List (Access SharedRegistry entered.Locals)
  | checkForNotifications username => forTransfers (everyRow (visitSlot username))
  | cleanupUserRequests username => forTransfers (changeRow (cleanupSlot username))
  | insertOnlineUser username pid =>
    forUsers (firstRow (fun entry => entry.isActive = 0) fun _ =>
      ⟨.strncpy maxUsernameLen username, pid, 1⟩)
  | removeOnlineUser pid =>
    forUsers (firstRow (fun entry => entry.handlerPid = pid) fun entry => { entry with isActive := 0 })
  | findUser destUser => forUsers (firstRow (isOnline destUser) id)
  | createRequest filename destUser username =>
    forTransfers searchSlot ++ slotStores filename destUser username
  | acceptRequest reqId username => forTransfers (firstRow (·.acceptable reqId username) (·.accepted))
  | rejectRequest targetId username =>
    forTransfers (firstRow (·.occupied targetId) (·.rejected username))

/-- What the caller knows from its local variables behind the section. -/
def finish : (entered : CriticalSection) → entered.Locals → entered.Result
  | checkForNotifications _, notices => notices
  | cleanupUserRequests _, _ => ()
  | insertOnlineUser _ _, _ => ()
  | removeOnlineUser _, _ => ()
  | findUser _, hit => hit.map UserEntry.handlerPid
  | createRequest _ _ _, locals => locals.2
  | acceptRequest _ _, hit => hit
  | rejectRequest _ username, hit =>
    match hit with
    | none => .notFound
    | some slot =>
      if slot.receiverText = username then .rejected (slot.senderText.take (maxUsernameLen - 1))
      else .notYours

end CriticalSection

/-- The sections of the registry. -/
def registrySections : Sections SharedRegistry CriticalSection.Locals :=
  ⟨CriticalSection.begins, CriticalSection.accesses⟩

/-- The handlers, by process id, in front of the registry. -/
abbrev RegistryGuard : Type := Guard UInt32 SharedRegistry CriticalSection.Locals

end FileServer
