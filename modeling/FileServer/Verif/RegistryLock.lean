import FileServer.Model.RegistryLock
import FileServer.Verif.Registry

/-!
# Critical sections as single steps

Executed alone, the accesses of every section have the effect of its single step. So the handlers leave
the registry as if their sections were single steps, as long as no signal interrupts a `sem_wait`; after
`n` interruptions, `n + 1` handlers can be in their sections together for the rest of the run.
-/
namespace FileServer

open FileServer.Lib

section

variable {σ : Type} (registry : SharedRegistry)

/-- The loop over the users, executed alone. -/
theorem accessAll_forUsers (visit : Nat → UserEntry → σ → UserEntry × σ) (known : σ)
    {users : List UserEntry} {after : σ}
    (visited : visitRows visit 0 registry.onlineUsers known = (users, after))
    (length : users.length = maxUsers) :
    accessAll (forUsers visit) (registry, known) =
      ({ registry with onlineUsers := users, length_onlineUsers := length }, after) := by
  have rows := foldl_visitRow visit registry.onlineUsers known
  rw [visited, registry.length_onlineUsers] at rows
  obtain ⟨users_, others⟩ := foldl_part (SharedRegistry.visitUser visit)
    (visitRow visit) SharedRegistry.onlineUsers (fun registry => (registry.pending, registry.globalIdCounter))
    (fun _ _ => rfl) (fun _ _ => rfl) (List.range maxUsers) (registry, known)
  rw [rows] at users_
  unfold accessAll forUsers
  generalize (List.foldl _ _ _ : SharedRegistry × σ) = left at users_ others ⊢
  obtain ⟨⟨onlineUsers, slots, id, _, _⟩, locals⟩ := left
  cases users_
  cases others
  rfl

/-- The loop over the transfers, executed alone. -/
theorem accessAll_forTransfers (visit : Nat → TransferRequest → σ → TransferRequest × σ) (known : σ)
    {slots : List TransferRequest} {after : σ}
    (visited : visitRows visit 0 registry.pending known = (slots, after))
    (length : slots.length = maxTransfers) :
    accessAll (forTransfers visit) (registry, known) =
      ({ registry with pending := slots, length_pending := length }, after) := by
  have rows := foldl_visitRow visit registry.pending known
  rw [visited, registry.length_pending] at rows
  obtain ⟨slots_, others⟩ := foldl_part (SharedRegistry.visitTransfer visit)
    (visitRow visit) SharedRegistry.pending (fun registry => (registry.onlineUsers, registry.globalIdCounter))
    (fun _ _ => rfl) (fun _ _ => rfl) (List.range maxTransfers) (registry, known)
  rw [rows] at slots_
  unfold accessAll forTransfers
  generalize (List.foldl _ _ _ : SharedRegistry × σ) = left at slots_ others ⊢
  obtain ⟨⟨onlineUsers, pending, id, _, _⟩, locals⟩ := left
  cases slots_
  cases others
  rfl

/-- A search among the users, executed alone. -/
theorem accessAll_firstUser (test : UserEntry → Bool) (update : UserEntry → UserEntry) :
    accessAll (forUsers (firstRow test update)) (registry, none) =
      ((registry.updateUser test update).2, (registry.updateUser test update).1) :=
  accessAll_forUsers registry _ none (visitRows_firstRow test update 0 registry.onlineUsers) _

/-- A search among the transfers, executed alone. -/
theorem accessAll_firstSlot (test : TransferRequest → Bool)
    (update : TransferRequest → TransferRequest) :
    accessAll (forTransfers (firstRow test update)) (registry, none) =
      ((registry.updateSlot test update).2, (registry.updateSlot test update).1) :=
  accessAll_forTransfers registry _ none (visitRows_firstRow test update 0 registry.pending) _

/-- The search for a free slot, executed alone. -/
theorem accessAll_searchSlot (assignedId : Int32) :
    accessAll (forTransfers searchSlot) (registry, none, assignedId) =
      (registry, registry.pending.findIdx? (fun slot => slot.status = .free), assignedId) := by
  have beside : ∀ (slots : List TransferRequest) (index : Nat) (hit : Option Nat),
      visitRows searchSlot index slots (hit, assignedId) =
        let found := visitRows (firstIndex fun slot : TransferRequest => slot.status = .free) index
          slots hit
        (found.1, found.2, assignedId) := by
    intro slots
    induction slots with
    | nil => exact fun index hit => rfl
    | cons slot slots ih =>
      intro index hit
      simp only [visitRows, searchSlot, ih]
  have visited := beside registry.pending 0 none
  rw [visitRows_firstIndex] at visited
  simp only [Nat.zero_add, Option.map_id'] at visited
  exact accessAll_forTransfers registry searchSlot _ visited registry.length_pending

end

/-- The section that takes a slot, executed alone. -/
theorem accessAll_createRequest (filename destUser username : List UInt8)
    (registry : SharedRegistry) :
    ∃ slotIdx, accessAll (forTransfers searchSlot ++ slotStores filename destUser username)
        (registry, none, -1) =
      ((registry.createRequest filename destUser username).2, slotIdx,
        (registry.createRequest filename destUser username).1) := by
  have split : accessAll (forTransfers searchSlot ++ slotStores filename destUser username)
      (registry, none, -1) = accessAll (slotStores filename destUser username)
        (accessAll (forTransfers searchSlot) (registry, none, -1)) := List.foldl_append
  rw [split, accessAll_searchSlot]
  unfold SharedRegistry.createRequest SharedRegistry.updateSlot
  obtain ⟨full, same⟩ | ⟨before, slot, after, pending, skipped, free, index, same⟩ :=
    updateFirst_cases (fun slot : TransferRequest => decide (slot.status = .free))
      (fun slot => slot.requested (registry.globalIdCounter + 1) username destUser) registry.pending
  · rw [List.findIdx?_eq_none_iff.mpr full]
    simp only [same]
    exact ⟨none, rfl⟩
  · have found : registry.pending.findIdx? (fun slot => decide (slot.status = .free)) =
        some before.length := by
      rw [List.findIdx?_eq_some_iff_findIdx_eq, index, pending]
      simp
    rw [found]
    simp only [same, index]
    refine ⟨some before.length, ?_⟩
    unfold slotStores accessAll
    simp only [List.foldl_cons, List.foldl_nil, storeSlot, SharedRegistry.modifySlot]
    simp only [pending, modify_behind, UInt32.toUInt32_toInt32]
    rfl

/-- Executed alone, every section has the effect of its single step. -/
theorem CriticalSection.apply_eq_alone (entered : CriticalSection) (registry : SharedRegistry) :
    entered.apply registry = (entered.finish (registrySections.alone entered registry).2,
      (registrySections.alone entered registry).1) := by
  cases entered with
  | checkForNotifications username =>
    have alone := accessAll_forTransfers registry _ [] (visitRows_everyRow (visitSlot username) 0
      registry.pending []) ((List.length_map ..).trans registry.length_pending)
    have same : registrySections.alone (.checkForNotifications username) registry = _ := alone
    rw [same, List.nil_append]
    rfl
  | cleanupUserRequests username =>
    have alone := accessAll_forTransfers registry _ () (visitRows_changeRow (cleanupSlot username) 0
      registry.pending ()) ((List.length_map ..).trans registry.length_pending)
    have same : registrySections.alone (.cleanupUserRequests username) registry = _ := alone
    rw [same]
    rfl
  | insertOnlineUser username pid =>
    have same : registrySections.alone (.insertOnlineUser username pid) registry = _ :=
      accessAll_firstUser registry _ _
    rw [same]
    rfl
  | removeOnlineUser pid =>
    have same : registrySections.alone (.removeOnlineUser pid) registry = _ :=
      accessAll_firstUser registry _ _
    rw [same]
    rfl
  | findUser destUser =>
    have same : registrySections.alone (.findUser destUser) registry = _ :=
      accessAll_firstUser registry (SharedRegistry.isOnline destUser) id
    rw [same]
    unfold SharedRegistry.updateUser
    simp only [updateFirst_id]
    rfl
  | createRequest filename destUser username =>
    obtain ⟨slotIdx, alone⟩ := accessAll_createRequest filename destUser username registry
    have same : registrySections.alone (.createRequest filename destUser username) registry = _ :=
      alone
    rw [same]
    rfl
  | acceptRequest reqId username =>
    have same : registrySections.alone (.acceptRequest reqId username) registry = _ :=
      accessAll_firstSlot registry _ _
    rw [same]
    rfl
  | rejectRequest targetId username =>
    have same : registrySections.alone (.rejectRequest targetId username) registry = _ :=
      accessAll_firstSlot registry _ _
    rw [same]
    show registry.rejectRequest targetId username = _
    unfold SharedRegistry.rejectRequest
    generalize registry.updateSlot (·.occupied targetId) (·.rejected username) = updated
    obtain ⟨found, after⟩ := updated
    cases found with
    | none => rfl
    | some slot =>
      show (if slot.receiverText = username then _ else _) = ((if _ then _ else _ : Rejection), after)
      split
      · rfl
      · rfl

/-- A section as a single step, with what its caller knows behind it. -/
def CriticalSection.step (entered : CriticalSection) (registry : SharedRegistry) :
    (Σ entered : CriticalSection, entered.Result) × SharedRegistry :=
  (⟨entered, (entered.apply registry).1⟩, (entered.apply registry).2)

/-- What the caller of a section that has ended knows. -/
def CriticalSection.known (done : Σ entered : CriticalSection, entered.Locals) :
    Σ entered : CriticalSection, entered.Result :=
  ⟨done.1, done.1.finish done.2⟩

/-- The file name of a request fits its field. A longer one reaches the slots behind it, and from the
last slots the semaphore itself, which lies behind them. -/
def CriticalSection.FitsSlot : CriticalSection → Prop
  | createRequest filename _ _ => filename.length < filenameSize
  | _ => True

/-- In every run in which the file names of all requests fit their fields, no store reaches beyond the
slot that its section has taken. In such a run, as long as no signal interrupts a wait for the
semaphore, the handlers find out and leave what their sections would as single steps, one after the
other; and one handler more than waits have been interrupted can be in a section at a time, and no
more: any as many of them get there together, without a further signal. -/
theorem sections_apart (registry : SharedRegistry)
    (schedule : List (UInt32 × GuardCall CriticalSection)) {state : RegistryGuard}
    (fits : ∀ pid entered, (pid, .wait entered) ∈ schedule → entered.FitsSlot)
    (run : runFrom (Guard.next registrySections) (.start 1 registry) schedule = some state) :
    (∀ pid filename destUser username,
      (pid, .wait (.createRequest filename destUser username)) ∈ schedule →
        ∀ (table : SharedRegistry) before slot after, table.pending = before ++ slot :: after →
          (table.storeFilename before.length filename).pending =
              before ++ slot.named filename :: after ∧
            (table.storeFilename before.length filename).globalIdCounter = table.globalIdCounter) ∧
    (interruptions schedule = 0 → ∃ committed,
      inOrder CriticalSection.step (state.ended.map Sigma.fst) registry =
        (state.ended.map fun done => (done.1, CriticalSection.known done), committed) ∧
      ((∀ pid, (state.phase pid).isInside = false) → state.content = committed)) ∧
    ∀ pids : List UInt32, pids.Nodup →
      ((∀ pid ∈ pids, (state.phase pid).isInside = true) →
        pids.length ≤ 1 + interruptions schedule) ∧
      (pids.length ≤ 1 + interruptions schedule →
        ∃ later after, runFrom (Guard.next registrySections) state later = some after ∧
          interruptions later = 0 ∧ ∀ pid ∈ pids, (after.phase pid).isInside = true) := by
  refine ⟨fun pid filename destUser username asked table before slot after split => ?_,
    fun uninterrupted => ?_, fun pids nodup => ⟨fun inside => ?_, fun few => ?_⟩⟩
  · exact table.storeFilename_short before split (fits pid _ asked)
  · obtain ⟨committed, serial⟩ := Guard.serial_of_run run uninterrupted
    refine ⟨committed, ?_, serial.idle⟩
    rw [inOrder_reworded CriticalSection.known, serial.ended,
      List.map_map]
    · rfl
    · intro entered content
      unfold CriticalSection.step
      rw [entered.apply_eq_alone]
      rfl
  · obtain ⟨holders, balanced⟩ := Guard.balanced_of_run run
    exact balanced.length_le nodup inside
  · exact Guard.crowded_of_run registrySections run nodup few (.findUser [])

/-- A handler whose wait is interrupted. -/
def interruptedWait : List (UInt32 × GuardCall CriticalSection) :=
  [(7, .wait (.removeOnlineUser 7)), (7, .interrupt)]

/-- From then on another handler can come into its section beside it. -/
theorem sections_apart_interrupted : ∃ state later after,
    runFrom (Guard.next registrySections) (.start 1 initSharedRegistry) interruptedWait =
        some state ∧
      runFrom (Guard.next registrySections) state later = some after ∧
      (after.phase 7).isInside = true ∧ (after.phase 8).isInside = true := by
  have done : (runFrom (Guard.next registrySections) (.start 1 initSharedRegistry)
      interruptedWait).isSome = true := by decide +kernel
  obtain ⟨state, run⟩ := Option.isSome_iff_exists.mp done
  have fits : ∀ pid entered, (pid, .wait entered) ∈ interruptedWait → entered.FitsSlot := by
    intro pid entered asked
    simp only [interruptedWait, List.mem_cons, Prod.mk.injEq, GuardCall.wait.injEq, reduceCtorEq,
      and_false, List.not_mem_nil, or_false] at asked
    obtain ⟨-, rfl⟩ := asked
    trivial
  have two : [(7 : UInt32), 8].length ≤ 1 + interruptions interruptedWait := by decide
  obtain ⟨later, after, goes, -, inside⟩ :=
    ((sections_apart initSharedRegistry interruptedWait fits run).2.2 [7, 8] (by decide)).2 two
  exact ⟨state, later, after, run, goes, inside 7 (by simp), inside 8 (by simp)⟩

end FileServer
