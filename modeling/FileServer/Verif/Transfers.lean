import FileServer.Lib.Run
import FileServer.Model.Utility
import FileServer.Spec.TransferLedger
import FileServer.Verif.Registry

/-!
# Transfers are delivered at most once

Sessions enter the critical sections of the table of transfers in any order. Every such run
follows the ledger of requests: the slots in use are the numbers that wait for an answer, and
what the sessions see is a history the ledger allows.
-/
namespace FileServer

open FileServer.Lib

/-- What a session does to the table of transfers. -/
inductive TransferCommand
  /-- `handleTransferRequest`, once the other user is online. -/
  | request (filename : List UInt8) (destUser : UserName) (short : filename.length < filenameSize)
  /-- `check_for_notifications`. -/
  | notice
  /-- `handleAcceptTransfer`. -/
  | accept (reqId : UInt32)
  /-- `handleRejectTransfer`. -/
  | reject (targetId : UInt32)
  /-- `cleanup_user_requests`, when the session ends. -/
  | leave

/-- The critical section a session of the named user enters. -/
def TransferCommand.enters (username : UserName) : TransferCommand → CriticalSection
  | request filename destUser _ => .createRequest filename destUser.text username.text
  | notice => .checkForNotifications username.text
  | accept reqId => .acceptRequest reqId username.text
  | reject targetId => .rejectRequest targetId username.text
  | leave => .cleanupUserRequests username.text

variable {session : Type}

/-- What the caller of a section sees happen to requests, from the result of the section. -/
def observed (caller : session) :
    (entered : CriticalSection) → entered.Result → List (TransferEvent session)
  | .checkForNotifications _, notices =>
    (notices.filter (!·.isRejection)).map fun notice => .notified caller notice.request.id
  | .createRequest _ destUser _, id =>
    if id = -1 then [] else [.requested caller id.toUInt32 destUser]
  | .acceptRequest reqId _, found => if found.isSome then [.accepted caller reqId] else []
  | .rejectRequest targetId _, .rejected _ => [.rejected caller targetId]
  | _, _ => []

/-- The registry and what has happened to it. -/
structure TransferRun (session : Type) where
  /-- The table the sessions share. -/
  registry : SharedRegistry
  /-- What the sessions have seen, oldest first. -/
  history : List (TransferEvent session)
  /-- Number of requests attempted. -/
  requests : Nat

namespace TransferRun

/-- Nothing has happened to the registry set up at the start of the server. -/
def start : TransferRun session := ⟨initSharedRegistry, [], 0⟩

/-- A session enters a critical section. -/
def next (username : session → UserName) (run : TransferRun session)
    (label : session × TransferCommand) : Option (TransferRun session) :=
  let entered := label.2.enters (username label.1)
  some {
    registry := (entered.apply run.registry).2
    history := run.history ++ observed label.1 entered (entered.apply run.registry).1
    requests := run.requests + match label.2 with
      | .request _ _ _ => 1
      | _ => 0 }

end TransferRun

namespace TransferRequest

/-- The slot holds a request that waits for an answer. -/
def Live (slot : TransferRequest) : Prop := slot.status = .pending ∨ slot.status = .notified

/-- The name in `receiver`, which the slot terminates. -/
def receiverName (slot : TransferRequest) : List UInt8 := cString slot.receiver.bytes

/-- The slot is what the ledger says about its number. -/
def Tracked (ledger : Ledger) (slot : TransferRequest) : Prop :=
  match slot.status with
  | .free => True
  | .pending => ledger slot.id = .pending slot.receiverName ∧ (0 : UInt8) ∈ slot.receiver.bytes
  | .notified => ledger slot.id = .notified slot.receiverName ∧ (0 : UInt8) ∈ slot.receiver.bytes
  | .rejected => slot.id = 0
  | .other _ => False

/-- A slot with a request that waits for an answer is offered to the user it names. -/
theorem Tracked.offered {ledger : Ledger} {slot : TransferRequest} (tracked : slot.Tracked ledger)
    (live : slot.Live) :
    (ledger slot.id).OfferedTo slot.receiverText ∧ (0 : UInt8) ∈ slot.receiver.bytes := by
  obtain waiting | shown := live
  · simp only [Tracked, waiting] at tracked
    exact ⟨Or.inl (by rw [receiverText, cString_append_of_mem tracked.2]; exact tracked.1),
      tracked.2⟩
  · simp only [Tracked, shown] at tracked
    exact ⟨Or.inr (by rw [receiverText, cString_append_of_mem tracked.2]; exact tracked.1),
      tracked.2⟩

/-- The name is what the slot is compared by. -/
theorem receiverText_eq {slot : TransferRequest} (ended : (0 : UInt8) ∈ slot.receiver.bytes) :
    slot.receiverText = slot.receiverName := cString_append_of_mem ended _

/-- A slot stays tracked when the ledger changes another number. -/
theorem Tracked.set {ledger : Ledger} {slot : TransferRequest} (tracked : slot.Tracked ledger)
    {id : UInt32} (other : slot.Live → slot.id ≠ id) (stage : Stage) :
    slot.Tracked (ledger.set id stage) := by
  cases status : slot.status with
  | free => simp only [Tracked, status]
  | pending =>
    simp only [Tracked, status] at tracked ⊢
    rwa [Ledger.set, Function.update_of_ne (other (Or.inl status))]
  | notified =>
    simp only [Tracked, status] at tracked ⊢
    rwa [Ledger.set, Function.update_of_ne (other (Or.inr status))]
  | rejected => simpa only [Tracked, status] using tracked
  | other word => simp only [Tracked, status] at tracked

/-- A slot given free by `cleanup_user_requests` is free. -/
theorem status_cleaned (slot : TransferRequest) : slot.cleaned.status = .free := by
  have size : (slot.sender.bytes ++ slot.receiver.bytes).length = 40 := by
    rw [List.length_append, slot.sender.length_bytes, slot.receiver.length_bytes]
    rfl
  have cleared := overwrite_append (Layout.word32.encode 0)
    (slot.sender.bytes ++ slot.receiver.bytes)
    (slot.filename.bytes ++ TransferStatus.layout.encode .free) 0 (List.replicate 32 0) (by rw [size]; decide)
  have image : layout.encode { slot with status := .free, id := 0 } =
      Layout.word32.encode 0 ++ ((slot.sender.bytes ++ slot.receiver.bytes) ++
        (slot.filename.bytes ++ TransferStatus.layout.encode .free)) := by
    simp [layout, Layout.map, Layout.pair, CharArray.layout]
  -- the names left behind are the two halves of what the store leaves
  have kept : (overwrite (slot.sender.bytes ++ slot.receiver.bytes) 0
      (List.replicate 32 0)).length = 40 := by
    rw [length_overwrite (by rw [size]; decide), size]
  have left : layout.encode { slot with
      status := .free
      id := 0
      sender := ⟨_, (List.length_take_of_le (Nat.le_of_lt_succ (by rw [kept]; decide)) :
        ((overwrite (slot.sender.bytes ++ slot.receiver.bytes) 0
          (List.replicate 32 0)).take 20).length = 20)⟩
      receiver := ⟨(overwrite (slot.sender.bytes ++ slot.receiver.bytes) 0
        (List.replicate 32 0)).drop 20, by rw [List.length_drop, kept]⟩ } =
      Layout.word32.encode 0 ++ (overwrite (slot.sender.bytes ++ slot.receiver.bytes) 0
        (List.replicate 32 0) ++ (slot.filename.bytes ++ TransferStatus.layout.encode .free)) := by
    simp only [layout, Layout.map, Layout.pair, CharArray.layout]
    rw [← List.append_assoc (List.take _ _), List.take_append_drop]
  have offset : (Layout.word32.encode 0).length + 0 = 4 := rfl
  rw [cleaned, image, ← offset, cleared, ← left, Layout.decode_encode_self]

end TransferRequest

/-- The slots hold exactly what the ledger says about their numbers. -/
structure Tracks (slots : List TransferRequest) (counter : UInt32) (ledger : Ledger) : Prop where
  /-- Each slot agrees with the ledger. -/
  tracked : ∀ slot ∈ slots, slot.Tracked ledger
  /-- No two requests that wait for an answer have one number. -/
  apart : slots.Pairwise fun left right => left.Live → right.Live → left.id ≠ right.id
  /-- Numbers are used from one up to the counter. -/
  numbered : ∀ id, ledger id ≠ .unused → 0 < id.toNat ∧ id.toNat ≤ counter.toNat

open TransferRequest

namespace Tracks

variable {before after : List TransferRequest} {slot : TransferRequest} {counter : UInt32}
  {ledger : Ledger}

/-- No other slot in use has the number of a request that waits for an answer. -/
theorem alone (tracks : Tracks (before ++ slot :: after) counter ledger) (live : slot.Live) :
    ∀ other ∈ before ++ after, other.Live → other.id ≠ slot.id := by
  have apart := tracks.apart
  rw [List.pairwise_append, List.pairwise_cons] at apart
  intro other member busy
  rcases List.mem_append.mp member with early | late
  · exact apart.2.2 other early slot (by simp) busy live
  · exact (apart.2.1.1 other late live busy).symm

/-- A number in use is known to the ledger. -/
theorem known (tracks : Tracks (before ++ slot :: after) counter ledger) (live : slot.Live) :
    0 < slot.id.toNat ∧ slot.id.toNat ≤ counter.toNat := by
  apply tracks.numbered
  rcases ((tracks.tracked slot (by simp)).offered live).1 with stage | stage <;> simp [stage]

/-- One slot changes together with the stage of one number, which no other slot uses. -/
theorem replace (tracks : Tracks (before ++ slot :: after) counter ledger)
    {changed : TransferRequest} {number grown : UInt32} {stage : Stage}
    (alone : ∀ other ∈ before ++ after, other.Live → other.id ≠ number)
    (tracked : changed.Tracked (ledger.set number stage))
    (named : changed.Live → changed.id = number)
    (used : 0 < number.toNat ∧ number.toNat ≤ grown.toNat)
    (grows : counter.toNat ≤ grown.toNat) :
    Tracks (before ++ changed :: after) grown (ledger.set number stage) := by
  have old := tracks.tracked
  refine ⟨?_, ?_, ?_⟩
  · intro other member
    rcases List.mem_append.mp member with early | late
    · exact (old other (by simp [early])).set (alone other (by simp [early])) stage
    · rcases List.mem_cons.mp late with rfl | late
      · exact tracked
      · exact (old other (by simp [late])).set (alone other (by simp [late])) stage
  · have apart := tracks.apart
    rw [List.pairwise_append, List.pairwise_cons] at apart ⊢
    refine ⟨apart.1, ⟨?_, apart.2.1.2⟩, ?_⟩
    · intro other late live busy
      rw [named live]
      exact (alone other (by simp [late]) busy).symm
    · intro other early right late busy live
      rcases List.mem_cons.mp late with rfl | late
      · rw [named live]
        exact alone other (by simp [early]) busy
      · exact apart.2.2 other early right (by simp [late]) busy live
  · intro id busy
    by_cases same : id = number
    · exact same ▸ used
    · rw [Ledger.set, Function.update_of_ne same] at busy
      have old := tracks.numbered id busy
      omega

/-- A slot that stops waiting, or did not wait, needs no change of the ledger. -/
theorem retire (tracks : Tracks (before ++ slot :: after) counter ledger)
    {changed : TransferRequest} (tracked : changed.Tracked ledger) (idle : ¬ changed.Live) :
    Tracks (before ++ changed :: after) counter ledger := by
  refine ⟨?_, ?_, tracks.numbered⟩
  · intro other member
    rcases List.mem_append.mp member with early | late
    · exact tracks.tracked other (by simp [early])
    · rcases List.mem_cons.mp late with rfl | late
      · exact tracked
      · exact tracks.tracked other (by simp [late])
  · have apart := tracks.apart
    rw [List.pairwise_append, List.pairwise_cons] at apart ⊢
    refine ⟨apart.1, ⟨fun _ _ live => absurd live idle, apart.2.1.2⟩, ?_⟩
    intro other early right late busy live
    rcases List.mem_cons.mp late with rfl | late
    · exact absurd live idle
    · exact apart.2.2 other early right (by simp [late]) busy live

end Tracks

section Steps

variable {username : session → UserName} {history : List (TransferEvent session)}
  {ledger : Ledger} {counter : UInt32}

/-- The ledger goes on to one that the history and the slots agree with. -/
def Follows (username : session → UserName) (history : List (TransferEvent session))
    (slots : List TransferRequest) (counter : UInt32) : Prop :=
  ∃ ledger, Ledger.Follows (fun caller => (username caller).text) history ledger ∧
    Tracks slots counter ledger

/-- A visit of `check_for_notifications` to one slot. -/
theorem Follows.visit {before after : List TransferRequest} {slot : TransferRequest}
    (follows : Follows username history (before ++ slot :: after) counter) (caller : session) :
    Follows username
      (history ++ observed caller (.checkForNotifications (username caller).text)
        (visitSlot (username caller).text slot).2)
      (before ++ (visitSlot (username caller).text slot).1 :: after) counter := by
  obtain ⟨ledger, told, tracks⟩ := follows
  by_cases new : slot.status = .pending ∧ slot.receiverText = (username caller).text
  · obtain ⟨waiting, mine⟩ := id new
    have live : slot.Live := Or.inl waiting
    have tracked := tracks.tracked slot (by simp)
    simp only [Tracked, waiting] at tracked
    rw [← receiverText_eq tracked.2, mine] at tracked
    have visited : visitSlot (username caller).text slot =
        ({ slot with status := .notified }, [⟨slot, false⟩]) := if_pos new
    rw [visited]
    refine ⟨ledger.set slot.id (.notified (username caller).text),
      told.event (.notified tracked.1), ?_⟩
    · refine tracks.replace (tracks.alone live) ?_ (fun _ => rfl) (tracks.known live) le_rfl
      refine ⟨?_, tracked.2⟩
      rw [Ledger.set, Function.update_self, ← mine, receiverText_eq tracked.2]
      rfl
  · by_cases answered : slot.status = .rejected ∧ slot.senderText = (username caller).text
    · have visited : visitSlot (username caller).text slot = (.zero, [⟨slot, true⟩]) :=
        (if_neg new).trans (if_pos answered)
      have idle : ¬ TransferRequest.zero.Live := by
        rintro (h | h) <;> exact absurd h (by decide)
      rw [visited]
      exact ⟨ledger, by simpa [observed] using told, tracks.retire trivial idle⟩
    · have visited : visitSlot (username caller).text slot = (slot, []) :=
        (if_neg new).trans (if_neg answered)
      rw [visited]
      exact ⟨ledger, by simpa [observed] using told, tracks⟩

/-- A visit of `cleanup_user_requests` to one slot. -/
theorem Follows.cleanup {before after : List TransferRequest} {slot : TransferRequest}
    (follows : Follows username history (before ++ slot :: after) counter) (name : List UInt8) :
    Follows username history (before ++ cleanupSlot name slot :: after) counter := by
  obtain ⟨ledger, told, tracks⟩ := follows
  by_cases mine : slot.status ≠ .free ∧ slot.receiverText = name
  · have free := slot.status_cleaned
    have idle : ¬ slot.cleaned.Live := by
      rintro (h | h) <;> rw [free] at h <;> exact absurd h (by decide)
    have untracked : ∀ ledger, slot.cleaned.Tracked ledger := by
      intro ledger
      simp only [Tracked, free]
    simp only [cleanupSlot, mine, ne_eq, not_false_eq_true, and_self, ↓reduceIte]
    by_cases live : slot.Live
    · refine ⟨ledger.set slot.id .dropped,
        told.drop ((tracks.tracked slot (by simp)).offered live).1, ?_⟩
      exact tracks.replace (tracks.alone live) (untracked _) (fun busy => absurd busy idle)
        (tracks.known live) le_rfl
    · exact ⟨ledger, told, tracks.retire (untracked _) idle⟩
  · simp only [cleanupSlot, mine, ↓reduceIte]
    exact ⟨ledger, told, tracks⟩

/-- A loop over all slots follows the ledger when each visit does. -/
theorem Follows.loop {visit : TransferRequest → TransferRequest}
    (sees : TransferRequest → List (TransferEvent session))
    (step : ∀ history before slot after,
      Follows username history (before ++ slot :: after) counter →
        Follows username (history ++ sees slot) (before ++ visit slot :: after) counter)
    (before rest : List TransferRequest)
    (follows : Follows username history (before ++ rest) counter) :
    Follows username (history ++ rest.flatMap sees) (before ++ rest.map visit) counter := by
  induction rest generalizing before history with
  | nil => simpa using follows
  | cons slot rest ih =>
    have visited : Follows username (history ++ sees slot ++ rest.flatMap sees)
        (before ++ [visit slot] ++ rest.map visit) counter :=
      ih _ (by simpa using step history before slot rest follows)
    simpa [List.append_assoc] using visited

/-- A request takes a number the ledger does not use. -/
theorem Follows.request {registry : SharedRegistry} (follows : Follows username history
      registry.pending registry.globalIdCounter) (caller : session) (destUser : UserName)
    {filename : List UInt8} (short : filename.length < filenameSize)
    (few : registry.globalIdCounter.toNat + 1 < 2 ^ 31 - 1) :
    Follows username
        (history ++ observed caller (.createRequest filename destUser.text (username caller).text)
          (registry.createRequest filename destUser.text (username caller).text).1)
        (registry.createRequest filename destUser.text (username caller).text).2.pending
        (registry.createRequest filename destUser.text (username caller).text).2.globalIdCounter ∧
      (registry.createRequest filename destUser.text
        (username caller).text).2.globalIdCounter.toNat ≤ registry.globalIdCounter.toNat + 1 := by
  obtain ⟨-, same⟩ | ⟨before, slot, after, split, free, -, number, pending, counter⟩ :=
    registry.createRequest_cases short destUser.text (username caller).text
  · rw [same]
    exact ⟨by simpa [observed] using follows, Nat.le_succ _⟩
  · have grown : (registry.globalIdCounter + 1).toNat = registry.globalIdCounter.toNat + 1 := by
      rw [UInt32.toNat_add]
      exact Nat.mod_eq_of_lt (by
        have : (1 : UInt32).toNat = 1 := rfl
        omega)
    obtain ⟨ledger, told, tracks⟩ := follows
    rw [number, pending, counter]
    rw [split] at tracks
    have fresh : ledger (registry.globalIdCounter + 1) = .unused := by
      by_contra busy
      have := (tracks.numbered _ busy).2
      omega
    have positive : (registry.globalIdCounter + 1).toInt32 ≠ -1 := by
      intro wrapped
      have := congrArg (fun word => word.toUInt32.toNat) wrapped
      simp only [UInt32.toUInt32_toInt32] at this
      have : (-1 : Int32).toUInt32.toNat = 4294967295 := rfl
      omega
    refine ⟨⟨ledger.set (registry.globalIdCounter + 1) (.pending destUser.text), ?_, ?_⟩,
      grown.le⟩
    · simp only [observed, positive, ↓reduceIte, UInt32.toUInt32_toInt32]
      refine told.event (.requested fresh fun zero => ?_)
      rw [zero] at grown
      simp at grown
    · refine tracks.replace ?_ ?_ (fun _ => rfl) ⟨by omega, le_rfl⟩ (by omega)
      · intro other member busy same
        have known := tracks.tracked other (by
          rcases List.mem_append.mp member with h | h <;> simp [h])
        rcases (known.offered busy).1 with stage | stage <;>
          simp [same, fresh] at stage
      · have name := CharArray.cString_snprintf slot.receiver
          (nulFree_of_isUsernameValid destUser.valid) destUser.short []
        rw [List.append_nil] at name
        refine ⟨?_, CharArray.zero_mem_snprintf _ _ (by decide)⟩
        change Ledger.set ledger _ _ (registry.globalIdCounter + 1) =
          .pending (cString (slot.receiver.snprintf destUser.text (by decide)).bytes)
        rw [Ledger.set, Function.update_self, name]

/-- An accept takes a request that was shown to its receiver. -/
theorem Follows.accept {registry : SharedRegistry} (follows : Follows username history
      registry.pending registry.globalIdCounter) (caller : session) (reqId : UInt32) :
    Follows username
      (history ++ observed caller (.acceptRequest reqId (username caller).text)
        (registry.acceptRequest reqId (username caller).text).1)
      (registry.acceptRequest reqId (username caller).text).2.pending
      registry.globalIdCounter := by
  obtain ⟨none, same⟩ | ⟨before, slot, after, split, rfl, shown, mine, found, pending⟩ :=
    registry.acceptRequest_cases reqId (username caller).text
  · rw [none, same]
    simpa [observed] using follows
  · obtain ⟨ledger, told, tracks⟩ := follows
    rw [split] at tracks
    have live : slot.Live := Or.inr shown
    have tracked := tracks.tracked slot (by simp)
    simp only [Tracked, shown] at tracked
    rw [← receiverText_eq tracked.2, mine] at tracked
    have idle : ¬ slot.accepted.Live := by
      rintro (h | h) <;> simp [TransferRequest.accepted] at h
    rw [found, pending]
    exact ⟨ledger.set slot.id .accepted, told.event (.accepted tracked.1),
      tracks.replace (tracks.alone live) trivial (fun busy => absurd busy idle)
        (tracks.known live) le_rfl⟩

/-- A reject ends a request offered to the caller, or finds only the remains of one. -/
theorem Follows.reject {registry : SharedRegistry} (follows : Follows username history
      registry.pending registry.globalIdCounter) (caller : session) (targetId : UInt32) :
    Follows username
      (history ++ observed caller (.rejectRequest targetId (username caller).text)
        (registry.rejectRequest targetId (username caller).text).1)
      (registry.rejectRequest targetId (username caller).text).2.pending
      registry.globalIdCounter := by
  obtain ⟨none, same⟩ | ⟨before, slot, after, split, rfl, busy, mine, found, pending⟩ :=
    registry.rejectRequest_cases targetId (username caller).text
  · have unseen : observed caller (.rejectRequest targetId (username caller).text)
        (registry.rejectRequest targetId (username caller).text).1 = [] := by
      cases result : (registry.rejectRequest targetId (username caller).text).1 with
      | rejected senderName => exact absurd result (none senderName)
      | notYours => rfl
      | notFound => rfl
    rw [unseen, same, List.append_nil]
    exact follows
  · obtain ⟨ledger, told, tracks⟩ := follows
    rw [split] at tracks
    have idle : ¬ TransferRequest.Live { slot with status := .rejected, id := 0 } := by
      rintro (h | h) <;> simp at h
    have tracked := tracks.tracked slot (by simp)
    rw [found, pending]
    by_cases live : slot.Live
    · have offered := (tracked.offered live).1
      rw [mine] at offered
      exact ⟨ledger.set slot.id .rejected, told.event (.rejected offered),
        tracks.replace (tracks.alone live) rfl (fun busy => absurd busy idle)
          (tracks.known live) le_rfl⟩
    · have remains : slot.id = 0 := by
        cases status : slot.status with
        | free => exact absurd status busy
        | pending => exact absurd (Or.inl status) live
        | notified => exact absurd (Or.inr status) live
        | rejected => simpa only [Tracked, status] using tracked
        | other word => simp only [Tracked, status] at tracked
      have zero : ledger 0 = .unused := by
        by_contra used
        exact absurd (tracks.numbered 0 used).1 (by decide)
      rw [remains]
      exact ⟨ledger, told.event (.rejectedAgain zero), tracks.retire rfl idle⟩

end Steps

/-- Every run with few enough requests follows the ledger. -/
theorem TransferRun.follows {username : session → UserName}
    {schedule : List (session × TransferCommand)} {run : TransferRun session}
    (reached : runFrom (TransferRun.next username) .start schedule = some run)
    (few : run.requests < 2 ^ 31 - 1) :
    Follows username run.history run.registry.pending run.registry.globalIdCounter := by
  refine (run_invariant (fun run => run.requests < 2 ^ 31 - 1 →
    Follows username run.history run.registry.pending run.registry.globalIdCounter ∧
      run.registry.globalIdCounter.toNat ≤ run.requests) ?_ ?_ reached few).1
  · rintro run ⟨caller, command⟩ after holds step few
    simp only [TransferRun.next, Option.some.injEq] at step
    subst step
    obtain ⟨follows, counted⟩ := holds (by simp only at few; omega)
    cases command with
    | request filename destUser short =>
      have taken := follows.request caller destUser short (by simp only at few; omega)
      exact ⟨taken.1, taken.2.trans (by simpa using counted)⟩
    | notice =>
      have looped := Follows.loop _ (fun history before slot after follows =>
        follows.visit caller) [] run.registry.pending follows
      refine ⟨?_, counted⟩
      simpa [TransferCommand.enters, CriticalSection.apply, SharedRegistry.checkForNotifications,
        observed, List.filter_flatMap, List.map_flatMap] using looped
    | accept reqId => exact ⟨follows.accept caller reqId, counted⟩
    | reject targetId =>
      have counter := run.registry.globalIdCounter_rejectRequest targetId (username caller).text
      refine ⟨?_, by simpa [TransferCommand.enters, CriticalSection.apply, counter] using counted⟩
      have answered := follows.reject caller targetId
      rw [← counter] at answered
      exact answered
    | leave =>
      have looped := Follows.loop (fun _ => []) (fun history before slot after follows => by
        simpa using follows.cleanup (username caller).text) [] run.registry.pending follows
      rw [List.flatMap_eq_nil_iff.mpr fun _ _ => rfl, List.append_nil] at looped
      refine ⟨?_, counted⟩
      simpa [TransferCommand.enters, CriticalSection.apply, SharedRegistry.cleanupUserRequests,
        observed] using looped
  · intro _
    refine ⟨⟨fun _ => .unused, .start, ?_, ?_, fun id busy => absurd rfl busy⟩, Nat.le_refl 0⟩
    · intro slot member
      obtain rfl := List.eq_of_mem_replicate member
      trivial
    · refine List.pairwise_replicate.mpr (Or.inr ?_)
      rintro (h | h) <;> exact absurd h (by decide)

/-- In every run with fewer than `2 ^ 31 - 1` requests the numbers of the requests that wait for
an answer are distinct and between one and the counter; each request is made, shown and accepted
at most once, shown exactly when its slot says so, shown to its receiver, accepted by its
receiver after it was shown, and not both accepted and rejected. -/
theorem transfers_delivered_once (username : session → UserName)
    (schedule : List (session × TransferCommand)) {run : TransferRun session}
    (reached : runFrom (TransferRun.next username) .start schedule = some run)
    (few : run.requests < 2 ^ 31 - 1) :
    run.registry.pending.Pairwise (fun left right => left.Live → right.Live → left.id ≠ right.id) ∧
      (∀ slot ∈ run.registry.pending, slot.Live →
        1 ≤ slot.id.toNat ∧ slot.id.toNat ≤ run.registry.globalIdCounter.toNat ∧
          times .notified slot.id run.history = if slot.status = .notified then 1 else 0) ∧
      (∀ id, times .requested id run.history ≤ 1 ∧ times .notified id run.history ≤ 1 ∧
        times .accepted id run.history ≤ 1 ∧
        (times .accepted id run.history = 0 ∨ times .rejected id run.history = 0)) ∧
      (∀ before after caller id, run.history = before ++ .notified caller id :: after →
        ∃ sender, .requested sender id (username caller).text ∈ before) ∧
      ∀ before after caller id, run.history = before ++ .accepted caller id :: after →
        (∃ sender, .requested sender id (username caller).text ∈ before) ∧
          ∃ shown, (username shown).text = (username caller).text ∧
            .notified shown id ∈ before := by
  obtain ⟨ledger, told, tracks⟩ := TransferRun.follows reached few
  refine ⟨tracks.apart, ?_, told.once, ?_, ?_⟩
  · intro slot member live
    have tracked := tracks.tracked slot member
    obtain ⟨before, after, split⟩ := List.append_of_mem member
    have known := (split ▸ tracks).known live
    refine ⟨known.1, known.2, ?_⟩
    have agrees := told.agrees slot.id
    obtain waiting | shown := live
    · simp only [Tracked, waiting] at tracked
      rw [tracked.1] at agrees
      simpa [waiting] using agrees.2.1
    · simp only [Tracked, shown] at tracked
      rw [tracked.1] at agrees
      simpa [shown] using agrees.2.1
  · intro before after caller id whole
    exact (whole ▸ told).notified
  · intro before after caller id whole
    exact (whole ▸ told).accepted

/-- Two users. -/
def twoUsers (first : Bool) : UserName :=
  if first then ⟨str "alice", by decide, by decide⟩ else ⟨str "bob", by decide, by decide⟩

/-- An offer of a file to the second user. -/
def notesOffered : TransferCommand := .request (str "notes") (twoUsers false) (by decide)

/-- The first user offers a file, which the second one is shown and accepts. -/
def offerAccepted : List (Bool × TransferCommand) :=
  [(true, notesOffered), (false, .notice), (false, .accept 1)]

/-- An accepted offer is one of the runs. -/
theorem transfers_delivered_once_offer :
    ∃ run, runFrom (TransferRun.next twoUsers) .start offerAccepted = some run ∧
      times .accepted 1 run.history = 1 ∧
      run.registry.pending.Pairwise
        (fun left right => left.Live → right.Live → left.id ≠ right.id) :=
  ⟨_, rfl, by decide +kernel,
    (transfers_delivered_once twoUsers offerAccepted rfl (by decide)).1⟩

end FileServer
