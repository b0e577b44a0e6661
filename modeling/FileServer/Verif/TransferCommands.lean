import FileServer.Verif.Accounts
import FileServer.Verif.HelperCodec
import FileServer.Verif.Login

/-!
# The commands for transfers

What `handleTransferRequest` and `handleAcceptTransfer` do to the registry. A request stores
three strings in one slot: the names of both users are cut to the size of their fields, the name
of the file is not. An accepted request leaves its slot before the helper is asked to copy the
file.
-/
namespace FileServer

open FileServer.Lib

/-- A request for a file and a user, who is found in the table. -/
structure HandlerCall.Requests (call : HandlerCall) (registry : SharedRegistry)
    (filename destUser : List UInt8) : Prop where
  /-- The session is logged in. -/
  loggedIn : call.session.state = .loggedIn
  /-- The file and the user are arguments of the command, which may have one more. -/
  args : ∃ name more, call.args = name :: filename :: destUser :: more ∧ more.length ≤ 1
  /-- The user is online. -/
  online : ∃ pid, registry.findUser destUser = some pid ∧ pid ≠ 0

section

variable (call : HandlerCall) (answers : HandlerAnswers) (registry : SharedRegistry)

/-- The part of the handler behind the check of the arguments makes one request in the registry. -/
theorem world_request (filename destUser : List UInt8)
    (serves : call.session.state = .loggedIn)
    (args : ∃ name more, call.args = name :: filename :: destUser :: more ∧ more.length ≤ 1) :
    ((handleTransferRequest call).runOn answers.serve registry).world =
      match (registry.findUser destUser).filter (· ≠ 0) with
      | none => registry
      | some _ => (registry.createRequest filename destUser call.session.usernameText).2 := by
  obtain ⟨name, more, args, few⟩ := args
  unfold handleTransferRequest HandlerCall.loggedIn
  match more, few with
  | [], _ | [_], _ =>
    simp only [serves, ne_eq, not_true_eq_false, ↓reduceIte, args, Script.runOn_bind,
      Script.runOn_perform, HandlerAnswers.serve]
    cases search : (registry.findUser destUser).filter (· ≠ 0) with
    | none => rfl
    | some pid =>
      simp only [Script.runOn_bind, Script.runOn_perform, HandlerAnswers.serve,
        CriticalSection.apply]
      by_cases busy :
          (registry.createRequest filename destUser call.session.usernameText).1 = -1 <;>
        simp only [busy, ↓reduceIte] <;> rfl

/-- A request is made in one section of the registry. -/
theorem world_handleTransferRequest {filename destUser : List UInt8}
    (requests : call.Requests registry filename destUser) :
    ((handleTransferRequest call).runOn answers.serve registry).world =
      (registry.createRequest filename destUser call.session.usernameText).2 := by
  obtain ⟨pid, found, nonzero⟩ := requests.online
  have search : (registry.findUser destUser).filter (· ≠ 0) = some pid := by
    simp [found, nonzero]
  rw [world_request call answers registry filename destUser requests.loggedIn requests.args,
    search]

/-- Without a user to request a transfer to, the registry is left alone. -/
theorem world_handleTransferRequest_refused
    (refused : ∀ filename destUser, ¬ call.Requests registry filename destUser) :
    ((handleTransferRequest call).runOn answers.serve registry).world = registry := by
  by_cases serves : call.session.state = .loggedIn
  · by_cases shape : ∃ name filename destUser more,
        call.args = name :: filename :: destUser :: more ∧ more.length ≤ 1
    · obtain ⟨name, filename, destUser, more, args, few⟩ := shape
      rw [world_request call answers registry filename destUser serves ⟨name, more, args, few⟩]
      cases search : (registry.findUser destUser).filter (· ≠ 0) with
      | none => rfl
      | some pid =>
        obtain ⟨found, nonzero⟩ := Option.filter_eq_some_iff.mp search
        exact absurd ⟨serves, ⟨name, more, args, few⟩, pid, found, by simpa using nonzero⟩
          (refused filename destUser)
    · unfold handleTransferRequest HandlerCall.loggedIn
      simp only [serves, ne_eq, not_true_eq_false, ↓reduceIte]
      split
      · rename_i name filename destUser args
        exact absurd ⟨name, filename, destUser, [], args, Nat.zero_le 1⟩ shape
      · rename_i name filename destUser last args
        exact absurd ⟨name, filename, destUser, [last], args, Nat.le_refl 1⟩ shape
      · rfl
  · unfold handleTransferRequest HandlerCall.loggedIn
    simp only [serves, ne_eq, not_false_eq_true, ↓reduceIte]
    rfl

/-- A registry differs from another in the number of the last request and in one slot that was
free, which holds the request: both names, and as much of the file as its field can hold. -/
def SharedRegistry.TakesSlot (before : SharedRegistry) (filename destUser username : List UInt8)
    (after : SharedRegistry) : Prop :=
  after.onlineUsers = before.onlineUsers ∧
    after.globalIdCounter = before.globalIdCounter + 1 ∧
    ∃ front slot back new, before.pending = front ++ slot :: back ∧ slot.status = .free ∧
      after.pending = front ++ new :: back ∧ new.status = .pending ∧
      new.id = before.globalIdCounter + 1 ∧ cString new.sender.bytes = username ∧
      cString new.receiver.bytes = destUser ∧
      cString new.filename.bytes = filename.take (filenameSize - 1)

/-- A slot can be taken. -/
def SharedRegistry.HasRoom (registry : SharedRegistry) : Prop :=
  ∃ slot ∈ registry.pending, slot.status = .free

/-- The bytes of a request's file name that are copied to its slot. -/
def storedFilename (filename : List UInt8) : List UInt8 := filename.take (filenameMax - 1) ++ [0]

/-- The command changes nothing but its own slot and the counter, and the file name is stored
inside its field; without a request or without a free slot it changes nothing. -/
def WritesOwnSlot : Prop :=
  let after := ((handleTransferRequest call).runOn answers.serve registry).world
  (∀ filename destUser, call.Requests registry filename destUser → registry.HasRoom →
      registry.TakesSlot filename destUser call.session.usernameText after ∧
        (storedFilename filename).length ≤ filenameSize) ∧
    ((¬ ∃ filename destUser, call.Requests registry filename destUser) ∨ ¬ registry.HasRoom →
      after = registry)

end

/-- What a request leaves in a field for a name is the name if it is shorter than the field. -/
theorem stored_eq_iff {n : Nat} (field : CharArray n) {name : List UInt8} (clean : NulFree name)
    (room : 0 < n) : cString (field.snprintf name room).bytes = name ↔ name.length < n := by
  have stored := field.cString_snprintf_take name room []
  rw [List.append_nil] at stored
  rw [stored]
  constructor
  · intro whole
    have length := length_cString_le (name.take (n - 1))
    rw [whole, List.length_take] at length
    omega
  · intro short
    rw [List.take_of_length_le (by omega), cString_of_nulFree clean]

/-- The slot that a request takes is the one it fills. -/
theorem taken_eq {front back before after : List TransferRequest}
    {slot old new written : TransferRequest} (same : front ++ slot :: back = before ++ old :: after)
    (changed : front ++ new :: back = before ++ written :: after) (idle : old.status = .free)
    (filled : written.status = .pending) : new = written := by
  have old_ : (front ++ slot :: back)[before.length]? = some old := by simp [same]
  have written_ : (front ++ new :: back)[before.length]? = some written := by simp [changed]
  rcases getElem?_replace front back slot new old_ with kept | ⟨-, -, here⟩
  · obtain rfl : old = written := Option.some.inj (kept.symm.trans written_)
    rw [idle] at filled
    cases filled
  · exact Option.some.inj (here.symm.trans written_)

/-- A request takes its slot as it should if its strings are shorter than their fields. -/
theorem takesSlot_createRequest (registry : SharedRegistry) {filename destUser username : List UInt8}
    (room : registry.HasRoom) (clean : NulFree filename) (target : NulFree destUser)
    (own : NulFree username) (short : filename.length < filenameSize) :
    registry.TakesSlot filename destUser username
        (registry.createRequest filename destUser username).2 ↔
      destUser.length < maxUsernameLen ∧ username.length < maxUsernameLen := by
  obtain ⟨full, -⟩ | ⟨before, slot, after, split, idle, -, -, pending, counter⟩ :=
    registry.createRequest_cases short destUser username
  · obtain ⟨slot, member, idle⟩ := room
    exact absurd idle (full slot member)
  · have target_ := stored_eq_iff slot.receiver target (by decide : 0 < maxUsernameLen)
    have own_ := stored_eq_iff slot.sender own (by decide : 0 < maxUsernameLen)
    constructor
    · rintro ⟨-, -, front, old, back, new, same, -, changed, -, -, sender, receiver, -⟩
      obtain rfl := taken_eq (same.symm.trans split) (changed.symm.trans pending) idle rfl
      exact ⟨target_.mp receiver, own_.mp sender⟩
    · rintro ⟨fits, ownFits⟩
      refine ⟨registry.onlineUsers_createRequest _ _ _, counter, before, slot, after, _, split,
        idle, pending, rfl, rfl, own_.mpr ownFits, target_.mpr fits, ?_⟩
      have name := (stored_eq_iff slot.filename clean (by decide : 0 < filenameSize)).mpr short
      rw [List.take_of_length_le (by omega)]
      exact name

section

variable (call : HandlerCall) (answers : HandlerAnswers) (registry : SharedRegistry)

/-- A request writes only its own slot exactly if, whenever it finds a user and a free slot, the
name of the file is shorter than its field and so are the names of both users. -/
theorem writesOwnSlot_iff (split : call.Split) :
    WritesOwnSlot call answers registry ↔
      ∀ filename destUser, call.Requests registry filename destUser → registry.HasRoom →
        filename.length < filenameSize ∧ destUser.length < maxUsernameLen ∧
          call.session.usernameText.length < maxUsernameLen := by
  have fits : ∀ filename : List UInt8, (storedFilename filename).length ≤ filenameSize ↔
      filename.length < filenameSize := by
    intro filename
    have copied : filenameMax = 4096 := rfl
    have field : filenameSize = 256 := rfl
    simp only [storedFilename, List.length_append, List.length_take, List.length_singleton]
    omega
  have takes : ∀ {filename destUser}, call.Requests registry filename destUser →
      registry.HasRoom → filename.length < filenameSize →
        (registry.TakesSlot filename destUser call.session.usernameText
            ((handleTransferRequest call).runOn answers.serve registry).world ↔
          destUser.length < maxUsernameLen ∧
            call.session.usernameText.length < maxUsernameLen) := by
    intro filename destUser requests room short
    obtain ⟨name, more, args, -⟩ := requests.args
    have clean := split.args.1
    rw [world_handleTransferRequest call answers registry requests]
    exact takesSlot_createRequest registry room (clean filename (by simp [args]))
      (clean destUser (by simp [args])) (cString_nulFree _) short
  constructor
  · rintro ⟨writes, -⟩ filename destUser requests room
    obtain ⟨slot, inside⟩ := writes filename destUser requests room
    have short := (fits filename).mp inside
    exact ⟨short, (takes requests room short).mp slot⟩
  · intro short
    refine ⟨fun filename destUser requests room => ?_, fun nothing => ?_⟩
    · obtain ⟨name, users⟩ := short filename destUser requests room
      exact ⟨(takes requests room name).mpr users, (fits filename).mpr name⟩
    · by_cases requested : ∃ filename destUser, call.Requests registry filename destUser
      · have full : ¬ registry.HasRoom := nothing.resolve_left (not_not_intro requested)
        obtain ⟨filename, destUser, requests⟩ := requested
        rw [world_handleTransferRequest call answers registry requests]
        obtain ⟨-, same⟩ | ⟨before, slot, after, split, idle, -⟩ :=
          registry.createRequest_split filename destUser call.session.usernameText
        · rw [same]
        · exact absurd ⟨slot, by rw [split]; simp, idle⟩ full
      · exact world_handleTransferRequest_refused call answers registry
          fun filename destUser requests => requested ⟨filename, destUser, requests⟩

end

/-- The arguments of a typed command come from its text. -/
theorem split_commandCall (pid : UInt32) (session : ClientSession) (text : List UInt8) :
    (commandCall pid session text).Split :=
  ⟨some ⟨text ++ [0] ++ [0], 0⟩, none, _, rfl⟩

/-- The session of a user logged in. -/
def aliceSession : ClientSession := ClientSession.zero.login .zero (str "alice")

/-- A registry with one user online. -/
def bobOnline : SharedRegistry := initSharedRegistry.insertOnlineUser (str "bob") 7

/-- A request for a short name writes only its own slot. -/
theorem writesOwnSlot_notes :
    WritesOwnSlot (commandCall 9 aliceSession (str "transfer_request notes bob")) willing
      bobOnline := by
  refine (writesOwnSlot_iff _ _ _ (split_commandCall 9 _ _)).mpr ?_
  intro filename destUser requests room
  obtain ⟨name, more, args, -⟩ := requests.args
  have typed : (commandCall 9 aliceSession (str "transfer_request notes bob")).args =
      [str "transfer_request", str "notes", str "bob"] := by decide +kernel
  simp only [typed, List.cons.injEq] at args
  obtain ⟨-, rfl, rfl, -⟩ := args
  decide +kernel

/-- A request for a name of 256 bytes stores its terminator in the stage of its slot. -/
theorem not_writesOwnSlot_long :
    ¬ WritesOwnSlot (commandCall 9 aliceSession
      (str "transfer_request " ++ List.replicate 256 97 ++ str " bob")) willing bobOnline := by
  intro writes
  have args : (commandCall 9 aliceSession
      (str "transfer_request " ++ List.replicate 256 97 ++ str " bob")).args =
      [str "transfer_request", List.replicate 256 97, str "bob"] := by decide +kernel
  have inside := (writes.1 (List.replicate 256 97) (str "bob")
    ⟨rfl, ⟨_, [], args, by decide⟩, 7, by decide +kernel, by decide⟩
    ⟨.zero, List.mem_replicate.mpr ⟨by decide, rfl⟩, rfl⟩).2
  revert inside
  decide +kernel

/-- The row that a login fills. -/
theorem row_insertOnlineUser {registry : SharedRegistry} {index : Nat}
    (first : registry.onlineUsers.findIdx? (·.isActive = 0) = some index)
    (username : List UInt8) (pid : UInt32) :
    (registry.insertOnlineUser username pid).onlineUsers[index]? =
      some ⟨.strncpy maxUsernameLen username, pid, 1⟩ := by
  have filled : (registry.insertOnlineUser username pid).onlineUsers[index]? =
      registry.onlineUsers[index]?.map fun _ => ⟨.strncpy maxUsernameLen username, pid, 1⟩ :=
    getElem?_updateFirst_findIdx? first
  obtain ⟨inside, -⟩ := List.findIdx?_eq_some_iff_getElem.mp first
  rw [filled, List.getElem?_eq_getElem inside, Option.map_some]

/-- The slot that a request fills, whatever the length of its file name. -/
theorem slot_createRequest {registry : SharedRegistry} {filename destUser username : List UInt8}
    {slot : TransferRequest}
    (found : (registry.createRequest filename destUser username).2.pending[
      registry.pending.findIdx (·.status = .free)]? = some slot) :
    ∃ old ∈ registry.pending, old.status = .free ∧ slot =
      (old.requested (registry.globalIdCounter + 1) username destUser).spilled filename := by
  obtain ⟨full, same⟩ | ⟨before, old, after, split, idle, index, -, taken, -, pending, same⟩ :=
    registry.createRequest_split filename destUser username
  · have beyond : registry.pending.findIdx (·.status = .free) = registry.pending.length :=
      List.findIdx_eq_length.mpr fun slot member => by simpa using full slot member
    rw [same, beyond, List.getElem?_eq_none (Nat.le_refl _)] at found
    cases found
  · obtain ⟨later, stored⟩ := taken.storeFilename_split before pending filename
    rw [same, index, stored] at found
    exact ⟨old, by simp [split], idle, by simpa using found.symm⟩

/-- A request fills a slot if one can be taken. -/
theorem SharedRegistry.HasRoom.slot_createRequest {registry : SharedRegistry}
    (room : registry.HasRoom) (filename destUser username : List UInt8) :
    ∃ old : TransferRequest, (registry.createRequest filename destUser username).2.pending[
      registry.pending.findIdx (·.status = .free)]? =
        some ((old.requested (registry.globalIdCounter + 1) username destUser).spilled
          filename) := by
  obtain ⟨full, -⟩ | ⟨before, old, after, split, idle, index, -, taken, -, pending, same⟩ :=
    registry.createRequest_split filename destUser username
  · obtain ⟨slot, member, idle⟩ := room
    exact absurd idle (full slot member)
  · obtain ⟨later, stored⟩ := taken.storeFilename_split before pending filename
    exact ⟨old, by simp [same, index, stored]⟩

/-- The name is what the session and the row of the user read as after a login, and what the
slots of all requests from that session and to that user read as. -/
def StoredFaithfully (username : List UInt8) : Prop :=
  ∀ (login : HandlerCall) (answers : HandlerAnswers) (registry : SharedRegistry)
    (session : ClientSession), login.Admitted answers username →
    let run := (handleLogin login).runOn answers.serve registry
    run.value = some session →
      session.usernameText = username ∧
      (∀ index, registry.onlineUsers.findIdx? (·.isActive = 0) = some index →
        run.world.onlineUsers[index]?.map UserEntry.usernameText = some username) ∧
      ∀ (request : HandlerCall) (later : SharedRegistry) (filename destUser : List UInt8)
        (slot : TransferRequest), request.Requests later filename destUser →
        ((handleTransferRequest request).runOn answers.serve later).world.pending[
            later.pending.findIdx (·.status = .free)]? = some slot →
          (request.session = session → slot.senderText = username) ∧
            (destUser = username → slot.receiverText = username)

/-- An accepted name is stored faithfully exactly if it is shorter than the fields for it. -/
theorem storedFaithfully_iff {username : List UInt8}
    (valid : isUsernameValid (some username) = true) :
    StoredFaithfully username ↔ username.length < maxUsernameLen := by
  have clean := nulFree_of_isUsernameValid valid
  constructor
  · intro faithful
    let login : HandlerCall := ⟨1, [⟨0, str "login"⟩, ⟨6, username⟩], [], fun _ => 0,
      MsgHeader.layout.decode [], .zero⟩
    have fresh : ClientSession.zero.state ≠ .loggedIn := by decide
    have odd : ¬ (1 : UInt32).toNat % 256 = 0 := by decide
    have admitted : login.Admitted willing username := ⟨fresh, ⟨_, rfl⟩, valid, rfl, rfl⟩
    obtain ⟨-, value, world⟩ := runOn_handleLogin_admitted login willing initSharedRegistry admitted
    have row := (faithful login willing initSharedRegistry _ admitted value).2.1 0 rfl
    rw [world, row_insertOnlineUser rfl, Option.map_some, Option.some.injEq,
      usernameText_filled valid] at row
    exact row.resolve_right odd
  · intro short login answers registry session admitted run value
    obtain ⟨-, result, world⟩ := runOn_handleLogin_admitted login answers registry admitted
    obtain rfl := Option.some.inj (result.symm.trans value)
    have text : (login.session.login
        (answers (.sendHelperRequest (.plain .login [username] none))).res username).usernameText =
        username := CharArray.cString_strncpy clean short _
    refine ⟨text, fun index first => ?_, fun request later filename destUser slot requests found =>
      ⟨fun same => ?_, fun same => ?_⟩⟩
    · rw [world, row_insertOnlineUser first, Option.map_some, Option.some.injEq,
        usernameText_filled valid]
      exact Or.inl short
    · rw [world_handleTransferRequest request answers later requests, same, text] at found
      obtain ⟨old, -, -, rfl⟩ := slot_createRequest found
      exact CharArray.cString_snprintf _ clean short _
    · rw [world_handleTransferRequest request answers later requests, same] at found
      obtain ⟨old, -, -, rfl⟩ := slot_createRequest found
      exact CharArray.cString_snprintf _ clean short _

/-- A short name is stored faithfully. -/
theorem storedFaithfully_alice : StoredFaithfully (str "alice") :=
  (storedFaithfully_iff (by decide)).mpr (by decide)

/-- A name of twenty letters runs on into the number of the process. -/
theorem not_storedFaithfully_long : ¬ StoredFaithfully (List.replicate 20 97) := by
  intro faithful
  have admitted : (commandCall 1 .zero (str "login " ++ List.replicate 20 97)).Admitted willing
      (List.replicate 20 97) :=
    ⟨by decide, ⟨str "login", by decide +kernel⟩, by decide, rfl, rfl⟩
  obtain ⟨-, value, world⟩ := runOn_handleLogin_admitted _ willing initSharedRegistry admitted
  have row := (faithful _ willing initSharedRegistry _ admitted value).2.1 0 rfl
  rw [world, row_insertOnlineUser rfl] at row
  revert row
  decide +kernel

/-- The call has done what the transfer needs. -/
def HelperEvent.Works : HelperEvent → Prop
  | ⟨.openFile .., answer⟩ => ∃ fd, answer = .ok fd
  | ⟨.setLock .., answer⟩ => answer = .ok ()
  | ⟨.getpwnam _, answer⟩ => answer ≠ none
  | ⟨.write _ bytes, answer⟩ => ∃ count, answer = .ok count ∧ count.val = bytes.length
  | ⟨.writeResponse _, answer⟩ => answer = true
  | _ => True

/-- The calls of a part of the transfer send no response, and all of them do what the transfer
needs exactly if the part succeeds. -/
def Tells (succeeded : Prop) (events : List HelperEvent) : Prop :=
  (succeeded ↔ ∀ event ∈ events, event.Works) ∧
    ∀ event ∈ events, AccountEnvironment.responseOf event = none

/-- A call that works decides nothing. -/
theorem Tells.works {succeeded : Prop} {event : HelperEvent} {later : List HelperEvent}
    (works : event.Works) (silent : AccountEnvironment.responseOf event = none)
    (tells : Tells succeeded later) : Tells succeeded (event :: later) := by
  refine ⟨tells.1.trans ?_, ?_⟩
  · rw [List.forall_mem_cons, and_iff_right works]
  · rw [List.forall_mem_cons]
    exact ⟨silent, tells.2⟩

/-- A call that does not work decides that the part fails. -/
theorem Tells.fails {succeeded : Prop} {event : HelperEvent} {later : List HelperEvent}
    (breaks : ¬ event.Works) (silent : AccountEnvironment.responseOf event = none)
    (quiet : ∀ event ∈ later, AccountEnvironment.responseOf event = none) (failed : ¬ succeeded) :
    Tells succeeded (event :: later) := by
  refine ⟨iff_of_false failed fun all => breaks (all event List.mem_cons_self), ?_⟩
  rw [List.forall_mem_cons]
  exact ⟨silent, quiet⟩

/-- Calls at the end that cannot fail decide nothing. -/
theorem Tells.append {succeeded : Prop} {events ending : List HelperEvent}
    (tells : Tells succeeded events)
    (idle : ∀ event ∈ ending, event.Works ∧ AccountEnvironment.responseOf event = none) :
    Tells succeeded (events ++ ending) := by
  refine ⟨tells.1.trans ?_, ?_⟩
  · rw [List.forall_mem_append, and_iff_left fun event member => (idle event member).1]
  · rw [List.forall_mem_append]
    exact ⟨tells.2, fun event member => (idle event member).2⟩

/-- The copying loop fails exactly at a block that is not written whole. -/
theorem every_copyFile (destFd : Descriptor) (blocks : Blocks 8192) :
    (copyFile destFd blocks).Every fun events copied => Tells (copied = true) events := by
  induction blocks with
  | nil => simp [copyFile, Tells]
  | cons bytes later ih =>
    intro answer
    match answer with
    | .error failure =>
      refine Tells.fails ?_ rfl (by simp) (by simp)
      rintro ⟨count, same, -⟩
      cases same
    | .ok ⟨count, bound⟩ =>
      show Script.Every _ (if count ≠ bytes.val.length then pure false else copyFile destFd later)
      split
      · rename_i short
        refine Tells.fails ?_ rfl (by simp) (by simp)
        rintro ⟨_, same, all⟩
        cases same
        exact short all
      · rename_i whole
        exact ih.weaken fun events copied tells =>
          tells.works ⟨⟨count, bound⟩, rfl, not_not.mp whole⟩ rfl

/-- The part of the transfer with the destination open. -/
theorem every_transferOpened (srcFd destFd : Descriptor) (recv : List UInt8) :
    (transferOpened srcFd destFd recv).Every fun events result =>
      Tells (result = .ok ()) events := by
  unfold transferOpened
  intro account
  match account with
  | none => exact Tells.fails (by simp [HelperEvent.Works]) rfl (by simp) nofun
  | some pw =>
    intro owned locked
    match locked with
    | .error failure =>
      refine Tells.works (by simp [HelperEvent.Works]) rfl (Tells.works trivial rfl ?_)
      exact Tells.fails (by simp [HelperEvent.Works]) rfl (by simp) nofun
    | .ok _ =>
      intro blocks
      show Script.Every _ (do if ← copyFile destFd blocks then _ else _)
      rw [Script.every_bind]
      refine (every_copyFile destFd blocks).weaken fun events copied tells => ?_
      have before : Tells (copied = true) (⟨.getpwnam recv, some pw⟩ ::
          ⟨.fchown destFd pw.uid pw.gid, owned⟩ :: ⟨.setLock destFd .exclusive, .ok ()⟩ ::
            ⟨.readAgain srcFd 8192, blocks⟩ :: events) :=
        Tells.works (by simp [HelperEvent.Works]) rfl (Tells.works trivial rfl
          (Tells.works rfl rfl (Tells.works trivial rfl tells)))
      cases copied with
      | true => simpa [Tells] using before
      | false => simpa [Tells] using before

/-- The part of the transfer with the source open. -/
theorem every_transferLocked (srcFd : Descriptor) (destFullPath recv : List UInt8) :
    (transferLocked srcFd destFullPath recv).Every fun events result =>
      Tells (result = .ok ()) events := by
  unfold transferLocked
  intro locked
  match locked with
  | .error failure =>
    intro closed
    exact Tells.fails (by simp [HelperEvent.Works]) rfl
      (by simp [AccountEnvironment.responseOf]) nofun
  | .ok _ =>
    intro opened
    match opened with
    | .error failure =>
      intro closed
      refine Tells.works rfl rfl ?_
      exact Tells.fails (by simp [HelperEvent.Works]) rfl
        (by simp [AccountEnvironment.responseOf]) nofun
    | .ok destFd =>
      show Script.Every _ (do
        let copied ← transferOpened srcFd destFd recv
        _)
      rw [Script.every_bind]
      refine (every_transferOpened srcFd destFd recv).weaken fun events copied tells => ?_
      intro closedSrc closedDest
      have ended := @Tells.append _ events [⟨.close srcFd, closedSrc⟩, ⟨.close destFd, closedDest⟩]
        tells (by simp [HelperEvent.Works, AccountEnvironment.responseOf])
      exact Tells.works rfl rfl (Tells.works ⟨destFd, rfl⟩ rfl ended)

/-- The server receives the response of a transfer that has succeeded. -/
def TransferServed (events : List HelperEvent) : Prop :=
  ∃ res, AccountEnvironment.response events = some res ∧ res.status = 0

/-- A response that ends the calls arrives if it is sent. -/
theorem response_append {front : List HelperEvent}
    (silent : ∀ event ∈ front, AccountEnvironment.responseOf event = none)
    (last : HelperEvent) :
    AccountEnvironment.response (front ++ [last]) = AccountEnvironment.responseOf last := by
  unfold AccountEnvironment.response
  rw [List.findSome?_append, List.findSome?_eq_none_iff.mpr silent, Option.none_or]
  simp

/-- The response to a transfer. -/
def transferResponse (res : HelperResponse) : Except (List UInt8) Unit → HelperResponse
  | .error text => res.say text
  | .ok _ => res.succeed (str "Transfer successful")

/-- A transfer is served exactly if neither name has two dots and every call does what the
transfer needs. -/
theorem every_handleHelperTransfer (root sender filename recv targetPath : List UInt8)
    {res : HelperResponse} (fresh : res.status = -1) :
    (handleHelperTransfer root sender filename recv targetPath res).Every fun events _ =>
      TransferServed events ↔ (hasDots targetPath || hasDots filename) = false ∧
        ∀ event ∈ events, HelperEvent.Works event := by
  have ends : ∀ (front : List HelperEvent) (result : Except (List UInt8) Unit) (sent : Bool),
      (∀ event ∈ front, AccountEnvironment.responseOf event = none) →
        (TransferServed (front ++ [⟨.writeResponse (transferResponse res result), sent⟩]) ↔
          result = .ok () ∧ sent = true) := by
    intro front result sent silent
    rw [TransferServed, response_append silent]
    cases sent with
    | false => simp [AccountEnvironment.responseOf]
    | true =>
      cases result with
      | error text =>
        have negative : (res.say text).status ≠ 0 := by
          show res.status ≠ 0
          rw [fresh]
          decide
        simp [AccountEnvironment.responseOf, transferResponse, negative]
      | ok value => exact iff_of_true ⟨_, rfl, rfl⟩ ⟨rfl, rfl⟩
  -- every way through the function is a part that tells, and then the response
  have closes : ∀ (front : List HelperEvent) (result : Except (List UInt8) Unit) (sent : Bool),
      Tells (result = .ok ()) front → (hasDots targetPath || hasDots filename) = false →
        (TransferServed (front ++ [⟨.writeResponse (transferResponse res result), sent⟩]) ↔
          (hasDots targetPath || hasDots filename) = false ∧
            ∀ event ∈ front ++ [⟨.writeResponse (transferResponse res result), sent⟩],
              HelperEvent.Works event) := by
    intro front result sent tells plain
    rw [ends front result sent tells.2, and_iff_right plain, List.forall_mem_append, ← tells.1]
    simp [HelperEvent.Works]
  unfold handleHelperTransfer
  by_cases dots : (hasDots targetPath || hasDots filename) = true
  · simp only [dots, ↓reduceIte]
    intro sent
    have refused := ends [] (.error (str "Security Error: Illegal path characters")) sent (by simp)
    refine iff_of_false (fun served => ?_) (fun all => ?_)
    · exact absurd (refused.mp served).1 nofun
    · exact absurd all.1 (by simp)
  · have plain : (hasDots targetPath || hasDots filename) = false := by simpa using dots
    simp only [if_neg dots]
    intro opened
    match opened with
    | .error failure =>
      intro sent
      exact closes [⟨.openFile _ _ _, .error failure⟩] (.error (str "Source file not found")) sent
        (Tells.fails (by simp [HelperEvent.Works]) rfl (by simp) nofun) plain
    | .ok srcFd =>
      show Script.Every _ (do
        let transferred ← transferLocked srcFd _ recv
        _)
      rw [Script.every_bind]
      refine (every_transferLocked srcFd _ recv).weaken fun events result tells sent => ?_
      exact closes (⟨.openFile _ _ _, .ok srcFd⟩ :: events) result sent
        (Tells.works ⟨srcFd, rfl⟩ rfl tells) plain

/-- An accept that finds nothing leaves the registry alone. -/
theorem acceptRequest_none {registry : SharedRegistry} {reqId : UInt32} {username : List UInt8}
    (missing : (registry.acceptRequest reqId username).1 = none) :
    (registry.acceptRequest reqId username).2 = registry := by
  obtain ⟨-, same⟩ | ⟨before, slot, after, -, -, -, -, same⟩ :=
    updateFirst_cases (·.acceptable reqId username) (·.accepted) registry.pending
  · cases registry
    simp only [SharedRegistry.acceptRequest, SharedRegistry.updateSlot] at same ⊢
    simp only [same]
  · have found : (registry.acceptRequest reqId username).1 = some slot := congrArg Prod.fst same
    rw [missing] at found
    cases found

/-- An accept that finds a request changes the registry. -/
theorem acceptRequest_some {registry : SharedRegistry} {reqId : UInt32} {username : List UInt8}
    {slot : TransferRequest} (found : (registry.acceptRequest reqId username).1 = some slot) :
    (registry.acceptRequest reqId username).2 ≠ registry := by
  obtain ⟨missing, -⟩ | ⟨before, hit, after, split, -, notified, -, -, pending⟩ :=
    registry.acceptRequest_cases reqId username
  · rw [missing] at found
    cases found
  · intro same
    rw [same, split, List.append_cancel_left_eq, List.cons.injEq] at pending
    have free : hit.status = .free := congrArg TransferRequest.status pending.1
    rw [notified] at free
    cases free

/-- An accept finds a request that is offered to the user and notified. -/
structure HandlerCall.Accepts (call : HandlerCall) (registry : SharedRegistry)
    (targetDir : List UInt8) (slot : TransferRequest) : Prop where
  /-- The session is logged in. -/
  loggedIn : call.session.state = .loggedIn
  /-- The directory and the number are the arguments of the command. -/
  found : ∃ name id, call.args = [name, targetDir, id] ∧
    (registry.acceptRequest (atoi id).toUInt32 call.session.usernameText).1 = some slot

section

variable {ω : Type} (call : HandlerCall) (answers : HandlerAnswers) (helper : Helper)
  (calls : ω → (op : HelperOp) → op.Answer × ω) (registry : SharedRegistry) (world : ω)

/-- A reply with an error leaves the registry as it was before the command. -/
def KeepsFailedAccept : Prop :=
  let run := (handleAcceptTransfer call).runOn (answers.serveWith helper calls) (registry, world)
  ∀ status msg, ⟨.sendProtocolMsg .text status msg, ()⟩ ∈ run.events → status ≠ 0 →
    run.world.1 = registry

/-- The run of the helper for a request that is accepted. -/
def transferRun (targetDir : List UInt8) (slot : TransferRequest) :
    Script.Execution HelperOp HelperOp.Answer HelperOutcome ω :=
  (handleHelperTransfer helper.rootDir slot.senderText slot.filenameText
    call.session.usernameText targetDir (.blank HelperCommand.transfer.toWord)).runOn calls world

/-- The request for it. -/
def transferRequested (targetDir : List UInt8) (slot : TransferRequest) : HelperRequest :=
  .plain .transfer [slot.senderText, slot.filenameText, call.session.usernameText, targetDir] none

/-- The helper is reached, the request can be sent and its response be read, neither name has two dots,
and every call of the helper does what the transfer needs. -/
def TransferGoesThrough (targetDir : List UInt8) (slot : TransferRequest) : Prop :=
  (answers .connectToHelper = true ∧
    (answers (.sendHelperRequest (transferRequested call targetDir slot))).carries = true) ∧
    (hasDots targetDir || hasDots slot.filenameText) = false ∧
    ∀ event ∈ (transferRun call helper calls world targetDir slot).events,
      HelperEvent.Works event

/-- The answer of the helper to a request that is accepted. -/
theorem status_transfer (after : SharedRegistry) (targetDir : List UInt8)
    (slot : TransferRequest) :
    (answers.serveWith helper calls (after, world)
        (.sendHelperRequest (transferRequested call targetDir slot))).1.status = 0 ↔
      (answers (.sendHelperRequest (transferRequested call targetDir slot))).carries = true ∧
        TransferServed (transferRun call helper calls world targetDir slot).events := by
  let request := transferRequested call targetDir slot
  have run : transferRun call helper calls world targetDir slot =
      (helper.serve request.call).runOn calls world := rfl
  show ((answers (.sendHelperRequest request)).carry
    ((helper.serve request.call).runOn calls world) world).1.status = 0 ↔
      (answers (.sendHelperRequest request)).carries = true ∧ _
  unfold TransferServed HelperAnswer.carry
  rw [run]
  cases answers (.sendHelperRequest request) with
  | unsent res => simp [HelperAnswer.status, HelperAnswer.carries]
  | failed res => simp [HelperAnswer.status, HelperAnswer.carries]
  | answered res =>
    cases arrived : AccountEnvironment.response
        ((helper.serve request.call).runOn calls world).events with
    | some sent => simp [HelperAnswer.status, HelperAnswer.carries]
    | none => simp [HelperAnswer.status]

/-- The reply to an accept that finds a request: the status is zero if the helper has been reached, has
served the transfer and has been heard. -/
theorem runOn_handleAcceptTransfer {targetDir : List UInt8} {slot : TransferRequest}
    (accepts : call.Accepts registry targetDir slot) :
    let run := (handleAcceptTransfer call).runOn (answers.serveWith helper calls) (registry, world)
    run.world.1 ≠ registry ∧
      ((∀ status msg, ⟨.sendProtocolMsg .text status msg, ()⟩ ∈ run.events → status = 0) ↔
        answers .connectToHelper = true ∧
          (answers (.sendHelperRequest (transferRequested call targetDir slot))).carries = true ∧
          TransferServed (transferRun call helper calls world targetDir slot).events) := by
  obtain ⟨name, id, args, found⟩ := accepts.found
  have changed := acceptRequest_some found
  have enters : answers.serveWith helper calls (registry, world)
      (.enter (.acceptRequest (atoi id).toUInt32 call.session.usernameText)) =
      ((registry.acceptRequest (atoi id).toUInt32 call.session.usernameText).1,
        (registry.acceptRequest (atoi id).toUInt32 call.session.usernameText).2, world) := rfl
  let after := (registry.acceptRequest (atoi id).toUInt32 call.session.usernameText).2
  have answered : ((answers.serveWith helper calls (after, world)
      (.sendHelperRequest (transferRequested call targetDir slot))).2.1 = after) := rfl
  have status := status_transfer call answers helper calls world after targetDir slot
  have connects : answers.serveWith helper calls (after, world) .connectToHelper =
      (answers .connectToHelper, after, world) := rfl
  have replies : ∀ (other : HandlerCall) (status : Int32) (msg : List UInt8)
      (state : SharedRegistry × ω), (other.reply status msg).runOn
        (answers.serveWith helper calls) state =
          ⟨[⟨.sendProtocolMsg .text status msg, ()⟩], some other.session, state⟩ :=
    fun other status msg state => rfl
  unfold handleAcceptTransfer HandlerCall.loggedIn HandlerCall.relay HandlerCall.askHelper
  simp only [accepts.loggedIn, ne_eq, not_true_eq_false, ↓reduceIte, args, Script.runOn_bind,
    Script.runOn_perform, enters, found]
  rcases Bool.eq_false_or_eq_true (answers .connectToHelper) with connected | unreachable
  · simp only [Script.runOn_bind, Script.runOn_perform, after, connects, connected, ↓reduceIte,
      replies]
    refine ⟨fun same => changed (answered.symm.trans same), ?_⟩
    rw [true_and, ← status]
    constructor
    · intro zero
      exact zero _ _ (List.mem_append_right _ (List.mem_append_right _
        (List.mem_append_right _ (List.mem_singleton.mpr rfl))))
    · intro zero status msg member
      simp only [List.cons_append, List.nil_append, List.mem_cons, List.not_mem_nil, or_false,
        Sigma.mk.injEq, reduceCtorEq, false_and, false_or, HandlerOp.sendProtocolMsg.injEq] at member
      rw [member.1.2.1]
      exact zero
  · simp only [after, connects, unreachable, Bool.false_eq_true, ↓reduceIte, replies, false_and,
      iff_false]
    refine ⟨changed, fun zero => ?_⟩
    have negative := zero _ _ (List.mem_append_right _ (List.mem_append_right _
      (List.mem_singleton.mpr rfl)))
    revert negative
    decide

/-- Without a request to accept the registry is left alone. -/
theorem world_handleAcceptTransfer_refused
    (refused : ∀ targetDir slot, ¬ call.Accepts registry targetDir slot) :
    ((handleAcceptTransfer call).runOn (answers.serveWith helper calls)
      (registry, world)).world.1 = registry := by
  unfold handleAcceptTransfer HandlerCall.loggedIn
  by_cases serves : call.session.state = .loggedIn
  · simp only [serves, ne_eq, not_true_eq_false, ↓reduceIte]
    split
    · rename_i name targetDir id args
      cases found : (registry.acceptRequest (atoi id).toUInt32 call.session.usernameText).1 with
      | some slot => exact absurd ⟨serves, name, id, args, found⟩ (refused targetDir slot)
      | none =>
        have enters : answers.serveWith helper calls (registry, world)
            (.enter (.acceptRequest (atoi id).toUInt32 call.session.usernameText)) =
            (none, registry, world) :=
          Prod.ext found (Prod.ext (acceptRequest_none found) rfl)
        simp only [Script.runOn_bind, Script.runOn_perform, enters]
        rfl
    · rfl
  · simp only [serves, ne_eq, not_false_eq_true, ↓reduceIte]
    rfl

/-- The helper serves a transfer exactly if it goes through. -/
theorem transferGoesThrough_iff (targetDir : List UInt8) (slot : TransferRequest) :
    TransferGoesThrough call answers helper calls world targetDir slot ↔
      answers .connectToHelper = true ∧
        (answers (.sendHelperRequest (transferRequested call targetDir slot))).carries = true ∧
        TransferServed (transferRun call helper calls world targetDir slot).events := by
  have fresh : (HelperResponse.blank HelperCommand.transfer.toWord).status = -1 := rfl
  have served : TransferServed (transferRun call helper calls world targetDir slot).events ↔
      (hasDots targetDir || hasDots slot.filenameText) = false ∧
        ∀ event ∈ (transferRun call helper calls world targetDir slot).events,
          HelperEvent.Works event :=
    (every_handleHelperTransfer helper.rootDir slot.senderText slot.filenameText
      call.session.usernameText targetDir fresh).runOn calls world
  rw [TransferGoesThrough, served, and_assoc]

/-- An accept that keeps its request on failure has a transfer that goes through. -/
theorem KeepsFailedAccept.goesThrough
    {call : HandlerCall} {answers : HandlerAnswers} {helper : Helper}
    {calls : ω → (op : HelperOp) → op.Answer × ω} {registry : SharedRegistry} {world : ω}
    (keeps : KeepsFailedAccept call answers helper calls registry world)
    {targetDir : List UInt8} {slot : TransferRequest}
    (accepts : call.Accepts registry targetDir slot) :
    TransferGoesThrough call answers helper calls world targetDir slot := by
  obtain ⟨changed, replies⟩ := runOn_handleAcceptTransfer call answers helper calls registry
    world accepts
  rw [transferGoesThrough_iff, ← replies]
  intro status msg member
  by_contra failed
  exact changed (keeps status msg member failed)

/-- A failed accept keeps its request exactly if it finds none, or the transfer goes through. -/
theorem keepsFailedAccept_iff :
    KeepsFailedAccept call answers helper calls registry world ↔
      ∀ targetDir slot, call.Accepts registry targetDir slot →
        TransferGoesThrough call answers helper calls world targetDir slot := by
  constructor
  · exact fun keeps targetDir slot accepts => keeps.goesThrough accepts
  · intro goes status msg member failed
    by_cases accepts : ∃ targetDir slot, call.Accepts registry targetDir slot
    · obtain ⟨targetDir, slot, accepts⟩ := accepts
      obtain ⟨-, replies⟩ := runOn_handleAcceptTransfer call answers helper calls registry world
        accepts
      have through := (transferGoesThrough_iff call answers helper calls world targetDir slot).mp
        (goes targetDir slot accepts)
      exact absurd (replies.mpr through status msg member) failed
    · exact world_handleAcceptTransfer_refused call answers helper calls registry world
        fun targetDir slot found => accepts ⟨targetDir, slot, found⟩

end

/-- The registry after a request of one user to the other, who has been notified. -/
def notifiedRegistry : SharedRegistry :=
  (((initSharedRegistry.insertOnlineUser (str "bob") 7).insertOnlineUser (str "alice") 9
    |>.createRequest (str "notes") (str "bob") (str "alice")).2.checkForNotifications
      (str "bob")).2

/-- An accept into a directory that the helper refuses loses the request. -/
theorem not_keepsFailedAccept_dots :
    ¬ KeepsFailedAccept (commandCall 7 bobSession (str "accept .. 1")) willing srvHelper calmSystem
      notifiedRegistry initSharedRegistry := by
  intro keeps
  have args : (commandCall 7 bobSession (str "accept .. 1")).args =
      [str "accept", str "..", str "1"] := by decide +kernel
  have found : ∃ slot, (notifiedRegistry.acceptRequest (atoi (str "1")).toUInt32
      bobSession.usernameText).1 = some slot := by
    rw [← Option.isSome_iff_exists]
    decide +kernel
  obtain ⟨slot, found⟩ := found
  have accepts : (commandCall 7 bobSession (str "accept .. 1")).Accepts notifiedRegistry (str "..")
      slot := ⟨rfl, ⟨_, _, args, found⟩⟩
  have through := keeps.goesThrough accepts
  have plain := through.2.1
  have dots : hasDots (str "..") = true := by decide
  rw [dots, Bool.true_or] at plain
  cases plain

end FileServer
