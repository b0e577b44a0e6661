import FileServer.Verif.Sandboxes
import FileServer.Verif.TransferPaths
import Mathlib.Data.List.TakeDrop

/-!
# The source of a transfer

The file that an accepted transfer copies, against the file that READ and DOWNLOAD of the same name
open in the session of the sender. These start from the home and the current directory of the
session; the transfer starts from the directory of the user name below the root directory of the
server, and takes both names from the slot of the request.
-/
namespace FileServer

open FileServer.Lib

/-- The root and the current directory of the helper after a call. -/
def viewAfter (view : View) : HelperEvent → View
  | ⟨.chroot path, answer⟩ => if answer then ⟨view.resolve path, view.cwd⟩ else view
  | ⟨.chdir path, answer⟩ =>
    match answer with
    | .ok _ => ⟨view.root, view.resolve path⟩
    | .error _ => view
  | _ => view

/-- The places of the files that the calls open for reading. -/
def sources (view : View) : List HelperEvent → List Location
  | [] => []
  | event :: later =>
    let rest := sources (viewAfter view event) later
    match event with
    | ⟨.openFile path flags _, _⟩ =>
      if flags.access = .readOnly then view.resolve path :: rest else rest
    | _ => rest

/-- A script of a helper that has the root of the system opens no file for reading but that of the
place. -/
def ReadsFrom (script : HelperScript HelperOutcome) (place : Location) : Prop :=
  ∀ cwd, script.Every fun events _ => ∀ found ∈ sources ⟨[], cwd⟩ events, found = place

/-- The call opens nothing for reading. -/
def HelperOp.ReadsNothing : HelperOp → Prop
  | openFile _ flags _ => flags.access ≠ .readOnly
  | _ => True

/-- A call that copies opens nothing for reading. -/
theorem HelperOp.readsNothing_of_copies (op : HelperOp) (copies : op.copies = true) :
    op.ReadsNothing := by
  cases op with
  | openFile path flags mode => cases copies
  | _ => trivial

/-- A write to the server opens nothing for reading. -/
theorem HelperOp.readsNothing_of_toServer (op : HelperOp)
    (writes : op.toServer = true ∧ op.measures = false) : op.ReadsNothing := by
  cases op with
  | openFile path flags mode => exact absurd writes.1 Bool.false_ne_true
  | _ => trivial

/-- Calls that open nothing for reading have no sources. -/
theorem sources_nil {events : List HelperEvent}
    (idle : ∀ event ∈ events, HelperOp.ReadsNothing event.1) (view : View) :
    sources view events = [] := by
  induction events generalizing view with
  | nil => rfl
  | cons event later ih =>
    have rest := ih (fun other member => idle other (List.mem_cons_of_mem event member))
      (viewAfter view event)
    have here := idle event List.mem_cons_self
    obtain ⟨op, answer⟩ := event
    cases op with
    | openFile path flags mode =>
      have writes : flags.access ≠ .readOnly := here
      simp [sources, writes, rest]
    | _ => exact rest

/-- A file opened for reading is the only source if nothing else is opened for reading after it. -/
theorem every_opened {place : Location} {view : View} {path : List UInt8} {flags : OpenFlags}
    {mode : UInt32} {answer : (HelperOp.openFile path flags mode).Answer}
    {rest : HelperScript HelperOutcome} (names : view.resolve path = place)
    (idle : rest.Only HelperOp.ReadsNothing) :
    rest.Every fun events _ =>
      ∀ found ∈ sources view (⟨.openFile path flags mode, answer⟩ :: events), found = place := by
  refine idle.every.weaken fun events _ quiet found member => ?_
  have none : sources (viewAfter view ⟨.openFile path flags mode, answer⟩) events = [] :=
    sources_nil quiet _
  simp only [sources, none] at member
  split at member
  · rw [List.mem_singleton.mp member, names]
  · exact absurd member List.not_mem_nil

/-- A script that opens nothing for reading has no sources. -/
theorem every_readsNothing {place : Location} {view : View} {script : HelperScript HelperOutcome}
    (idle : script.Only HelperOp.ReadsNothing) :
    script.Every fun events _ => ∀ found ∈ sources view events, found = place := by
  refine idle.every.weaken fun events _ quiet found member => ?_
  rw [sources_nil quiet] at member
  exact absurd member List.not_mem_nil

/-- The call opens no file and leaves the root and the current directory. -/
def HelperOp.Steady : HelperOp → Prop
  | openFile .. | chroot _ | chdir _ => False
  | _ => True

/-- Steady calls have no part in the sources. -/
theorem sources_steady {before : List HelperEvent}
    (steady : ∀ event ∈ before, HelperOp.Steady event.1) (view : View) (after : List HelperEvent) :
    sources view (before ++ after) = sources view after := by
  induction before with
  | nil => rfl
  | cons event later ih =>
    have rest := ih fun other member => steady other (List.mem_cons_of_mem event member)
    have here := steady event List.mem_cons_self
    obtain ⟨op, answer⟩ := event
    cases op with
    | openFile path flags mode => exact here.elim
    | chroot path => exact here.elim
    | chdir path => exact here.elim
    | _ => exact rest

/-- The root and the current directory that a session gives to the helper. -/
def sessionView (session : ClientSession) (cwd : Location) : View :=
  let inHome : View := ⟨View.resolve ⟨[], cwd⟩ session.homeText, cwd⟩
  ⟨inHome.root, inHome.resolve session.workdirText⟩

/-- A command in the sandbox of a session reads from a place if the command itself does, and if it
reads nothing where the sandbox fails. -/
theorem readsFrom_inHome {session : ClientSession} {place : Location}
    {inner other : HelperScript HelperOutcome} (refuses : other.Only HelperOp.ReadsNothing)
    (reads : ∀ cwd, inner.Every fun events _ =>
      ∀ found ∈ sources (sessionView session cwd) events, found = place) :
    ReadsFrom (do if ← sandboxUserToHisHome session then inner else other) place := by
  intro cwd chrooted
  match chrooted with
  | false => exact every_readsNothing refuses
  | true =>
    intro entered
    match entered with
    | .error failure => exact every_readsNothing refuses
    | .ok _ =>
      show Script.Every _ (do if ← dropPrivilegesTemp session then inner else other)
      have goes : ∀ granted : Bool, (if granted then inner else other).Every fun events _ =>
          ∀ found ∈ sources (sessionView session cwd) events, found = place := by
        intro granted
        cases granted with
        | false => exact every_readsNothing refuses
        | true => exact reads cwd
      have steady : (dropPrivilegesTemp session).Only HelperOp.Steady :=
        only_dropPrivilegesTemp session trivial (fun _ _ => trivial) (fun _ => trivial)
          fun _ => trivial
      refine Script.Every.after steady ?_ goes
      intro before after value steady holds found member
      refine holds found ?_
      show found ∈ sources (sessionView session cwd) after
      rw [← sources_steady steady]
      exact member

/-- A file is unlocked without being opened. -/
theorem readsNothing_unlockFile (fd : Descriptor) : (unlockFile fd).Only HelperOp.ReadsNothing :=
  .call trivial fun _ => (Script.only_perform _).mpr trivial

/-- A file is read without being opened again. -/
theorem readsNothing_readLocked (lockFd : Descriptor) (offset : Int32) :
    (readLocked lockFd offset).Only HelperOp.ReadsNothing := by
  refine .call trivial fun found => ?_
  match found with
  | .error text => trivial
  | .ok st =>
    by_cases irregular : st.type ≠ .regular
    · simp only [if_pos irregular]
      trivial
    · simp only [if_neg irregular]
      by_cases beyond : offset.toInt > st.size
      · simp only [if_pos beyond]
        trivial
      · simp only [if_neg beyond]
        refine .call trivial fun sought => ?_
        match sought with
        | .error text => trivial
        | .ok _ =>
          refine .call trivial fun bytes => ?_
          match bytes with
          | .error text => trivial
          | .ok bytes => trivial

section

variable {session : ClientSession} {path : List UInt8} {place : Location}

/-- READ opens the file that the path names in the session. -/
theorem readsFrom_handleHelperRead (names : ∀ cwd, (sessionView session cwd).resolve path = place)
    (offset : Int32) (res : HelperResponse) :
    ReadsFrom (handleHelperRead session path offset res) place := by
  refine readsFrom_inHome (.call trivial fun _ => trivial) ?_
  intro cwd opened
  match opened with
  | .error failure => exact every_opened (names cwd) (only_regainAndRespond _ trivial trivial trivial)
  | .ok fd =>
    refine every_opened (names cwd) (.call trivial fun locked => ?_)
    match locked with
    | .error failure => exact .call trivial fun _ => only_regainAndRespond _ trivial trivial trivial
    | .ok _ =>
      show Script.Only _ (readLocked fd offset >>= _)
      refine Script.Only.bind (readsNothing_readLocked fd offset) fun found => ?_
      refine Script.Only.bind (readsNothing_unlockFile fd) fun _ => ?_
      match found with
      | .error text => exact only_regainAndRespond _ trivial trivial trivial
      | .ok bytes =>
        refine Script.Only.bind (only_regainRoot trivial trivial) fun regained => ?_
        cases regained with
        | false => trivial
        | true =>
          refine .call trivial fun _ => ?_
          show Script.Only _ (if 0 < UInt32.ofNat bytes.val.length then _ else _)
          split
          · exact .call trivial fun _ => trivial
          · trivial

/-- READ opens no other file. -/
theorem resolve_of_readsFrom {offset : Int32} {res : HelperResponse}
    (reads : ReadsFrom (handleHelperRead session path offset res) place) (cwd : Location) :
    (sessionView session cwd).resolve path = place :=
  reads cwd true (.ok ()) 0 true true true (.error []) false _ List.mem_cons_self

/-- DOWNLOAD opens the file that the path names in the session. -/
theorem readsFrom_handleHelperDownload
    (names : ∀ cwd, (sessionView session cwd).resolve path = place) (res : HelperResponse) :
    ReadsFrom (handleHelperDownload session path res) place := by
  have ends : ∀ fd, (endTransfer fd).Only HelperOp.ReadsNothing :=
    fun fd => only_endTransfer fd trivial trivial trivial trivial
  refine readsFrom_inHome (.call trivial fun _ => trivial) ?_
  intro cwd opened
  match opened with
  | .error failure => exact every_opened (names cwd) (.call trivial fun _ => trivial)
  | .ok fd =>
    refine every_opened (names cwd) (.call trivial fun locked => ?_)
    match locked with
    | .error failure => exact .call trivial fun _ => ends fd
    | .ok _ =>
      refine .call trivial fun found => ?_
      match found with
      | .error failure => exact .call trivial fun _ => ends fd
      | .ok ⟨.directory, mode, size⟩ => exact .call trivial fun _ => ends fd
      | .ok ⟨.link, mode, size⟩ => exact .call trivial fun _ => ends fd
      | .ok ⟨.other, mode, size⟩ => exact .call trivial fun _ => ends fd
      | .ok ⟨.regular, mode, size⟩ =>
        refine .call trivial fun written => ?_
        cases written with
        | false => exact ends fd
        | true =>
          refine .call trivial fun blocks => ?_
          have streams : (streamToServer blocks).Only HelperOp.ReadsNothing :=
            (only_streamToServer blocks).weaken HelperOp.readsNothing_of_toServer
          exact Script.Only.bind streams fun _ => ends fd

end

section

variable {root sender filename : List UInt8} {place : Location}

/-- A transfer of a name without two dots opens the file that the path in its array names. -/
theorem readsFrom_handleHelperTransfer
    (names : ∀ cwd, View.resolve ⟨[], cwd⟩
      (formatted 512 (root ++ str "/" ++ sender ++ str "/" ++ filename)) = place)
    (recv targetPath : List UInt8) (res : HelperResponse) :
    ReadsFrom (handleHelperTransfer root sender filename recv targetPath res) place := by
  have copies := HelperOp.readsNothing_of_copies
  intro cwd
  unfold handleHelperTransfer
  by_cases dots : (hasDots targetPath || hasDots filename) = true
  · simp only [dots, ↓reduceIte]
    exact every_readsNothing (.call trivial fun _ => trivial)
  · simp only [if_neg dots]
    intro opened
    match opened with
    | .error failure => exact every_opened (names cwd) (.call trivial fun _ => trivial)
    | .ok srcFd =>
      refine every_opened (names cwd) ?_
      show Script.Only _ (transferLocked srcFd _ recv >>= _)
      refine Script.Only.bind (only_transferLocked copies srcFd recv ?_) fun transferred => ?_
      · exact AccessMode.noConfusion
      · exact .call trivial fun _ => trivial

/-- It opens no other file. -/
theorem resolve_of_readsFrom_transfer {recv : List UInt8} {res : HelperResponse}
    (plain : hasDots filename = false)
    (reads : ReadsFrom (handleHelperTransfer root sender filename recv [] res) place)
    (cwd : Location) :
    View.resolve ⟨[], cwd⟩ (formatted 512 (root ++ str "/" ++ sender ++ str "/" ++ filename)) =
      place := by
  have target : hasDots [] = false := by decide
  unfold handleHelperTransfer at reads
  simp only [target, plain, Bool.false_or, Bool.false_eq_true, ↓reduceIte] at reads
  exact reads cwd (.error []) false _ List.mem_cons_self

end

/-- The slot of a request after the handler of a user has looked for notices. -/
def TransferRequest.visited (slot : TransferRequest) (username : List UInt8) : TransferRequest :=
  (visitSlot username slot).1

/-- A slot that can be accepted has been pending or notified, and is the same but for that. -/
theorem TransferRequest.visited_acceptable {slot : TransferRequest} {reqId : UInt32}
    {username : List UInt8} (offered : (slot.visited username).acceptable reqId username = true) :
    (slot.status = .pending ∨ slot.status = .notified) ∧
      slot.visited username = { slot with status := .notified } := by
  have notified : (slot.visited username).status = .notified := by
    simp only [acceptable, decide_eq_true_eq] at offered
    exact offered.2.1
  unfold visited visitSlot at notified ⊢
  split at notified
  · rename_i pending
    exact ⟨Or.inl pending.1, by rw [if_pos pending]⟩
  · rename_i other
    split at notified
    · cases notified
    · rename_i kept
      rw [if_neg other, if_neg kept]
      refine ⟨Or.inr notified, ?_⟩
      rw [← notified]

section

variable {filename destUser username : List UInt8} (old : TransferRequest) (id : UInt32)

/-- The slot that a request fills. -/
def requestSlot (old : TransferRequest) (id : UInt32) (filename destUser username : List UInt8) :
    TransferRequest :=
  (old.requested id username destUser).spilled filename

/-- The request stays on offer: its name fits the field, or it leaves a status of an offer behind
it. -/
def StaysOffered (filename : List UInt8) : Prop :=
  filename.length < filenameSize ∨ filename.drop filenameSize = [1] ∨
    filename.drop filenameSize = [2]

/-- The slot of a request that stays on offer is pending or notified. -/
theorem status_requestSlot (clean : NulFree filename) :
    (requestSlot old id filename destUser username).status = .pending ∨
        (requestSlot old id filename destUser username).status = .notified ↔
      StaysOffered filename := by
  unfold requestSlot StaysOffered
  rcases Nat.lt_or_ge filename.length filenameSize with short | long
  · rw [TransferRequest.spilled_short short]
    exact iff_of_true (Or.inl rfl) (Or.inl short)
  · obtain ⟨pending, notified⟩ := TransferRequest.status_spilled_long clean long
      (old.requested id username destUser) rfl
    rw [pending, notified, or_iff_right (Nat.not_lt.mpr long)]

/-- The name of the file in an accepted request. -/
def acceptedName (filename : List UInt8) : List UInt8 :=
  if filename.length < filenameSize then filename else filename.take filenameSize ++ [2]

/-- The name of the file, read from the slot of a request that is accepted. -/
theorem filenameText_requestSlot (clean : NulFree filename) :
    TransferRequest.filenameText
        { requestSlot old id filename destUser username with status := .notified } =
      acceptedName filename := by
  unfold requestSlot acceptedName
  by_cases short : filename.length < filenameSize
  · rw [if_pos short, TransferRequest.spilled_short short]
    exact CharArray.cString_snprintf _ clean short _
  · have long : filenameSize ≤ filename.length := Nat.le_of_not_lt short
    have front : NulFree (filename.take filenameSize) :=
      fun member => clean (List.mem_of_mem_take member)
    have width : (filename.take filenameSize).length = filenameSize := List.length_take_of_le long
    have field : ((old.requested id username destUser).spilled filename).filename.bytes =
        filename.take filenameSize := by
      show (CharArray.ofBytes filenameSize
        ((old.requested id username destUser).spill filename)).bytes = _
      rw [TransferRequest.spill_long long, CharArray.ofBytes_of_le, List.take_left' width]
      rw [List.length_append, width]
      exact Nat.le_add_right _ _
    have status : TransferStatus.layout.encode .notified = [2, 0, 0, 0] := by decide
    have ended : cString [2, 0, 0, 0] = [2] := by decide
    rw [if_neg short]
    show cString (((old.requested id username destUser).spilled filename).filename.bytes ++
      TransferStatus.layout.encode .notified) = _
    rw [field, status, cString_append front, ended]

/-- The name of the sender, read from the slot. -/
theorem senderText_requestSlot (own : NulFree username) :
    TransferRequest.senderText
        { requestSlot old id filename destUser username with status := .notified } =
      username.take (maxUsernameLen - 1) := by
  have kept : NulFree (username.take (maxUsernameLen - 1)) :=
    fun member => own (List.mem_of_mem_take member)
  show cString ((old.sender.snprintf username (by decide)).bytes ++ _) = _
  rw [CharArray.cString_snprintf_take, cString_of_nulFree kept]

/-- What is read from the slot of a request that is accepted. -/
theorem texts_requestSlot {old : TransferRequest} {id reqId : UInt32} {receiver : List UInt8}
    (clean : NulFree filename) (own : NulFree username)
    (accepted : ((requestSlot old id filename destUser username).visited receiver).acceptable
      reqId receiver = true) :
    StaysOffered filename ∧
      ((requestSlot old id filename destUser username).visited receiver).senderText =
        username.take (maxUsernameLen - 1) ∧
      ((requestSlot old id filename destUser username).visited receiver).filenameText =
        acceptedName filename := by
  obtain ⟨status, same⟩ := TransferRequest.visited_acceptable accepted
  rw [same]
  exact ⟨(status_requestSlot old id clean).mp status, senderText_requestSlot old id own,
    filenameText_requestSlot old id clean⟩

/-- A request that stays on offer can be accepted. -/
theorem acceptable_requestSlot (old : TransferRequest) (id : UInt32)
    (destUser username : List UInt8) (clean : NulFree filename) (offered : StaysOffered filename) :
    ∃ reqId receiver, ((requestSlot old id filename destUser username).visited
      receiver).acceptable reqId receiver = true := by
  let slot := requestSlot old id filename destUser username
  have receives : ∀ status, TransferRequest.receiverText { slot with status } =
      cString (destUser.take (maxUsernameLen - 1)) :=
    fun status => CharArray.cString_snprintf_take _ _ (by decide) _
  refine ⟨slot.id, slot.receiverText, ?_⟩
  have same : slot.visited slot.receiverText = { slot with status := .notified } := by
    unfold TransferRequest.visited visitSlot
    rcases (status_requestSlot old id clean).mpr offered with pending | notified
    · rw [if_pos ⟨pending, rfl⟩]
    · have waits : slot.status = .notified := notified
      simp only [waits, reduceCtorEq, false_and, ↓reduceIte]
      rw [← waits]
  show (slot.visited slot.receiverText).acceptable slot.id slot.receiverText = true
  rw [same]
  simp only [TransferRequest.acceptable, decide_eq_true_eq, true_and]
  exact (receives _).trans (receives slot.status).symm

end

/-- The session of a sender: it is logged in under a valid name, and its current directory has a path
without detours. -/
structure ClientSession.Sends (session : ClientSession) (helper : Helper) (root : Location)
    (name : List UInt8) (workdir : Location) : Prop where
  /-- The path of the root directory comes from `realpath`. -/
  rootDir : helper.rootDir = root.render
  /-- Its components are names of entries. -/
  properRoot : root.Proper
  /-- The name is accepted. -/
  valid : isUsernameValid (some name) = true
  /-- The name is stored as a login stores it. -/
  username : session.username = .strncpy maxUsernameLen name
  /-- The path of the current directory comes from `getcwd`. -/
  current : session.workdirText = workdir.render
  /-- Its components are names of entries. -/
  properWorkdir : workdir.Proper

/-- The way below a start that a path leads, if no component goes up. -/
def descent (path : List UInt8) : Location :=
  (components path).filter fun part => part ≠ str "."

/-- A path without two dots in a row has no component that goes up. -/
theorem down_of_hasDots {path : List UInt8} (plain : hasDots path = false) :
    str ".." ∉ components path :=
  fun member => of_decide_eq_false plain (infix_of_mem_components member)

section

variable {session : ClientSession} {helper : Helper} {root : Location} {name : List UInt8}
  {workdir : Location}

namespace ClientSession.Sends

/-- The name is one component. -/
theorem components_name (sends : session.Sends helper root name workdir) :
    components name = [name] := by
  obtain ⟨filled, -, letters⟩ := isUsernameValid_iff.mp sends.valid
  exact (Alphabetic.properName letters filled).components

/-- The name in a slot is one component too. -/
theorem properName_take (sends : session.Sends helper root name workdir) :
    ProperName (name.take (maxUsernameLen - 1)) := by
  obtain ⟨filled, -, letters⟩ := isUsernameValid_iff.mp sends.valid
  have shorter : Alphabetic (name.take (maxUsernameLen - 1)) :=
    fun byte member => letters byte (List.mem_of_mem_take member)
  refine shorter.properName fun none => ?_
  rcases List.take_eq_nil_iff.mp none with zero | empty
  · cases zero
  · exact filled empty

/-- With the home that the helper gives to a user, the helper works there. -/
theorem sessionView_eq (sends : session.Sends helper root name workdir)
    (ownHome : session.homeText = helper.homeOf name) (cwd : Location) :
    sessionView session cwd = ⟨root ++ [name], root ++ [name] ++ workdir⟩ := by
  have letters : Alphabetic name := (isUsernameValid_iff.mp sends.valid).2.2
  have slash : str "/" = [47] := rfl
  have absolute := root.isAbsolute_render_append (47 :: name)
  have home : View.resolve ⟨[], cwd⟩ session.homeText = root ++ [name] := by
    have path : session.homeText = root.render ++ 47 :: name := by
      rw [ownHome, Helper.homeOf, sends.rootDir, slash]
      simp
    have single := letters.proper
    rw [sends.components_name] at single
    unfold View.resolve View.origin
    rw [path, absolute, if_pos rfl, components_slash, sends.properRoot.components,
      sends.components_name, Location.walk_append, Location.walk_proper _ _ sends.properRoot,
      Location.walk_proper _ _ single]
    rfl
  unfold sessionView
  simp only [home, sends.current, sends.properWorkdir.resolve]

/-- The name of the sender in a slot is as much of the name as the field has room for. -/
theorem take_usernameText (sends : session.Sends helper root name workdir) :
    session.usernameText.take (maxUsernameLen - 1) = name.take (maxUsernameLen - 1) := by
  have clean := nulFree_of_isUsernameValid sends.valid
  have bound : name.length ≤ maxUsernameLen := (isUsernameValid_iff.mp sends.valid).2.1
  unfold ClientSession.usernameText
  rw [sends.username]
  rcases Nat.lt_or_eq_of_le bound with short | full
  · rw [CharArray.cString_strncpy clean short]
  · have stored : (CharArray.strncpy maxUsernameLen name).bytes = name := by
      rw [CharArray.strncpy, CharArray.ofBytes_of_le full.ge, ← full, List.take_length]
    have inside : maxUsernameLen - 1 ≤ name.length := by omega
    rw [stored, cString_append clean, List.take_append_of_le_length inside]

end ClientSession.Sends

/-- A name without two dots leads below where its lookup starts. -/
theorem resolve_downward (view : View) {filename : List UInt8}
    (plain : hasDots filename = false) :
    view.resolve filename = view.origin filename ++ descent filename :=
  Location.walk_downward _ _ (down_of_hasDots plain)

/-- The place that a transfer opens for the names in its slot. -/
theorem resolve_transferPath {sender filename : List UInt8} (properRoot : root.Proper)
    (rootShort : root.render.length ≤ 63) (letters : Alphabetic sender)
    (senderShort : sender.length ≤ 19) (filenameShort : filename.length ≤ 257)
    (plain : hasDots filename = false) (cwd : Location) :
    View.resolve ⟨[], cwd⟩
        (formatted 512 (root.render ++ str "/" ++ sender ++ str "/" ++ filename)) =
      homeLocation root sender ++ descent filename := by
  rw [formatted_behindHome rootShort senderShort, List.take_of_length_le (by omega),
    resolve_behindHome properRoot letters (down_of_hasDots plain)]
  rfl

/-- A long name that stays on offer is one byte longer than its field. -/
theorem StaysOffered.split {filename : List UInt8} (offered : StaysOffered filename)
    (long : ¬ filename.length < filenameSize) :
    ∃ byte, (byte = 1 ∨ byte = 2) ∧ filename.drop filenameSize = [byte] ∧
      filename = filename.take filenameSize ++ [byte] := by
  have whole := List.take_append_drop filenameSize filename
  rcases offered with short | one | two
  · exact absurd short long
  · exact ⟨1, Or.inl rfl, one, by rw [← one, whole]⟩
  · exact ⟨2, Or.inr rfl, two, by rw [← two, whole]⟩

/-- The name in an accepted request is that of the file, unless its last byte was the status of a
pending request. -/
theorem acceptedName_eq {filename : List UInt8} (offered : StaysOffered filename)
    (other : filename.drop filenameSize ≠ [1]) : acceptedName filename = filename := by
  unfold acceptedName
  by_cases short : filename.length < filenameSize
  · rw [if_pos short]
  · rw [if_neg short]
    obtain ⟨byte, rfl | rfl, rest, whole⟩ := offered.split short
    · exact absurd rest other
    · exact whole.symm

/-- A changed last byte leads elsewhere. -/
theorem append_descent_ne (first second : Location) (front : List UInt8) :
    first ++ descent (front ++ [1]) ≠ second ++ descent (front ++ [2]) := by
  obtain ⟨before, last, ends⟩ := components_append_byte front
  have kept : ∀ byte : UInt8, byte ≠ 46 → byte ≠ 47 → ∃ way, descent (front ++ [byte]) =
      way ++ [last ++ [byte]] := by
    intro byte notDot notSlash
    refine ⟨before.filter fun part => part ≠ str ".", ?_⟩
    have plain : last ++ [byte] ≠ str "." := by
      intro same
      have dot : str "." = [] ++ [46] := rfl
      rw [dot] at same
      exact notDot (List.singleton_inj.mp (List.append_inj' same rfl).2)
    unfold descent
    rw [ends byte notSlash, List.filter_append]
    simp [plain]
  obtain ⟨way, one⟩ := kept 1 (by decide) (by decide)
  obtain ⟨other, two⟩ := kept 2 (by decide) (by decide)
  intro same
  rw [one, two, ← List.append_assoc, ← List.append_assoc] at same
  have final := List.singleton_inj.mp (List.append_inj' same rfl).2
  have differ : (1 : UInt8) = 2 := List.singleton_inj.mp (List.append_cancel_left final)
  exact absurd differ (by decide)

/-- The place below a start and the one that the transfer opens are the same exactly if the start is
the directory of the sender and the name of the file is kept. -/
theorem ClientSession.Sends.places_eq_iff (sends : session.Sends helper root name workdir)
    (start : Location) {filename : List UInt8} (offered : StaysOffered filename) :
    start ++ descent filename =
        homeLocation root (name.take (maxUsernameLen - 1)) ++ descent (acceptedName filename) ↔
      start = root ++ [name.take (maxUsernameLen - 1)] ∧ filename.drop filenameSize ≠ [1] := by
  have cut : homeLocation root (name.take (maxUsernameLen - 1)) =
      root ++ [name.take (maxUsernameLen - 1)] := by
    rw [homeLocation, sends.properName_take.components]
  by_cases last : filename.drop filenameSize = [1]
  · have long : ¬ filename.length < filenameSize := by
      intro short
      rw [List.drop_eq_nil_of_le (Nat.le_of_lt short)] at last
      cases last
    refine iff_of_false ?_ fun kept => kept.2 last
    have whole : filename = filename.take filenameSize ++ [1] := by
      rw [← last, List.take_append_drop]
    unfold acceptedName
    rw [if_neg long]
    intro same
    rw [whole] at same
    rw [List.take_left' (by rw [List.length_take]; omega)] at same
    exact append_descent_ne _ _ _ same
  · rw [acceptedName_eq offered last, cut, List.append_cancel_right_eq]
    exact (and_iff_left last).symm

/-- With the home that the helper gives to a user, the lookup starts in the directory of the sender
exactly if the name of the sender fits its field and the session is in its home or the name of the
file is absolute. -/
theorem ClientSession.Sends.starts_iff (sends : session.Sends helper root name workdir)
    (ownHome : session.homeText = helper.homeOf name) (filename : List UInt8) :
    (∀ cwd, (sessionView session cwd).origin filename =
        root ++ [name.take (maxUsernameLen - 1)]) ↔
      name.length < maxUsernameLen ∧ (isAbsolute filename ∨ workdir = []) := by
  have short : name = name.take (maxUsernameLen - 1) ↔ name.length < maxUsernameLen := by
    rw [eq_comm, List.take_eq_self_iff]
    have size : maxUsernameLen = 20 := rfl
    omega
  have origin : ∀ cwd, (sessionView session cwd).origin filename =
      root ++ name :: if isAbsolute filename then [] else workdir := by
    intro cwd
    rw [sends.sessionView_eq ownHome, View.origin]
    cases isAbsolute filename with
    | true => rfl
    | false => simp
  have start : (if isAbsolute filename then [] else workdir) = [] ↔
      (isAbsolute filename ∨ workdir = []) := by
    cases isAbsolute filename with
    | true => simp
    | false => simp
  simp only [origin, List.append_cancel_left_eq, List.cons.injEq, short, start, forall_const]

end

section

variable (helper : Helper) (call : HandlerCall) (answers : HandlerAnswers)
  (registry : SharedRegistry)

/-- When the request is accepted, the transfer opens the file that READ and DOWNLOAD of the same
name open in the session that has made the request. -/
def CopiesNamedFile : Prop :=
  ∀ (filename destUser : List UInt8) (slot : TransferRequest),
    call.Requests registry filename destUser → hasDots filename = false →
    ((handleTransferRequest call).runOn answers.serve registry).world.pending[
        registry.pending.findIdx (·.status = .free)]? = some slot →
    ∀ (reqId : UInt32) (username : List UInt8),
      let currentReq := slot.visited username
      currentReq.acceptable reqId username = true →
        ∃ place,
          (∀ offset res, ReadsFrom (handleHelperRead call.session filename offset res) place) ∧
          (∀ res, ReadsFrom (handleHelperDownload call.session filename res) place) ∧
          ∀ targetPath res, ReadsFrom (handleHelperTransfer helper.rootDir currentReq.senderText
            currentReq.filenameText username targetPath res) place

variable {helper call answers registry}

/-- The name in an accepted request has no two dots in a row if the name of the file has none. -/
theorem hasDots_acceptedName {filename : List UInt8} (plain : hasDots filename = false) :
    hasDots (acceptedName filename) = false := by
  have none : ¬ str ".." <:+: filename := of_decide_eq_false plain
  unfold acceptedName
  split
  · exact plain
  · refine decide_eq_false fun part => ?_
    rcases List.infix_concat_iff.mp part with behind | inside
    · rcases List.suffix_concat_iff.mp behind with empty | ⟨rest, same, -⟩
      · cases empty
      · have dots : str ".." = [46] ++ [46] := rfl
        rw [dots] at same
        have last : (46 : UInt8) = 2 := List.singleton_inj.mp (List.append_inj' same rfl).2
        exact absurd last (by decide)
    · exact none (inside.trans (List.take_prefix _ _).isInfix)

/-- The name in an accepted request is at most one byte longer than its field. -/
theorem length_acceptedName (filename : List UInt8) : (acceptedName filename).length ≤ 257 := by
  have field : filenameSize = 256 := rfl
  unfold acceptedName
  split
  · omega
  · rw [List.length_append, List.length_take, List.length_singleton]
    omega

/-- The transfer of an accepted request copies the named file exactly if the lookup of its name starts
in the directory of the sender and the name is kept. -/
theorem ClientSession.Sends.copies_iff {root workdir : Location} {name : List UInt8}
    (sends : call.session.Sends helper root name workdir) {filename : List UInt8}
    (plain : hasDots filename = false) (offered : StaysOffered filename)
    (username : List UInt8) :
    (∃ place,
      (∀ offset res, ReadsFrom (handleHelperRead call.session filename offset res) place) ∧
      (∀ res, ReadsFrom (handleHelperDownload call.session filename res) place) ∧
      ∀ targetPath res, ReadsFrom (handleHelperTransfer helper.rootDir
        (name.take (maxUsernameLen - 1)) (acceptedName filename) username targetPath res) place) ↔
    (∀ cwd, (sessionView call.session cwd).origin filename =
        root ++ [name.take (maxUsernameLen - 1)]) ∧ filename.drop filenameSize ≠ [1] := by
  have letters : Alphabetic (name.take (maxUsernameLen - 1)) :=
    fun byte member => (isUsernameValid_iff.mp sends.valid).2.2 byte (List.mem_of_mem_take member)
  have senderShort : (name.take (maxUsernameLen - 1)).length ≤ 19 := by
    rw [List.length_take]
    exact Nat.min_le_left _ _
  have rootShort : root.render.length ≤ 63 := by
    rw [← sends.rootDir]
    exact Nat.le_of_lt_succ helper.short
  have named := fun cwd => resolve_downward (sessionView call.session cwd) plain
  have opened := resolve_transferPath sends.properRoot rootShort letters senderShort
    (length_acceptedName filename) (hasDots_acceptedName plain)
  rw [sends.rootDir]
  constructor
  · rintro ⟨place, reads, -, transfers⟩
    have second := resolve_of_readsFrom_transfer (hasDots_acceptedName plain)
      (transfers [] .zero) []
    have both : ∀ cwd, _ := fun cwd => (sends.places_eq_iff
      ((sessionView call.session cwd).origin filename) offered).mp (by
        rw [← named cwd, resolve_of_readsFrom (reads 0 .zero) cwd, ← second, opened []])
    exact ⟨fun cwd => (both cwd).1, (both []).2⟩
  · rintro ⟨starts, kept⟩
    have same : ∀ cwd, (sessionView call.session cwd).resolve filename =
        homeLocation root (name.take (maxUsernameLen - 1)) ++ descent (acceptedName filename) :=
      fun cwd => (named cwd).trans ((sends.places_eq_iff _ offered).mpr ⟨starts cwd, kept⟩)
    refine ⟨_, fun offset res => readsFrom_handleHelperRead same offset res,
      fun res => readsFrom_handleHelperDownload same res, fun targetPath res => ?_⟩
    exact readsFrom_handleHelperTransfer opened username targetPath res

/-- The name of the file of a request that is made holds no terminator. -/
theorem HandlerCall.Requests.nulFree {filename destUser : List UInt8}
    (requests : call.Requests registry filename destUser) (split : call.Split) :
    NulFree filename := by
  obtain ⟨_, more, args, -⟩ := requests.args
  exact split.args.1 filename (by simp [args])

/-- What follows for a request that takes a slot and stays on offer there. -/
theorem CopiesNamedFile.fits {root workdir : Location} {name : List UInt8}
    (copies : CopiesNamedFile helper call answers registry) (split : call.Split)
    (sends : call.session.Sends helper root name workdir) {filename destUser : List UInt8}
    (requests : call.Requests registry filename destUser) (room : registry.HasRoom)
    (plain : hasDots filename = false) (offered : StaysOffered filename) :
    (∀ cwd, (sessionView call.session cwd).origin filename =
        root ++ [name.take (maxUsernameLen - 1)]) ∧ filename.drop filenameSize ≠ [1] := by
  have clean := requests.nulFree split
  have own : NulFree call.session.usernameText := cString_nulFree _
  obtain ⟨old, filled⟩ := room.slot_createRequest filename destUser call.session.usernameText
  obtain ⟨reqId, username, accepted⟩ := acceptable_requestSlot old
    (registry.globalIdCounter + 1) destUser call.session.usernameText clean offered
  have found := copies filename destUser _ requests plain
    (by rw [world_handleTransferRequest call answers registry requests]; exact filled)
    reqId username accepted
  obtain ⟨-, sender, name_⟩ := texts_requestSlot clean own accepted
  rw [sender, name_, sends.take_usernameText, sends.copies_iff plain offered username] at found
  exact found

/-- An accepted transfer copies the file that the sender has named exactly if, whenever the request
takes a slot and stays on offer there, the session starts the lookup of the name (in its home if the
name is absolute, in its current directory otherwise) in the directory below the root directory of
the server that has the name of the sender, as far as it fits the slot, and the name of the file is
not changed with the status of the request. -/
theorem copiesNamedFile_iff (split : call.Split) {root workdir : Location} {name : List UInt8}
    (sends : call.session.Sends helper root name workdir) :
    CopiesNamedFile helper call answers registry ↔
      ∀ filename destUser, call.Requests registry filename destUser → registry.HasRoom →
        hasDots filename = false → StaysOffered filename →
          (∀ cwd, (sessionView call.session cwd).origin filename =
            root ++ [name.take (maxUsernameLen - 1)]) ∧ filename.drop filenameSize ≠ [1] := by
  constructor
  · exact fun copies filename destUser requests room plain offered =>
      copies.fits split sends requests room plain offered
  · intro fits filename destUser slot requests plain filled reqId username currentReq accepted
    have own : NulFree call.session.usernameText := cString_nulFree _
    rw [world_handleTransferRequest call answers registry requests] at filled
    obtain ⟨old, member, idle, rfl⟩ := slot_createRequest filled
    obtain ⟨offered, sender, name_⟩ :=
      texts_requestSlot (requests.nulFree split) own accepted
    have same : ∃ place, _ ∧ _ ∧ _ := (sends.copies_iff plain offered username).mpr
      (fits filename destUser requests ⟨old, member, idle⟩ plain offered)
    rw [← sends.take_usernameText, ← sender, ← name_] at same
    exact same

end

/-- A session in its home sends from there. -/
theorem sends_home : (aliceAt []).Sends srvHelper [str "srv"] (str "alice") [] where
  rootDir := by decide
  properRoot name member := by
    rw [List.mem_singleton.mp member]
    exact ⟨by decide, by decide, by decide, by decide⟩
  valid := by decide
  username := rfl
  current := by decide +kernel
  properWorkdir name member := absurd member List.not_mem_nil

/-- A session in a directory of its home sends from there. -/
theorem sends_docs :
    (aliceAt [str "docs"]).Sends srvHelper [str "srv"] (str "alice") [str "docs"] where
  rootDir := by decide
  properRoot name member := by
    rw [List.mem_singleton.mp member]
    exact ⟨by decide, by decide, by decide, by decide⟩
  valid := by decide
  username := rfl
  current := by decide +kernel
  properWorkdir name member := by
    rw [List.mem_singleton.mp member]
    exact ⟨by decide, by decide, by decide, by decide⟩

/-- A file requested from the home is copied. -/
theorem copiesNamedFile_home :
    CopiesNamedFile srvHelper (commandCall 9 (aliceAt []) (str "transfer_request notes bob"))
      willing bobOnline := by
  refine (copiesNamedFile_iff (split_commandCall 9 _ _) sends_home).mpr ?_
  intro filename destUser requests room plain offered
  obtain ⟨name, more, args, -⟩ := requests.args
  have typed : (commandCall 9 (aliceAt []) (str "transfer_request notes bob")).args =
      [str "transfer_request", str "notes", str "bob"] := by decide +kernel
  have same := typed.symm.trans args
  simp only [List.cons.injEq] at same
  obtain ⟨-, rfl, rfl, -⟩ := same
  exact ⟨(sends_home.starts_iff (by decide +kernel) _).mpr ⟨by decide, Or.inr rfl⟩, by decide⟩

/-- A file requested from another directory is looked for in the home. -/
theorem not_copiesNamedFile_docs :
    ¬ CopiesNamedFile srvHelper
      (commandCall 9 (aliceAt [str "docs"]) (str "transfer_request notes bob")) willing
        bobOnline := by
  intro copies
  have args : (commandCall 9 (aliceAt [str "docs"]) (str "transfer_request notes bob")).args =
      [str "transfer_request", str "notes", str "bob"] := by decide +kernel
  have requests : (commandCall 9 (aliceAt [str "docs"])
      (str "transfer_request notes bob")).Requests bobOnline (str "notes") (str "bob") :=
    ⟨rfl, ⟨_, [], args, by decide⟩, 7, by decide +kernel, by decide⟩
  have fits := copies.fits (split_commandCall 9 _ _) sends_docs requests
    ⟨.zero, List.mem_replicate.mpr ⟨by decide, rfl⟩, rfl⟩ (by decide) (Or.inl (by decide))
  have short := (sends_docs.starts_iff (by decide +kernel) _).mp fits.1
  exact absurd short.2 (by decide)

end FileServer
