import FileServer.Model.HelperHandlers

/-!
# Responses of the helper delimit themselves

A reader of a response takes the header, and then the bytes that it announces when the status
is 0. For every request and every failure of a system call, the conditions under which it then
stands at the end of what the helper has written.
-/
namespace FileServer

open FileServer.Lib

/-- The call writes to the server. -/
def HelperOp.toServer : HelperOp → Bool
  | writeResponse _ | writeServer _ => true
  | _ => false

/-- What the helper has written to the server. -/
def sent (events : List HelperEvent) : List HelperEvent := events.filter (·.1.toServer)

/-- A write to the server that has failed. -/
def HelperEvent.Lost : HelperEvent → Prop
  | ⟨.writeResponse _, written⟩ => written = false
  | ⟨.writeServer _, written⟩ => written = false
  | _ => False

/-- No write to the server has failed. -/
def Delivered (events : List HelperEvent) : Prop :=
  ∀ event ∈ events, ¬ HelperEvent.Lost event

/-- No `regainRoot` has failed: the helper ends at once when one does. -/
def RegainsRoot (events : List HelperEvent) : Prop :=
  events.getLast? ≠ some ⟨.seteuid 0, false⟩ ∧ events.getLast? ≠ some ⟨.setegid 0, false⟩

/-- The number of bytes that a reader takes after the response. -/
def HelperResponse.announced (res : HelperResponse) : Nat :=
  if res.status = 0 then res.payloadLen.toNat else 0

/-- A response written whole, and what follows it. -/
def written (res : HelperResponse) (blocks : List (List UInt8)) : List HelperEvent :=
  ⟨.writeResponse res, true⟩ :: blocks.map fun bytes => ⟨.writeServer bytes, true⟩

/-- Exactly one response has been written, and then exactly the bytes that it announces. -/
def Framed (events : List HelperEvent) : Prop :=
  ∃ res blocks, sent events = written res blocks ∧
    (blocks.map List.length).sum = res.announced

/-- What follows calls of which none writes to the server. -/
theorem sent_after {before : List HelperEvent} (silent : ∀ event ∈ before, event.1.toServer = false)
    (after : List HelperEvent) : sent (before ++ after) = sent after := by
  have none : sent before = [] := by
    rw [sent, List.filter_eq_nil_iff]
    intro event member
    rw [silent event member]
    exact Bool.false_ne_true
  unfold sent at none ⊢
  rw [List.filter_append, none, List.nil_append]

/-- What is written whole is framed when the response announces the rest. -/
theorem framed_iff {events : List HelperEvent} {res : HelperResponse}
    {blocks : List (List UInt8)} (whole : sent events = written res blocks) :
    Framed events ↔ (blocks.map List.length).sum = res.announced := by
  constructor
  · rintro ⟨res', blocks', whole', size⟩
    rw [whole] at whole'
    obtain ⟨first, rest⟩ := List.cons.inj whole'
    obtain ⟨same, -⟩ := Sigma.mk.inj first
    obtain rfl := HelperOp.writeResponse.inj same
    have blocks_ : blocks = blocks' := by
      refine List.map_injective_iff.mpr (fun left right same => ?_) rest
      exact HelperOp.writeServer.inj (Sigma.mk.inj same).1
    rw [blocks_, size]
  · intro size
    exact ⟨res, blocks, whole, size⟩

/-- What is written whole has been written without a failure. -/
theorem Framed.delivered {events : List HelperEvent} (framed : Framed events) :
    Delivered events := by
  obtain ⟨res, blocks, whole, -⟩ := framed
  intro event member lost
  have writes : event.1.toServer = true := by
    obtain ⟨op, answer⟩ := event
    cases op <;> first | rfl | exact lost.elim
  have listed : event ∈ sent events := List.mem_filter.mpr ⟨member, writes⟩
  rw [whole] at listed
  rcases List.mem_cons.mp listed with rfl | later
  · cases lost
  · obtain ⟨bytes, -, rfl⟩ := List.mem_map.mp later
    cases lost

/-- A call that does not matter for a condition. -/
def Irrelevant (condition : List HelperEvent → Prop) (op : HelperOp) : Prop :=
  ∀ answer events, condition (⟨op, answer⟩ :: events) ↔ condition events

/-- A call that neither writes to the server nor matters for a condition. -/
structure Ignores (condition : List HelperEvent → Prop) (op : HelperOp) : Prop where
  /-- Nothing is written to the server. -/
  silent : op.toServer = false
  /-- The condition is that of the other calls. -/
  same : Irrelevant condition op

/-- When every write arrives and `regainRoot` has not failed, the writes of the script are framed
exactly under the condition. -/
def Responds (condition : List HelperEvent → Prop) (script : HelperScript HelperOutcome) : Prop :=
  script.Every fun events _ => events ≠ [] ∧
    (RegainsRoot events → Delivered events → (Framed events ↔ condition events))

section Rules

variable {condition : List HelperEvent → Prop}

/-- The condition is that of what follows calls that do not matter for it. -/
theorem condition_after {before : List HelperEvent}
    (aside : ∀ event ∈ before, Irrelevant condition event.1) (after : List HelperEvent) :
    condition (before ++ after) ↔ condition after := by
  induction before with
  | nil => exact Iff.rfl
  | cons event before ih =>
    have first := aside event List.mem_cons_self event.2 (before ++ after)
    exact first.trans (ih fun other member => aside other (List.mem_cons_of_mem _ member))

/-- What a script does after silent calls decides about its framing. -/
theorem responds_prefix (before : List HelperEvent) {after : List HelperEvent} {later : Prop}
    (silent : ∀ event ∈ before, event.1.toServer = false)
    (framed : after ≠ [] ∧ (RegainsRoot after → Delivered after → (Framed after ↔ later))) :
    before ++ after ≠ [] ∧ (RegainsRoot (before ++ after) → Delivered (before ++ after) →
      (Framed (before ++ after) ↔ later)) := by
  obtain ⟨ended, framed⟩ := framed
  refine ⟨List.append_ne_nil_of_right_ne_nil before ended, fun root arrived => ?_⟩
  have last : (before ++ after).getLast? = after.getLast? :=
    List.getLast?_append_of_ne_nil before ended
  have root : RegainsRoot after := by
    unfold RegainsRoot at root ⊢
    rwa [last] at root
  have arrived : Delivered after := fun event member =>
    arrived event (List.mem_append_right before member)
  rw [Framed, sent_after silent]
  exact framed root arrived

/-- A script responds as its part after calls that do not matter. -/
theorem responds_after {α : Type} {first : HelperScript α} {rest : α → HelperScript HelperOutcome}
    (begins : first.Only (Ignores condition)) (goes : ∀ value, Responds condition (rest value)) :
    Responds condition (first >>= rest) := by
  refine Script.Every.after begins ?_ goes
  intro before after outcome ignored framed
  have aside := condition_after (fun event member => (ignored event member).same) after
  rw [aside]
  exact responds_prefix before (fun event member => (ignored event member).silent) framed

/-- A script responds after a silent call under what the condition is for each answer. -/
theorem responds_answers {op : HelperOp} {rest : op.Answer → HelperScript HelperOutcome}
    (silent : op.toServer = false)
    (goes : ∀ answer, Responds (fun events => condition (⟨op, answer⟩ :: events))
      (rest answer)) : Responds condition (system op >>= rest) := by
  intro answer
  refine (goes answer).weaken fun events outcome framed => ?_
  refine responds_prefix [⟨op, answer⟩] (fun event member => ?_) framed
  rw [List.mem_singleton.mp member]
  exact silent

/-- A condition may be replaced by an equivalent one. -/
theorem Responds.equiv {other : List HelperEvent → Prop} {script : HelperScript HelperOutcome}
    (responds : Responds other script) (same : ∀ events, other events ↔ condition events) :
    Responds condition script := by
  rwa [show condition = other from funext fun events => propext (same events).symm]

/-- A script responds as its part after one call that does not matter. -/
theorem responds_call {op : HelperOp} {rest : op.Answer → HelperScript HelperOutcome}
    (ignored : Ignores condition op) (goes : ∀ answer, Responds condition (rest answer)) :
    Responds condition (system op >>= rest) :=
  responds_after ((Script.only_perform op).mpr ignored) goes

/-- A script that goes on with the privileges of root regained responds as it goes on. -/
theorem responds_regainRoot {rest : HelperScript HelperOutcome}
    (ignored : ∀ op, op = .seteuid 0 ∨ op = .setegid 0 → Ignores condition op)
    (goes : Responds condition rest) :
    Responds condition (regainRoot >>= fun regained =>
      if regained then rest else pure .exited) := by
  rintro (_ | _)
  · exact ⟨List.cons_ne_nil _ _, fun root => absurd rfl root.1⟩
  · rintro (_ | _)
    · exact ⟨List.cons_ne_nil _ _, fun root => absurd rfl root.2⟩
    · have euid : Responds condition (system (.setegid 0) >>= fun _ => rest) :=
        responds_call (ignored _ (.inr rfl)) fun _ => goes
      have both : Responds condition (system (.seteuid 0) >>= fun _ =>
          system (.setegid 0) >>= fun _ => rest) :=
        responds_call (ignored _ (.inl rfl)) fun _ => euid
      exact both true true

end Rules

/-- Nothing is written to the server. -/
abbrev Silent (op : HelperOp) : Prop := op.toServer = false

/-- A call that writes nothing to the server does not matter for a fixed condition. -/
theorem ignores_fixed {fixed : Prop} {op : HelperOp} (silent : op.toServer = false) :
    Ignores (fun _ => fixed) op := ⟨silent, fun _ _ => Iff.rfl⟩

/-- One response, and nothing after it. -/
theorem responds_response (res : HelperResponse) {rest : Bool → HelperScript HelperOutcome}
    (ends : ∀ written, (rest written).Only Silent) :
    Responds (fun _ => res.announced = 0) (system (.writeResponse res) >>= rest) := by
  intro arrives
  refine (ends arrives).every.weaken fun later outcome silent => ?_
  refine ⟨List.cons_ne_nil _ _, fun _ arrived => ?_⟩
  have success : arrives = true := by
    have kept := arrived ⟨.writeResponse res, arrives⟩ List.mem_cons_self
    simpa [HelperEvent.Lost] using kept
  subst success
  have only : sent (⟨.writeResponse res, true⟩ :: later) = written res [] := by
    have nothing : later.filter (·.1.toServer) = [] := by
      rw [List.filter_eq_nil_iff]
      intro event member
      rw [silent event member]
      exact Bool.false_ne_true
    show (_ :: later.filter _) = _
    rw [nothing]
    rfl
  rw [framed_iff only]
  exact eq_comm

/-- To regain the privileges of root does not matter for a fixed condition. -/
theorem ignores_regainRoot {fixed : Prop} (op : HelperOp)
    (either : op = .seteuid 0 ∨ op = .setegid 0) : Ignores (fun _ => fixed) op := by
  rcases either with rfl | rfl
  · exact ignores_fixed rfl
  · exact ignores_fixed rfl

/-- The end of most commands. -/
theorem responds_regainAndRespond (res : HelperResponse) :
    Responds (fun _ => res.announced = 0) (regainAndRespond res) :=
  responds_regainRoot ignores_regainRoot (responds_response res fun _ => trivial)

/-- The response is not a success and announces nothing. -/
def HelperResponse.Fresh (res : HelperResponse) : Prop := res.status ≠ 0 ∧ res.payloadLen = 0

/-- The response that `handleCommands` sets up. -/
theorem fresh_blank (cmd : UInt32) : (HelperResponse.blank cmd).Fresh := by
  have failed : (-1 : Int32) ≠ 0 := by decide
  exact ⟨failed, rfl⟩

/-- A response without a payload announces nothing. -/
theorem announced_of_payloadLen {res : HelperResponse} (none : res.payloadLen = 0) :
    res.announced = 0 := by
  rw [HelperResponse.announced, none]
  exact ite_self 0

/-- A response that is not a success announces nothing. -/
theorem announced_of_status {res : HelperResponse} (failed : res.status ≠ 0) :
    res.announced = 0 := if_neg failed

/-- When every write arrives and `regainRoot` has not failed, the writes of the script are
framed. -/
abbrev Replies (script : HelperScript HelperOutcome) : Prop := Responds (fun _ => True) script

/-- A script whose writes are framed under a condition that holds. -/
theorem Responds.replies {fixed : Prop} {script : HelperScript HelperOutcome}
    (responds : Responds (fun _ => fixed) script) (holds : fixed) : Replies script := by
  rwa [eq_true holds] at responds

/-- The end of most commands without a payload. -/
theorem replies_regain (res : HelperResponse) (none : res.payloadLen = 0) :
    Replies (regainAndRespond res) :=
  (responds_regainAndRespond res).replies (announced_of_payloadLen none)

/-- The end of a command that leaves the privileges as they are. -/
theorem replies_response (res : HelperResponse) (none : res.payloadLen = 0)
    {rest : Bool → HelperScript HelperOutcome} (ends : ∀ written, (rest written).Only Silent) :
    Replies (system (.writeResponse res) >>= rest) :=
  (responds_response res ends).replies (announced_of_payloadLen none)

/-- A script replies as its part after a silent one. -/
theorem replies_after {α : Type} {first : HelperScript α} {rest : α → HelperScript HelperOutcome}
    (begins : first.Only Silent) (goes : ∀ value, Replies (rest value)) :
    Replies (first >>= rest) :=
  responds_after (begins.weaken fun _ silent => ignores_fixed silent) goes

/-- A script replies as its part after a silent call. -/
theorem replies_call {op : HelperOp} {rest : op.Answer → HelperScript HelperOutcome}
    (silent : Silent op) (goes : ∀ answer, Replies (rest answer)) :
    Replies (system op >>= rest) :=
  responds_call (ignores_fixed silent) goes

/-- The call works on files without opening, closing or locking them. -/
def HelperOp.worksOnFiles : HelperOp → Bool
  | stat _ | rename .. | fstat _ | seekSet .. | seekEnd _ => true
  | read .. | write .. | writeAll .. => true
  | _ => false

/-- Such a call writes nothing to the server. -/
theorem silent_of_worksOnFiles (op : HelperOp) (works : op.worksOnFiles = true) : Silent op := by
  cases op <;> first | rfl | exact absurd works Bool.false_ne_true

section Parts

variable {allowed : HelperOp → Prop} (works : ∀ op, op.worksOnFiles = true → allowed op)
include works

/-- The part of a move under the lock. -/
theorem only_moveLocked (path1 path2 : List UInt8) : (moveLocked path1 path2).Only allowed := by
  refine .call (works _ rfl) fun source => ?_
  cases source with
  | error text => trivial
  | ok _ =>
    refine .call (works _ rfl) fun dest => ?_
    cases dest with
    | error text => trivial
    | ok stDest =>
      simp only []
      split
      · trivial
      · refine .call (works _ rfl) fun target => ?_
        cases target with
        | ok _ => trivial
        | error _ =>
          refine .call (works _ rfl) fun renamed => ?_
          cases renamed with
          | error text => trivial
          | ok _ => trivial

/-- The padding of a file. -/
theorem only_padFile (fd : Descriptor) (count : Nat) : (padFile fd count).Only allowed := by
  induction count with
  | zero => trivial
  | succ count ih =>
    refine .call (works _ rfl) fun written => ?_
    cases written with
    | error failure => trivial
    | ok _ => exact ih

/-- The move to a position. -/
theorem only_seekPadded (fd : Descriptor) (size : Nat) (offset : Int32) :
    (seekPadded fd size offset).Only allowed := by
  unfold seekPadded
  split
  · refine .call (works _ rfl) fun sought => ?_
    cases sought with
    | error failure => trivial
    | ok _ =>
      refine .bind (only_padFile works _ _) fun padded => ?_
      cases padded with
      | false => trivial
      | true => trivial
  · refine .call (works _ rfl) fun sought => ?_
    cases sought with
    | error text => trivial
    | ok _ => trivial

/-- The part of a write under the lock. -/
theorem only_writeLocked (fd : Descriptor) (offset : Int32) (data : List UInt8) :
    (writeLocked fd offset data).Only allowed := by
  refine .call (works _ rfl) fun found => ?_
  cases found with
  | error text => trivial
  | ok st =>
    simp only []
    split
    · trivial
    · refine .bind (only_seekPadded works _ _ _) fun sought => ?_
      cases sought with
      | error text => trivial
      | ok _ =>
        refine .call (works _ rfl) fun written => ?_
        cases written with
        | error text => trivial
        | ok count =>
          simp only []
          split
          · trivial
          · trivial

/-- The copying loop of an upload. -/
theorem only_streamToFile (fd : Descriptor) (blocks : Blocks bufferSize) :
    (streamToFile fd blocks).Only allowed := by
  induction blocks with
  | nil => trivial
  | cons bytes later ih =>
    refine .call (works _ rfl) fun written => ?_
    cases written with
    | false => trivial
    | true => exact ih

/-- The part of a read under the lock. -/
theorem only_readLocked (lockFd : Descriptor) (offset : Int32) :
    (readLocked lockFd offset).Only allowed := by
  refine .call (works _ rfl) fun found => ?_
  cases found with
  | error text => trivial
  | ok st =>
    simp only []
    split
    · trivial
    · split
      · trivial
      · refine .call (works _ rfl) fun sought => ?_
        cases sought with
        | error failure => trivial
        | ok _ =>
          refine .call (works _ rfl) fun read => ?_
          cases read with
          | error failure => trivial
          | ok bytes => trivial

end Parts

/-- The loop of a listing. -/
theorem only_listEntries {allowed : HelperOp → Prop} (stat : ∀ path, allowed (.stat path))
    (path : List UInt8)
    (names : List { name : List UInt8 // NulFree name ∧ name ≠ [] }) (entries : List FileEntry) :
    (listEntries path names entries).Only allowed := by
  induction names generalizing entries with
  | nil => trivial
  | cons name later ih =>
    unfold listEntries
    split
    · exact ih entries
    · refine .call (stat _) fun found => ?_
      cases found with
      | error failure => exact ih entries
      | ok st =>
        simp only []
        split
        · exact ih _
        · trivial

/-- The copying loop of a transfer between users. -/
theorem only_copyFile {allowed : HelperOp → Prop} (destFd : Descriptor)
    (write : ∀ bytes, allowed (.write destFd bytes)) (blocks : Blocks 8192) :
    (copyFile destFd blocks).Only allowed := by
  induction blocks with
  | nil => trivial
  | cons bytes later ih =>
    refine .call (write _) fun written => ?_
    cases written with
    | error failure => trivial
    | ok count =>
      simp only []
      split
      · trivial
      · exact ih

/-- Taking a lock makes up to three calls. -/
theorem only_lockFile {allowed : HelperOp → Prop} (path : List UInt8) (type : LockType)
    (opens : ∀ access, allowed (.openFile path ⟨access, false, false, false, false⟩ 0))
    (locks : ∀ fd, allowed (.setLock fd type)) (closes : ∀ fd, allowed (.close fd)) :
    (lockFile path type).Only allowed := by
  refine .call (opens _) fun opened => ?_
  cases opened with
  | error failure => trivial
  | ok fd =>
    refine .call (locks fd) fun locked => ?_
    cases locked with
    | error failure => exact .call (closes fd) fun _ => trivial
    | ok _ => trivial

/-- Taking a lock writes nothing to the server. -/
theorem silent_lockFile (path : List UInt8) (type : LockType) :
    (lockFile path type).Only Silent :=
  only_lockFile path type (fun _ => rfl) (fun _ => rfl) fun _ => rfl

/-- Giving up a lock writes nothing to the server. -/
theorem silent_unlockFile (fd : Descriptor) : (unlockFile fd).Only Silent :=
  .call rfl fun _ => .call rfl fun _ => trivial

/-- The return to the privileges of root makes two calls. -/
theorem only_regainRoot {allowed : HelperOp → Prop} (seteuid : allowed (.seteuid 0))
    (setegid : allowed (.setegid 0)) : regainRoot.Only allowed := by
  refine .call seteuid fun changed => ?_
  cases changed with
  | false => trivial
  | true => exact (Script.only_perform _).mpr setegid

/-- The return to the privileges of root at the end of a command writes nothing to the
server. -/
theorem silent_endRegain : (regainRoot >>= fun regained =>
    if regained then pure HelperOutcome.returned else pure .exited).Only Silent := by
  refine .bind (only_regainRoot rfl rfl) fun regained => ?_
  cases regained with
  | false => trivial
  | true => trivial

/-- Dropping the privileges makes four calls. -/
theorem only_dropPrivilegesTemp {allowed : HelperOp → Prop} (session : ClientSession)
    (getuid : allowed .getuid) (initgroups : ∀ username gid, allowed (.initgroups username gid))
    (setegid : ∀ gid, allowed (.setegid gid)) (seteuid : ∀ uid, allowed (.seteuid uid)) :
    (dropPrivilegesTemp session).Only allowed := by
  refine .call getuid fun uid => ?_
  split
  · trivial
  · refine .call (initgroups _ _) fun joined => ?_
    cases joined with
    | false => trivial
    | true =>
      refine .call (setegid _) fun dropped => ?_
      cases dropped with
      | false => trivial
      | true => exact (Script.only_perform _).mpr (seteuid _)

/-- The sandbox makes only calls that change the root directory or the privileges. -/
theorem only_sandboxUser {allowed : HelperOp → Prop} (session : ClientSession)
    (root directory : List UInt8) (chroot : ∀ path, allowed (.chroot path))
    (chdir : ∀ path, allowed (.chdir path)) (getuid : allowed .getuid)
    (initgroups : ∀ username gid, allowed (.initgroups username gid))
    (setegid : ∀ gid, allowed (.setegid gid)) (seteuid : ∀ uid, allowed (.seteuid uid)) :
    (sandboxUser session root directory).Only allowed := by
  refine .call (chroot root) fun rooted => ?_
  cases rooted with
  | false => trivial
  | true =>
    refine .call (chdir directory) fun moved => ?_
    cases moved with
    | error failure => trivial
    | ok _ => exact only_dropPrivilegesTemp session getuid initgroups setegid seteuid

/-- The sandbox writes nothing to the server. -/
theorem silent_sandboxUser (session : ClientSession) (root directory : List UInt8) :
    (sandboxUser session root directory).Only Silent :=
  only_sandboxUser session root directory (fun _ => rfl) (fun _ => rfl) rfl (fun _ _ => rfl)
    (fun _ => rfl) fun _ => rfl

/-- A command in a sandbox replies when it does so inside. -/
theorem replies_inSandbox {session : ClientSession} {root directory refusal : List UInt8}
    {res : HelperResponse} (fresh : res.Fresh) {rest : HelperScript HelperOutcome}
    (goes : Replies rest) :
    Replies (inSandbox (sandboxUser session root directory) res refusal rest) := by
  refine replies_after (silent_sandboxUser session root directory) fun inside => ?_
  cases inside with
  | true => exact goes
  | false =>
    exact replies_response (res.say refusal) fresh.2 fun _ => trivial

section Commands

variable {res : HelperResponse}

/-- What undoes the creation of a user writes nothing to the server. -/
theorem silent_undoUser (lockFd : Descriptor) (username text : List UInt8) :
    (undoUser lockFd username text).Only Silent :=
  .call rfl fun _ => .bind (silent_unlockFile lockFd) fun _ => trivial

/-- The creation of a user writes nothing to the server. -/
theorem silent_createSystemUser (lockFilePath rootDir username : List UInt8)
    (privileges : UInt32) :
    (createSystemUser lockFilePath rootDir username privileges).Only Silent := by
  have ending : ∀ fd (result : Bool × List UInt8),
      (releaseUserCreationLock fd >>= fun _ => pure result).Only Silent :=
    fun fd _ => .bind (silent_unlockFile fd) fun _ => trivial
  refine .bind (silent_lockFile _ _) fun locked => ?_
  cases locked with
  | error failure => trivial
  | ok lockFd =>
    refine .call rfl fun taken => ?_
    cases taken with
    | some account => exact ending _ _
    | none =>
      refine .call rfl fun result => ?_
      cases result with
      | notForked => exact ending _ _
      | failed => exact ending _ _
      | succeeded =>
        refine .call rfl fun found => ?_
        cases found with
        | none => exact silent_undoUser _ _ _
        | some pwd =>
          refine .call rfl fun made => ?_
          cases made with
          | error failure => exact silent_undoUser _ _ _
          | ok _ =>
            refine .call rfl fun owned => ?_
            cases owned with
            | error failure => exact silent_undoUser _ _ _
            | ok _ => exact ending _ _

/-- The creation of a user replies. -/
theorem replies_createUser (lockFilePath rootDir username : List UInt8) (privileges : UInt32)
    (fresh : res.Fresh) :
    Replies (handleHelperCreateUser lockFilePath rootDir username privileges res) := by
  refine replies_after (silent_createSystemUser _ _ _ _) fun result => ?_
  exact replies_response { res.say result.2 with status := if result.1 then 0 else -1 } fresh.2
    fun _ => trivial

/-- A login replies. -/
theorem replies_login (username : Option (List UInt8)) (fresh : res.Fresh) :
    Replies (handleHelperLogin username res) := by
  have refuse : ∀ text, Replies (system (.writeResponse (res.say text)) >>= fun _ =>
      pure HelperOutcome.returned) :=
    fun text => replies_response (res.say text) fresh.2 fun _ => trivial
  cases username with
  | none => exact refuse _
  | some username =>
    refine replies_call rfl fun found => ?_
    cases found with
    | none => exact refuse _
    | some pw => exact replies_response (res.login pw) fresh.2 fun _ => trivial

/-- The creation of a file replies. -/
theorem replies_createFile (session : ClientSession) (filename : List UInt8)
    (privileges : UInt32) (makeDir : Bool) (fresh : res.Fresh) :
    Replies (handlerHelperCreateFile session filename privileges makeDir res) := by
  refine replies_inSandbox fresh ?_
  cases makeDir with
  | true =>
    refine replies_call rfl fun made => ?_
    have silent : ∀ _written : Bool, (regainRoot >>= fun regained =>
        if regained then pure HelperOutcome.returned else pure .exited).Only Silent :=
      fun _ => silent_endRegain
    cases made with
    | error text => exact replies_response (res.say _) fresh.2 silent
    | ok _ => exact replies_response (res.succeed _) fresh.2 silent
  | false =>
    refine replies_call rfl fun opened => ?_
    cases opened with
    | error failure => exact replies_regain (res.say _) fresh.2
    | ok dirfd =>
      refine replies_call rfl fun created => replies_call rfl fun _ => ?_
      cases created with
      | error failure => exact replies_regain (res.say _) fresh.2
      | ok fd =>
        refine replies_after (silent_lockFile _ _) fun locked => ?_
        cases locked with
        | error failure =>
          exact replies_call rfl fun _ => replies_call rfl fun _ =>
            replies_regain (res.say _) fresh.2
        | ok lockFd =>
          exact replies_call rfl fun _ => replies_after (silent_unlockFile _) fun _ =>
            replies_regain (res.succeed _) fresh.2

/-- A change of permissions replies. -/
theorem replies_chmod (session : ClientSession) (filename : List UInt8) (privileges : UInt32)
    (fresh : res.Fresh) : Replies (handleHelperChmod session filename privileges res) := by
  refine replies_inSandbox fresh (replies_after (silent_lockFile _ _) fun locked => ?_)
  cases locked with
  | error failure => exact replies_regain (res.say _) fresh.2
  | ok lockFd =>
    refine replies_call rfl fun changed => replies_after (silent_unlockFile _) fun _ => ?_
    cases changed with
    | error text => exact replies_regain (res.say _) fresh.2
    | ok _ => exact replies_regain (res.succeed _) fresh.2

/-- The deletion of a file or a directory replies. -/
theorem replies_delete (session : ClientSession) (path : List UInt8) (fresh : res.Fresh) :
    Replies (handleHelperDelete session path res) := by
  refine replies_inSandbox fresh (replies_call rfl fun found => ?_)
  cases found with
  | error text => exact replies_regain (res.say _) fresh.2
  | ok st =>
    simp only []
    split
    · refine replies_call rfl fun removed => ?_
      cases removed with
      | error text => exact replies_regain (res.say _) fresh.2
      | ok _ => exact replies_regain (res.succeed _) fresh.2
    · refine replies_after (silent_lockFile _ _) fun locked => ?_
      cases locked with
      | error failure => exact replies_regain (res.say _) fresh.2
      | ok lockFd =>
        refine replies_call rfl fun deleted => replies_after (silent_unlockFile _) fun _ => ?_
        cases deleted with
        | error text => exact replies_regain (res.say _) fresh.2
        | ok _ => exact replies_regain (res.succeed _) fresh.2

/-- A move replies. -/
theorem replies_move (session : ClientSession) (path1 path2 : List UInt8) (fresh : res.Fresh) :
    Replies (handleHelperMove session path1 path2 res) := by
  refine replies_inSandbox fresh (replies_after (silent_lockFile _ _) fun locked => ?_)
  cases locked with
  | error failure => exact replies_regain (res.say _) fresh.2
  | ok lockFd =>
    refine replies_after (only_moveLocked silent_of_worksOnFiles _ _) fun moved =>
      replies_after (silent_unlockFile _) fun _ => ?_
    cases moved with
    | error text => exact replies_regain (res.say _) fresh.2
    | ok _ => exact replies_regain (res.succeed _) fresh.2

/-- A write replies. -/
theorem replies_write (session : ClientSession) (path : List UInt8) (offset : Int32)
    (data : List UInt8) (fresh : res.Fresh) :
    Replies (handleHelperWrite session path offset data res) := by
  refine replies_inSandbox fresh (replies_call rfl fun opened => ?_)
  cases opened with
  | error text => exact replies_regain (res.say _) fresh.2
  | ok fd =>
    refine replies_call rfl fun locked => ?_
    cases locked with
    | error text =>
      exact replies_call rfl fun _ => replies_call rfl fun _ =>
        replies_regain (res.say _) fresh.2
    | ok _ =>
      refine replies_after (only_writeLocked silent_of_worksOnFiles _ _ _) fun written =>
        replies_call rfl fun _ => ?_
      cases written with
      | error text =>
        have none : (if text = [] then res else res.say text).payloadLen = 0 := by
          split
          · exact fresh.2
          · exact fresh.2
        exact replies_regain _ none
      | ok _ => exact replies_regain (res.succeed _) fresh.2

/-- The end of a transfer in the background makes few calls. -/
theorem only_endTransfer {allowed : HelperOp → Prop} (fd : Descriptor)
    (clearLock : allowed (.clearLock fd)) (close : allowed (.close fd))
    (seteuid : allowed (.seteuid 0)) (setegid : allowed (.setegid 0)) :
    (endTransfer fd).Only allowed := by
  refine .call clearLock fun _ => .call close fun _ =>
    .bind (only_regainRoot seteuid setegid) fun regained => ?_
  cases regained with
  | false => trivial
  | true => trivial

/-- The end of a transfer in the background writes nothing to the server. -/
theorem silent_endTransfer (fd : Descriptor) : (endTransfer fd).Only Silent :=
  only_endTransfer fd rfl rfl rfl rfl

/-- An upload replies: what it receives comes after its response. -/
theorem replies_upload (session : ClientSession) (path : List UInt8) (fresh : res.Fresh) :
    Replies (handleHelperUpload session path res) := by
  refine replies_after (silent_sandboxUser _ _ _) fun inside => ?_
  cases inside with
  | false => exact replies_response (res.say _) fresh.2 fun _ => trivial
  | true =>
    refine replies_call rfl fun opened => ?_
    cases opened with
    | error text => exact replies_response (res.say _) fresh.2 fun _ => silent_endRegain
    | ok fd =>
      refine replies_call rfl fun locked => ?_
      cases locked with
      | error failure =>
        exact replies_response (res.say _) fresh.2 fun _ => silent_endTransfer fd
      | ok _ =>
        refine replies_response (res.succeed _) fresh.2 fun written => ?_
        cases written with
        | false => exact silent_endTransfer fd
        | true =>
          exact .call rfl fun blocks => .bind (only_streamToFile silent_of_worksOnFiles fd blocks) fun _ =>
            silent_endTransfer fd

/-- The part of a transfer with the files open writes nothing to the server. -/
theorem silent_transferOpened (srcFd destFd : Descriptor) (recv : List UInt8) :
    (transferOpened srcFd destFd recv).Only Silent := by
  refine .call rfl fun found => ?_
  cases found with
  | none => trivial
  | some pw =>
    refine .call rfl fun _ => .call rfl fun locked => ?_
    cases locked with
    | error failure => trivial
    | ok _ =>
      refine .call rfl fun blocks => .bind (only_copyFile _ (fun _ => rfl) _) fun copied => ?_
      cases copied with
      | false => trivial
      | true => trivial

/-- The part of a transfer with the source open writes nothing to the server. -/
theorem silent_transferLocked (srcFd : Descriptor) (destFullPath recv : List UInt8) :
    (transferLocked srcFd destFullPath recv).Only Silent := by
  refine .call rfl fun locked => ?_
  cases locked with
  | error failure => exact .call rfl fun _ => trivial
  | ok _ =>
    refine .call rfl fun opened => ?_
    cases opened with
    | error failure => exact .call rfl fun _ => trivial
    | ok destFd =>
      exact .bind (silent_transferOpened _ _ _) fun _ => .call rfl fun _ => .call rfl fun _ =>
        trivial

/-- A transfer between users replies. -/
theorem replies_transfer (root sender filename recv targetPath : List UInt8)
    (fresh : res.Fresh) :
    Replies (handleHelperTransfer root sender filename recv targetPath res) := by
  have fails : ∀ text, Replies (system (.writeResponse (res.say text)) >>= fun _ =>
      pure HelperOutcome.returned) :=
    fun text => replies_response (res.say text) fresh.2 fun _ => trivial
  unfold handleHelperTransfer
  split
  · exact fails (str "Security Error: Illegal path characters")
  · refine replies_call rfl fun opened => ?_
    cases opened with
    | error failure => exact fails (str "Source file not found")
    | ok srcFd =>
      refine replies_after (silent_transferLocked _ _ _) fun transferred => ?_
      cases transferred with
      | error text => exact fails text
      | ok _ => exact replies_response (res.succeed _) fresh.2 fun _ => trivial

end Commands

/-- Where no call matters, a condition is a fixed one. -/
theorem Responds.congr {condition : List HelperEvent → Prop} {fixed : Prop}
    {script : HelperScript HelperOutcome} (responds : Responds (fun _ => fixed) script)
    (only : script.Only (Irrelevant condition)) (start : condition [] ↔ fixed) :
    Responds condition script := by
  have every := only.every.conj responds
  refine every.weaken fun events outcome both => ?_
  obtain ⟨aside, ended, framed⟩ := both
  refine ⟨ended, fun root arrived => (framed root arrived).trans ?_⟩
  have alone := condition_after aside []
  rw [List.append_nil] at alone
  exact (alone.trans start).symm

/-- No `getcwd` has succeeded. -/
def Stays (events : List HelperEvent) : Prop :=
  ∀ cwd, (⟨.getcwd, some cwd⟩ : HelperEvent) ∉ events

/-- Only `getcwd` matters for that. -/
theorem irrelevant_stays {op : HelperOp} (other : op ≠ .getcwd) : Irrelevant Stays op := by
  intro answer events
  refine forall_congr' fun cwd => not_congr ?_
  rw [List.mem_cons, or_iff_right]
  intro same
  exact other (congrArg Sigma.fst same).symm

/-- The end of most commands makes few calls. -/
theorem only_regainAndRespond {allowed : HelperOp → Prop} (res : HelperResponse)
    (seteuid : allowed (.seteuid 0)) (setegid : allowed (.setegid 0))
    (responds : allowed (.writeResponse res)) : (regainAndRespond res).Only allowed := by
  refine .bind (only_regainRoot seteuid setegid) fun regained => ?_
  cases regained with
  | false => trivial
  | true => exact .call responds fun _ => trivial

/-- A command that starts in a sandbox responds as it does inside, when the sandbox does not
matter for the condition. -/
theorem responds_inSandbox {condition : List HelperEvent → Prop} {session : ClientSession}
    {root directory refusal : List UInt8} {res : HelperResponse} (fresh : res.Fresh)
    {rest : HelperScript HelperOutcome}
    (sandbox : (sandboxUser session root directory).Only (Irrelevant condition))
    (refuses : Irrelevant condition (.writeResponse (res.say refusal)))
    (start : condition []) (goes : Responds condition rest) :
    Responds condition (inSandbox (sandboxUser session root directory) res refusal rest) := by
  have both := sandbox.conj (silent_sandboxUser session root directory)
  refine responds_after (both.weaken fun _ aside => ⟨aside.2, aside.1⟩) fun inside => ?_
  cases inside with
  | true => exact goes
  | false =>
    have refusal_ : Replies (system (.writeResponse (res.say refusal)) >>= fun _ =>
        pure HelperOutcome.exited) := replies_response (res.say refusal) fresh.2 fun _ => trivial
    exact refusal_.congr (.call refuses fun _ => trivial) (iff_of_true start trivial)

/-- A change of directory is framed exactly when it does not succeed: the response to a success
announces the name of the directory, which it holds itself. -/
theorem responds_changeDirectory (session : ClientSession) (path : List UInt8)
    {res : HelperResponse} (fresh : res.Fresh) :
    Responds Stays (changeDirectory session path res) := by
  have start : Stays [] := fun _ => List.not_mem_nil
  have sandbox : (sandboxUserToHisHome session).Only (Irrelevant Stays) := by
    apply only_sandboxUser <;> intros <;> exact irrelevant_stays (by simp)
  have fails : ∀ text, Responds Stays (regainAndRespond ((res.say text).changed [])) := by
    intro text
    have none : ((res.say text).changed []).announced = 0 := announced_of_status fresh.1
    refine ((responds_regainAndRespond _).replies none).congr ?_ (iff_of_true start trivial)
    apply only_regainAndRespond <;> exact irrelevant_stays (by simp)
  refine responds_inSandbox fresh sandbox (irrelevant_stays (by simp)) start ?_
  refine responds_call ⟨rfl, irrelevant_stays (by simp)⟩ fun moved => ?_
  cases moved with
  | error text => exact fails _
  | ok _ =>
    refine responds_answers rfl fun resolved => ?_
    cases resolved with
    | none =>
      refine (fails (str "Failed to resolve directory")).equiv fun events => ?_
      exact forall_congr' fun cwd => not_congr (by simp)
    | some newcwd =>
      have size : ((res.succeed (str "Directory changed")).changed newcwd).announced ≠ 0 := by
        have short : newcwd.val.length < 1024 := newcwd.property.2
        show (UInt32.ofNat (newcwd.val.length + 1)).toNat ≠ 0
        rw [UInt32.toNat_ofNat']
        omega
      refine (responds_regainAndRespond _).equiv fun events => ?_
      refine iff_of_false size fun stays => ?_
      exact stays newcwd List.mem_cons_self

/-- A successful response and the payload that it announces. -/
theorem replies_payload {res : HelperResponse} {bytes : List UInt8} (success : res.status = 0)
    (size : res.payloadLen.toNat = bytes.length) :
    Replies (system (.writeResponse res) >>= fun _ =>
      if 0 < res.payloadLen then system (.writeServer bytes) >>= fun _ => pure HelperOutcome.returned
      else pure .returned) := by
  have announced : res.announced = bytes.length := by
    rw [HelperResponse.announced, if_pos success, size]
  intro arrives
  have whole : ∀ {events}, Delivered (⟨.writeResponse res, arrives⟩ :: events) →
      arrives = true := by
    intro events arrived
    have kept := arrived ⟨.writeResponse res, arrives⟩ List.mem_cons_self
    simpa [HelperEvent.Lost] using kept
  by_cases filled : 0 < res.payloadLen
  · rw [if_pos filled]
    intro follows
    refine ⟨List.cons_ne_nil _ _, fun _ arrived => iff_of_true ?_ trivial⟩
    obtain rfl := whole arrived
    have kept := arrived ⟨.writeServer bytes, follows⟩ (by simp)
    have both : follows = true := by simpa [HelperEvent.Lost] using kept
    subst both
    exact ⟨res, [bytes], rfl, by simp [announced]⟩
  · rw [if_neg filled]
    refine ⟨List.cons_ne_nil _ _, fun _ arrived => iff_of_true ?_ trivial⟩
    obtain rfl := whole arrived
    have none : bytes.length = 0 := by
      rw [UInt32.not_lt, UInt32.le_iff_toNat_le, UInt32.toNat_zero] at filled
      omega
    exact ⟨res, [], rfl, by rw [announced, none]; rfl⟩

/-- A read replies with what it has read. -/
theorem replies_read (session : ClientSession) (path : List UInt8) (offset : Int32)
    {res : HelperResponse} (fresh : res.Fresh) :
    Replies (handleHelperRead session path offset res) := by
  refine replies_inSandbox fresh (replies_after (silent_lockFile _ _) fun locked => ?_)
  cases locked with
  | error text => exact replies_regain (res.say _) fresh.2
  | ok lockFd =>
    refine replies_after (only_readLocked silent_of_worksOnFiles lockFd offset) fun found =>
      replies_after (silent_unlockFile _) fun _ => ?_
    cases found with
    | error text => exact replies_regain (res.say _) fresh.2
    | ok bytes =>
      have size : (UInt32.ofNat bytes.val.length).toNat = bytes.val.length := by
        have short := bytes.property
        rw [UInt32.toNat_ofNat']
        omega
      exact responds_regainRoot ignores_regainRoot (replies_payload rfl size)

/-- A file that `stat` has found. -/
def HelperEvent.found : HelperEvent → Bool
  | ⟨.stat _, .ok _⟩ => true
  | _ => false

/-- As many entries as there is room for. -/
def Fits (listed : Nat) (events : List HelperEvent) : Prop :=
  listed + events.countP HelperEvent.found ≤ maxEntries

/-- Only `stat` matters for the number of entries. -/
theorem irrelevant_fits {listed : Nat} {op : HelperOp} (other : ∀ path, op ≠ .stat path) :
    Irrelevant (Fits listed) op := by
  intro answer events
  have unseen : HelperEvent.found ⟨op, answer⟩ = false := by
    cases op with
    | stat path => exact absurd rfl (other path)
    | _ => rfl
  rw [Fits, List.countP_cons, unseen]
  exact Iff.rfl

/-- The loop lists what it has found, unless that is more than there is room for. -/
theorem every_listEntries (path : List UInt8)
    (names : List { name : List UInt8 // NulFree name ∧ name ≠ [] }) (entries : List FileEntry)
    (room : entries.length ≤ maxEntries) :
    (listEntries path names entries).Every fun events listed =>
      (listed = none ∧ ¬ Fits entries.length events) ∨
      ∃ all, listed = some all ∧ all.length = entries.length + events.countP HelperEvent.found ∧
        all.length ≤ maxEntries := by
  induction names generalizing entries with
  | nil => exact .inr ⟨entries, rfl, rfl, room⟩
  | cons name later ih =>
    unfold listEntries
    split
    · exact ih entries room
    · intro found
      cases found with
      | error failure =>
        refine (ih entries room).weaken fun events listed both => ?_
        have counted : (⟨.stat (formatted pathMax (path ++ str "/" ++ name)), .error failure⟩ ::
            events : List HelperEvent).countP HelperEvent.found =
              events.countP HelperEvent.found := List.countP_cons
        simp only [Fits] at both ⊢
        rw [counted]
        exact both
      | ok st =>
        have counted : ∀ events : List HelperEvent,
            (⟨.stat (formatted pathMax (path ++ str "/" ++ name)), .ok st⟩ :: events).countP
              HelperEvent.found = events.countP HelperEvent.found + 1 :=
          fun events => List.countP_cons
        simp only []
        split
        · rename_i space
          have grown : (entries ++ [fileEntry name st]).length = entries.length + 1 :=
            List.length_append
          refine (ih _ (by omega)).weaken fun events listed both => ?_
          simp only [Fits, grown] at both ⊢
          rw [counted]
          rcases both with ⟨none, many⟩ | ⟨all, some_, size, short⟩
          · exact .inl ⟨none, by omega⟩
          · exact .inr ⟨all, some_, by omega, short⟩
        · rename_i full
          refine .inl ⟨rfl, ?_⟩
          simp only [Fits]
          rw [counted]
          omega

/-- The end of a listing that has found its entries. -/
def endListing (res : HelperResponse) (entries : List FileEntry) : HelperScript HelperOutcome :=
  let listed := (res.succeed (str "Success")).listed entries.length
  system .closedir >>= fun _ => regainRoot >>= fun regained =>
    if regained then
      system (.writeResponse listed) >>= fun _ =>
        if 0 < listed.payloadLen then
          system (.writeServer (FileEntry.layout.encodeList entries)) >>= fun _ =>
            pure HelperOutcome.returned
        else pure .returned
    else pure .exited

/-- The end of a listing makes few calls. -/
theorem only_endListing {allowed : HelperOp → Prop} (res : HelperResponse)
    (entries : List FileEntry) (closedir : allowed .closedir) (seteuid : allowed (.seteuid 0))
    (setegid : allowed (.setegid 0)) (writeResponse : ∀ res, allowed (.writeResponse res))
    (writeServer : ∀ bytes, allowed (.writeServer bytes)) :
    (endListing res entries).Only allowed := by
  refine .call closedir fun _ => .bind (only_regainRoot seteuid setegid) fun regained => ?_
  cases regained with
  | false => trivial
  | true =>
    refine .call (writeResponse _) fun _ => ?_
    split
    · exact .call (writeServer _) fun _ => trivial
    · trivial

/-- A listing is framed exactly when there is room for every entry. -/
theorem responds_ls (session : ClientSession) (path rootDir : List UInt8) {res : HelperResponse}
    (fresh : res.Fresh) : Responds (Fits 0) (handleHelperLs session path rootDir res) := by
  have start : ∀ listed, listed ≤ maxEntries → Fits listed [] := fun listed room => room
  have sandbox : (sandboxUserToRoot session rootDir).Only (Irrelevant (Fits 0)) := by
    apply only_sandboxUser <;> intros <;> exact irrelevant_fits (by simp)
  refine responds_inSandbox fresh sandbox (irrelevant_fits (by simp)) (start 0 (Nat.zero_le _)) ?_
  refine responds_call ⟨rfl, irrelevant_fits (by simp)⟩ fun opened => ?_
  cases opened with
  | error text =>
    have none : ((res.say (str "ls failed: " ++ text)).listed 0).payloadLen = 0 := rfl
    refine (replies_regain _ none).congr ?_ (iff_of_true (start 0 (Nat.zero_le _)) trivial)
    apply only_regainAndRespond <;> exact irrelevant_fits (by simp)
  | ok names =>
    have only : (listEntries path names []).Only Silent :=
      only_listEntries (fun _ => rfl) path names []
    have loop := (every_listEntries path names [] (Nat.zero_le _)).conj only.every
    refine (Script.every_bind _ _).mpr (loop.weaken fun before listed both => ?_)
    obtain ⟨⟨rfl, many⟩ | ⟨entries, rfl, size, room⟩, silent⟩ := both
    · -- the array has been left, and nothing is written
      have nothing : sent (before ++ []) = [] := sent_after silent []
      rw [List.append_nil] at nothing
      show before ++ [] ≠ [] ∧ (_ → _ → (Framed (before ++ []) ↔ Fits 0 (before ++ [])))
      rw [List.append_nil]
      refine ⟨?_, fun _ _ => iff_of_false ?_ many⟩
      · rintro rfl
        exact many (start 0 (Nat.zero_le _))
      · rintro ⟨other, blocks, whole, -⟩
        rw [nothing] at whole
        exact List.cons_ne_nil _ _ whole.symm
    · have tail : Responds (Fits entries.length) (endListing res entries) := by
        have bytes : (UInt32.ofNat (entries.length * FileEntry.layout.size)).toNat =
            (FileEntry.layout.encodeList entries).length := by
          have width : FileEntry.layout.size = 80 := rfl
          have few : maxEntries = 1024 := rfl
          rw [Layout.length_encodeList, UInt32.toNat_ofNat', width]
          omega
        refine Responds.congr (replies_call rfl fun _ =>
          responds_regainRoot ignores_regainRoot (replies_payload rfl bytes)) ?_
          (iff_of_true (start _ room) trivial)
        apply only_endListing <;> intros <;> exact irrelevant_fits (by simp)
      refine tail.weaken fun after outcome framed => ?_
      have counted : Fits entries.length after ↔ Fits 0 (before ++ after) := by
        simp only [Fits, List.countP_append]
        rw [size, List.length_nil, Nat.zero_add, Nat.zero_add]
      rw [counted] at framed
      exact responds_prefix before silent framed

/-- The call finds out the size of a file or reads it. -/
def HelperOp.measures : HelperOp → Bool
  | fstat _ | readAgain .. => true
  | _ => false

/-- What is read of a file is as long as its size, in 32-bit arithmetic. -/
def Streamed (events : List HelperEvent) : Prop :=
  ∀ measured st read (blocks : Blocks bufferSize),
    (⟨.fstat measured, .ok st⟩ : HelperEvent) ∈ events →
      (⟨.readAgain read bufferSize, blocks⟩ : HelperEvent) ∈ events →
        (blocks.map fun block => block.val.length).sum = st.size % 2 ^ 32

/-- Only those calls matter for that. -/
theorem streamed_congr {left right : List HelperEvent}
    (same : ∀ event : HelperEvent, event.1.measures = true → (event ∈ left ↔ event ∈ right)) :
    Streamed left ↔ Streamed right := by
  refine forall_congr' fun measured => forall_congr' fun st => forall_congr' fun read =>
    forall_congr' fun blocks => ?_
  rw [same ⟨.fstat measured, .ok st⟩ rfl, same ⟨.readAgain read bufferSize, blocks⟩ rfl]

/-- A call that does not measure does not matter after some that do. -/
theorem irrelevant_streamed (before : List HelperEvent) {op : HelperOp}
    (other : op.measures = false) : Irrelevant (fun events => Streamed (before ++ events)) op := by
  intro answer events
  refine streamed_congr fun event measures => ?_
  have apart : event ≠ ⟨op, answer⟩ := by
    rintro rfl
    rw [other] at measures
    exact absurd measures Bool.false_ne_true
  simp [apart]

/-- When every write arrives, the copying loop of a download has written what it was given. -/
theorem every_streamToServer (blocks : Blocks bufferSize) :
    (streamToServer blocks).Every fun events _ => Delivered events →
      events = (blocks.map Subtype.val).map fun bytes => ⟨.writeServer bytes, true⟩ := by
  induction blocks with
  | nil => exact fun _ => rfl
  | cons bytes later ih =>
    intro written
    have whole : ∀ {events}, Delivered (⟨.writeServer bytes.val, written⟩ :: events) →
        written = true := by
      intro events arrived
      have kept := arrived ⟨.writeServer bytes.val, written⟩ List.mem_cons_self
      simpa [HelperEvent.Lost] using kept
    cases written with
    | false => exact fun arrived => absurd (whole arrived) Bool.false_ne_true
    | true =>
      refine ih.weaken fun events _ same arrived => ?_
      have rest := same fun event member => arrived event (List.mem_cons_of_mem _ member)
      rw [rest]
      rfl

/-- The copying loop of a download makes no call but writes. -/
theorem only_streamToServer (blocks : Blocks bufferSize) :
    (streamToServer blocks).Only fun op => op.toServer = true ∧ op.measures = false := by
  induction blocks with
  | nil => trivial
  | cons bytes later ih =>
    refine .call ⟨rfl, rfl⟩ fun written => ?_
    cases written with
    | false => trivial
    | true => exact ih

/-- A response of a download and what it has streamed. -/
theorem responds_stream {res : HelperResponse} {fd : Descriptor} {st : FileStat}
    (success : res.status = 0) (size : res.payloadLen = UInt32.ofNat st.size) :
    Responds (fun events => Streamed (⟨.fstat fd, .ok st⟩ :: events))
      (system (.writeResponse res) >>= fun written =>
        if written then
          system (.readAgain fd bufferSize) >>= fun blocks =>
            streamToServer blocks >>= fun _ => endTransfer fd
        else endTransfer fd) := by
  intro arrives
  have quiet : (endTransfer fd).Only fun op => op.toServer = false ∧ op.measures = false :=
    only_endTransfer fd ⟨rfl, rfl⟩ ⟨rfl, rfl⟩ ⟨rfl, rfl⟩ ⟨rfl, rfl⟩
  cases arrives with
  | false =>
    refine quiet.every.weaken fun events outcome _ => ⟨List.cons_ne_nil _ _, fun _ arrived => ?_⟩
    exact absurd rfl (arrived _ List.mem_cons_self)
  | true =>
    intro blocks
    have loop := (every_streamToServer blocks).conj (only_streamToServer blocks).every
    show (streamToServer blocks >>= fun _ => endTransfer fd).Every _
    refine (Script.every_bind _ _).mpr (loop.weaken fun stream _ both => ?_)
    obtain ⟨same, writes⟩ := both
    refine quiet.every.weaken fun tail outcome silent => ⟨List.cons_ne_nil _ _, fun _ arrived => ?_⟩
    have loop_ : Delivered stream := fun event member =>
      arrived event (List.mem_cons_of_mem _ (List.mem_cons_of_mem _ (List.mem_append_left _ member)))
    have whole : sent (⟨.writeResponse res, true⟩ :: ⟨.readAgain fd bufferSize, blocks⟩ ::
        (stream ++ tail)) = written res (blocks.map Subtype.val) := by
      have all : stream.filter (·.1.toServer) = stream :=
        List.filter_eq_self.mpr fun event member => (writes event member).1
      have none : tail.filter (·.1.toServer) = [] := by
        rw [List.filter_eq_nil_iff]
        intro event member
        rw [(silent event member).1]
        exact Bool.false_ne_true
      show _ :: (stream ++ tail).filter _ = _
      rw [List.filter_append, all, none, List.append_nil, same loop_]
      rfl
    have bytes : res.announced = st.size % 2 ^ 32 := by
      rw [HelperResponse.announced, if_pos success, size, UInt32.toNat_ofNat']
    have unmeasured : ∀ event ∈ stream ++ tail, event.1.measures = false := by
      intro event member
      rcases List.mem_append.mp member with early | late
      · exact (writes event early).2
      · exact (silent event late).2
    show Framed (⟨.writeResponse res, true⟩ :: ⟨.readAgain fd bufferSize, blocks⟩ ::
      (stream ++ tail)) ↔ _
    rw [framed_iff whole, bytes, List.map_map]
    constructor
    · intro sum measured st' read blocks' size_ read_
      have measuring : ∀ event : HelperEvent, event.1.measures = true →
          event ∈ (⟨.fstat fd, .ok st⟩ :: ⟨.writeResponse res, true⟩ ::
            ⟨.readAgain fd bufferSize, blocks⟩ :: (stream ++ tail) : List HelperEvent) →
          event = ⟨.fstat fd, .ok st⟩ ∨ event = ⟨.readAgain fd bufferSize, blocks⟩ := by
        intro event measures member
        rcases List.mem_cons.mp member with first | member
        · exact .inl first
        rcases List.mem_cons.mp member with response | member
        · rw [response] at measures
          cases measures
        rcases List.mem_cons.mp member with second | member
        · exact .inr second
        · rw [unmeasured event member] at measures
          cases measures
      have st_ : st' = st := by
        rcases measuring _ rfl size_ with same | other
        · cases same
          rfl
        · cases other
      have blocks_ : blocks' = blocks := by
        rcases measuring _ rfl read_ with other | same
        · cases other
        · cases same
          rfl
      rw [st_, blocks_]
      exact sum
    · intro streamed
      exact streamed fd st fd blocks List.mem_cons_self (by simp)

/-- A download is framed exactly when as much is read of the file as its size says. -/
theorem responds_download (session : ClientSession) (path : List UInt8) {res : HelperResponse}
    (fresh : res.Fresh) : Responds Streamed (handleHelperDownload session path res) := by
  have start : Streamed [] := fun _ _ _ _ none => absurd none List.not_mem_nil
  have aside : ∀ {op : HelperOp}, op.measures = false → Irrelevant Streamed op :=
    irrelevant_streamed []
  have sandbox : (sandboxUserToHisHome session).Only (Irrelevant Streamed) := by
    apply only_sandboxUser <;> intros <;> exact aside rfl
  have refuse : ∀ text, Responds Streamed (system (.writeResponse (res.say text)) >>= fun _ =>
      pure HelperOutcome.returned) := by
    intro text
    have refusal : Replies (system (.writeResponse (res.say text)) >>= fun _ =>
        pure HelperOutcome.returned) := replies_response (res.say text) fresh.2 fun _ => trivial
    exact refusal.congr (.call (aside rfl) fun _ => trivial) (iff_of_true start trivial)
  have ending : ∀ {fd : Descriptor} (before : List HelperEvent) text, Streamed before →
      Responds (fun events => Streamed (before ++ events))
        (system (.writeResponse (res.say text)) >>= fun _ => endTransfer fd) := by
    intro fd before text streamed
    have refusal : Replies (system (.writeResponse (res.say text)) >>= fun _ => endTransfer fd) :=
      replies_response (res.say text) fresh.2 fun _ => silent_endTransfer fd
    have aside : ∀ {op : HelperOp}, op.measures = false →
        Irrelevant (fun events => Streamed (before ++ events)) op := irrelevant_streamed before
    refine refusal.congr (.call (aside rfl) fun _ => ?_) (iff_of_true ?_ trivial)
    · exact only_endTransfer fd (aside rfl) (aside rfl) (aside rfl) (aside rfl)
    · rwa [List.append_nil]
  have both := sandbox.conj (silent_sandboxUser session session.homeText session.workdirText)
  refine responds_after (both.weaken fun _ aside => ⟨aside.2, aside.1⟩) fun inside => ?_
  cases inside with
  | false => exact refuse _
  | true =>
    refine responds_call ⟨rfl, aside rfl⟩ fun opened => ?_
    cases opened with
    | error text => exact refuse _
    | ok fd =>
      refine responds_call ⟨rfl, aside rfl⟩ fun locked => ?_
      cases locked with
      | error failure =>
        exact ending [] _ start
      | ok _ =>
        refine responds_answers rfl fun found => ?_
        have unread : Streamed [⟨.fstat fd, found⟩] := by
          intro measured st read blocks _ read_
          cases List.mem_singleton.mp read_
        match found with
        | .error text => exact ending [_] _ unread
        | .ok ⟨.regular, mode, size⟩ => exact responds_stream rfl rfl
        | .ok ⟨.directory, _, _⟩ | .ok ⟨.link, _, _⟩ | .ok ⟨.other, _, _⟩ =>
          exact ending [_] _ unread

/-- The argument strings that a command uses are there; the login looks for its own. -/
def HelperCall.Supplied (call : HelperCall) : Prop :=
  ∃ argv, call.args = some argv ∧
    (HelperCommand.ofWord call.cmd = some .login ∨ ∀ index ∈ call.used, index < argv.length)

/-- What the framing of a command depends on besides the writes. -/
structure Fitting (call : HelperCall) (events : List HelperEvent) : Prop where
  /-- A change of directory does not succeed. -/
  stays : HelperCommand.ofWord call.cmd = some .cd → Stays events
  /-- A listing finds as many files as there is room for. -/
  fits : HelperCommand.ofWord call.cmd = some .ls → Fits 0 events
  /-- A download reads as much as the size of the file says. -/
  streamed : HelperCommand.ofWord call.cmd = some .download → Streamed events

/-- A command that replies whatever happens has no further condition. -/
theorem Responds.fitting {call : HelperCall} {script : HelperScript HelperOutcome}
    (replies : Replies script)
    (ordinary : ∀ cmd, cmd = .cd ∨ cmd = .ls ∨ cmd = .download →
      HelperCommand.ofWord call.cmd ≠ some cmd) : Responds (Fitting call) script := by
  refine replies.equiv fun events => iff_of_true trivial ?_
  exact ⟨fun command => absurd command (ordinary _ (.inl rfl)),
    fun command => absurd command (ordinary _ (.inr (.inl rfl))),
    fun command => absurd command (ordinary _ (.inr (.inr rfl)))⟩

section Cases

variable {helper : Helper} {call : HelperCall} {argv : List (List UInt8)}

section Arguments

variable {cmd : HelperCommand} (args : call.args = some argv)
  (command : HelperCommand.ofWord call.cmd = some cmd)

include args command

/-- A command that is not given an argument that it uses is not supplied with its arguments. -/
theorem HelperCall.not_supplied (other : cmd ≠ .login) {index : Nat}
    (uses : index ∈ cmd.used call.argc.toNat) (short : argv.length ≤ index) : ¬ call.Supplied := by
  rintro ⟨given, same, all⟩
  rw [args, Option.some.injEq] at same
  subst same
  rw [HelperCall.used, command] at all
  have inside := all.resolve_left (fun login => other (Option.some.inj login)) index uses
  omega

/-- A command that is given the arguments that it uses is supplied with them. -/
theorem HelperCall.supplied_of_used (all : ∀ index ∈ cmd.used call.argc.toNat, index < argv.length) :
    call.Supplied := by
  refine ⟨argv, args, .inr ?_⟩
  rw [HelperCall.used, command]
  exact all

variable (other : cmd ≠ .login) (run : List (List UInt8) → HelperScript HelperOutcome)
  (goal : HelperScript HelperOutcome → Prop)

include other

/-- A command with one argument. -/
theorem HelperCall.cases_one (uses : cmd.used call.argc.toNat = [0]) (none : run [] = pure .undefined)
    (goes : ∀ first later, goal (run (first :: later))) :
    (¬ call.Supplied ∧ run argv = pure .undefined) ∨ (call.Supplied ∧ goal (run argv)) := by
  have zero : 0 ∈ cmd.used call.argc.toNat := by simp [uses]
  cases argv with
  | nil => exact .inl ⟨call.not_supplied args command other zero (Nat.zero_le _), none⟩
  | cons first later =>
    exact .inr ⟨call.supplied_of_used args command (by simp [uses]), goes first later⟩

/-- A command with two arguments. -/
theorem HelperCall.cases_two (uses : cmd.used call.argc.toNat = [0, 1])
    (none : run [] = pure .undefined) (one : ∀ first, run [first] = pure .undefined)
    (goes : ∀ first second later, goal (run (first :: second :: later))) :
    (¬ call.Supplied ∧ run argv = pure .undefined) ∨ (call.Supplied ∧ goal (run argv)) := by
  have last : 1 ∈ cmd.used call.argc.toNat := by simp [uses]
  match argv with
  | [] => exact .inl ⟨call.not_supplied args command other last (Nat.zero_le _), none⟩
  | [first] => exact .inl ⟨call.not_supplied args command other last (Nat.le_refl _), one first⟩
  | first :: second :: later =>
    exact .inr ⟨call.supplied_of_used args command (by simp [uses]), goes first second later⟩

end Arguments

/-- The creation of a file, whose third argument is an option. -/
theorem Helper.execute_createFile (args : call.args = some argv)
    (command : HelperCommand.ofWord call.cmd = some .createFile) (res : HelperResponse)
    {goal : HelperScript HelperOutcome → Prop}
    (goes : ∀ filename privileges makeDir,
      goal (handlerHelperCreateFile call.session filename privileges makeDir res)) :
    (¬ call.Supplied ∧ helper.execute call argv res = pure .undefined) ∨
      (call.Supplied ∧ goal (helper.execute call argv res)) := by
  have second : 1 ∈ HelperCommand.createFile.used call.argc.toNat := by
    rw [HelperCommand.used]
    split <;> decide
  have missing := fun short => call.not_supplied args command nofun second short
  unfold Helper.execute
  rw [command]
  match argv with
  | [] => exact .inl ⟨missing (Nat.zero_le _), rfl⟩
  | [_] => exact .inl ⟨missing (Nat.le_refl _), rfl⟩
  | filename :: privileges :: options =>
    by_cases option : 2 < call.argc.toNat
    · simp only [option, ↓reduceIte]
      match options with
      | [] =>
        have third : 2 ∈ HelperCommand.createFile.used call.argc.toNat := by
          simp [HelperCommand.used, option]
        exact .inl ⟨call.not_supplied args command nofun third (Nat.le_refl _), rfl⟩
      | text :: later =>
        refine .inr ⟨call.supplied_of_used args command ?_, goes _ _ _⟩
        simp [HelperCommand.used, option]
    · simp only [option, ↓reduceIte]
      refine .inr ⟨call.supplied_of_used args command ?_, goes _ _ _⟩
      simp [HelperCommand.used, option]

/-- A transfer between users, with its four arguments. -/
theorem Helper.execute_transfer (args : call.args = some argv)
    (command : HelperCommand.ofWord call.cmd = some .transfer) (res : HelperResponse)
    {goal : HelperScript HelperOutcome → Prop}
    (goes : ∀ sender filename recv targetPath,
      goal (handleHelperTransfer helper.rootDir sender filename recv targetPath res)) :
    (¬ call.Supplied ∧ helper.execute call argv res = pure .undefined) ∨
      (call.Supplied ∧ goal (helper.execute call argv res)) := by
  have last : 3 ∈ HelperCommand.transfer.used call.argc.toNat := by simp [HelperCommand.used]
  have missing := fun short => call.not_supplied args command nofun last short
  unfold Helper.execute
  rw [command]
  match argv with
  | [] | [_] | [_, _] | [_, _, _] => exact .inl ⟨missing (by simp), rfl⟩
  | sender :: filename :: recv :: targetPath :: later =>
    refine .inr ⟨call.supplied_of_used args command ?_, goes _ _ _ _⟩
    simp [HelperCommand.used]

/-- A command goes wrong without its arguments, and is served by its function otherwise. -/
theorem Helper.execute_cases (args : call.args = some argv) (res : HelperResponse)
    {goal : HelperScript HelperOutcome → Prop}
    (unknown : HelperCommand.ofWord call.cmd = none → goal do
      let _ ← system (.writeResponse (res.say (str "Command not available on the helper")))
      return .returned)
    (createUser : HelperCommand.ofWord call.cmd = some .createUser → ∀ username privileges,
      goal (handleHelperCreateUser helper.lockFilePath helper.rootDir username privileges res))
    (login : HelperCommand.ofWord call.cmd = some .login → ∀ username,
      goal (handleHelperLogin username res))
    (cd : HelperCommand.ofWord call.cmd = some .cd → ∀ path,
      goal (changeDirectory call.session path res))
    (ls : HelperCommand.ofWord call.cmd = some .ls → ∀ path,
      goal (handleHelperLs call.session path helper.rootDir res))
    (createFile : HelperCommand.ofWord call.cmd = some .createFile → ∀ filename privileges makeDir,
      goal (handlerHelperCreateFile call.session filename privileges makeDir res))
    (chmod : HelperCommand.ofWord call.cmd = some .chmod → ∀ filename privileges,
      goal (handleHelperChmod call.session filename privileges res))
    (delete : HelperCommand.ofWord call.cmd = some .delete → ∀ path,
      goal (handleHelperDelete call.session path res))
    (move : HelperCommand.ofWord call.cmd = some .move → ∀ path1 path2,
      goal (handleHelperMove call.session path1 path2 res))
    (read : HelperCommand.ofWord call.cmd = some .read → ∀ path,
      goal (handleHelperRead call.session path call.offset res))
    (write : HelperCommand.ofWord call.cmd = some .write → ∀ path,
      goal (handleHelperWrite call.session path call.offset call.data res))
    (download : HelperCommand.ofWord call.cmd = some .download → ∀ path,
      goal (handleHelperDownload call.session path res))
    (upload : HelperCommand.ofWord call.cmd = some .upload → ∀ path,
      goal (handleHelperUpload call.session path res))
    (transfer : HelperCommand.ofWord call.cmd = some .transfer →
      ∀ sender filename recv targetPath,
        goal (handleHelperTransfer helper.rootDir sender filename recv targetPath res)) :
    (¬ call.Supplied ∧ helper.execute call argv res = pure .undefined) ∨
      (call.Supplied ∧ goal (helper.execute call argv res)) := by
  cases command : HelperCommand.ofWord call.cmd with
  | none =>
    unfold Helper.execute
    rw [command]
    refine .inr ⟨⟨argv, args, .inr ?_⟩, unknown command⟩
    rw [HelperCall.used, command]
    exact fun index member => absurd member List.not_mem_nil
  | some cmd =>
    cases cmd with
    | login =>
      simp only [Helper.execute, command]
      exact .inr ⟨⟨argv, args, .inl command⟩, login command _⟩
    | createFile => exact Helper.execute_createFile args command res (createFile command)
    | transfer => exact Helper.execute_transfer args command res (transfer command)
    | createUser =>
      refine call.cases_two args command nofun (helper.execute call · res) goal rfl ?_ (fun _ => ?_)
        fun username _ _ => ?_ <;> simp only [Helper.execute, command]
      exact createUser command username _
    | chmod =>
      refine call.cases_two args command nofun (helper.execute call · res) goal rfl ?_ (fun _ => ?_)
        fun filename _ _ => ?_ <;> simp only [Helper.execute, command]
      exact chmod command filename _
    | move =>
      refine call.cases_two args command nofun (helper.execute call · res) goal rfl ?_ (fun _ => ?_)
        fun path1 path2 _ => ?_ <;> simp only [Helper.execute, command]
      exact move command path1 path2
    | cd =>
      refine call.cases_one args command nofun (helper.execute call · res) goal rfl ?_
        fun path _ => ?_ <;> simp only [Helper.execute, command]
      exact cd command path
    | ls =>
      refine call.cases_one args command nofun (helper.execute call · res) goal rfl ?_
        fun path _ => ?_ <;> simp only [Helper.execute, command]
      exact ls command path
    | delete =>
      refine call.cases_one args command nofun (helper.execute call · res) goal rfl ?_
        fun path _ => ?_ <;> simp only [Helper.execute, command]
      exact delete command path
    | read =>
      refine call.cases_one args command nofun (helper.execute call · res) goal rfl ?_
        fun path _ => ?_ <;> simp only [Helper.execute, command]
      exact read command path
    | write =>
      refine call.cases_one args command nofun (helper.execute call · res) goal rfl ?_
        fun path _ => ?_ <;> simp only [Helper.execute, command]
      exact write command path
    | download =>
      refine call.cases_one args command nofun (helper.execute call · res) goal rfl ?_
        fun path _ => ?_ <;> simp only [Helper.execute, command]
      exact download command path
    | upload =>
      refine call.cases_one args command nofun (helper.execute call · res) goal rfl ?_
        fun path _ => ?_ <;> simp only [Helper.execute, command]
      exact upload command path

/-- The command goes wrong without its arguments, and responds as it should otherwise. -/
def Settled (helper : Helper) (call : HelperCall) (argv : List (List UInt8)) : Prop :=
  (¬ call.Supplied ∧ helper.execute call argv (.blank call.cmd) = pure .undefined) ∨
    (call.Supplied ∧ Responds (Fitting call) (helper.execute call argv (.blank call.cmd)))

/-- A command goes wrong without its arguments, and responds as it should otherwise. -/
theorem settled_execute (args : call.args = some argv) : Settled helper call argv := by
  have fresh := fresh_blank call.cmd
  have ordinary : ∀ {cmd : HelperCommand}, HelperCommand.ofWord call.cmd = some cmd →
      ¬ (cmd = .cd ∨ cmd = .ls ∨ cmd = .download) →
        ∀ other, other = .cd ∨ other = .ls ∨ other = .download →
          HelperCommand.ofWord call.cmd ≠ some other := by
    rintro cmd command none other special same
    rw [command, Option.some.injEq] at same
    exact none (same ▸ special)
  apply Helper.execute_cases args (.blank call.cmd)
  case unknown =>
    intro command
    have returns : ∀ _written : Bool,
        (pure HelperOutcome.returned : HelperScript HelperOutcome).Only Silent := fun _ => trivial
    have replies := replies_response ((HelperResponse.blank call.cmd).say
      (str "Command not available on the helper")) fresh.2 returns
    exact replies.fitting (by simp [command])
  case login =>
    exact fun command username => (replies_login username fresh).fitting (ordinary command (by simp))
  case createUser =>
    exact fun command _ _ => (replies_createUser _ _ _ _ fresh).fitting (ordinary command (by simp))
  case createFile =>
    exact fun command _ _ _ => (replies_createFile _ _ _ _ fresh).fitting (ordinary command (by simp))
  case chmod =>
    exact fun command _ _ => (replies_chmod _ _ _ fresh).fitting (ordinary command (by simp))
  case delete =>
    exact fun command _ => (replies_delete _ _ fresh).fitting (ordinary command (by simp))
  case move =>
    exact fun command _ _ => (replies_move _ _ _ fresh).fitting (ordinary command (by simp))
  case read =>
    exact fun command _ => (replies_read _ _ _ fresh).fitting (ordinary command (by simp))
  case write =>
    exact fun command _ => (replies_write _ _ _ _ fresh).fitting (ordinary command (by simp))
  case upload =>
    exact fun command _ => (replies_upload _ _ fresh).fitting (ordinary command (by simp))
  case transfer =>
    exact fun command _ _ _ _ =>
      (replies_transfer _ _ _ _ _ fresh).fitting (ordinary command (by simp))
  case cd =>
    intro command path
    refine (responds_changeDirectory call.session path fresh).equiv fun events => ?_
    exact ⟨fun stays => ⟨fun _ => stays, by simp [command], by simp [command]⟩,
      fun fitting => fitting.stays command⟩
  case ls =>
    intro command path
    refine (responds_ls call.session path helper.rootDir fresh).equiv fun events => ?_
    exact ⟨fun fits => ⟨by simp [command], fun _ => fits, by simp [command]⟩,
      fun fitting => fitting.fits command⟩
  case download =>
    intro command path
    refine (responds_download call.session path fresh).equiv fun events => ?_
    exact ⟨fun streamed => ⟨by simp [command], by simp [command], fun _ => streamed⟩,
      fun fitting => fitting.streamed command⟩

end Cases

/-- For every request and every failure of a system call: as long as `regainRoot` does not fail,
the helper writes one response and the bytes it announces exactly when the arguments are there,
every write arrives, a change of directory does not succeed, a listing finds as many files as
there is room for, and a download reads as much as the size of the file says. -/
theorem framed_serve_iff (helper : Helper) (call : HelperCall) :
    (helper.serve call).Every fun events _ => RegainsRoot events →
      (Framed events ↔ call.Supplied ∧ Delivered events ∧ Fitting call events) := by
  have unwritten : ¬ Framed [] := fun ⟨_, _, whole, _⟩ => List.cons_ne_nil _ _ whole.symm
  rw [Helper.serve]
  cases args : call.args with
  | none =>
    refine fun _ => iff_of_false unwritten fun fits => ?_
    obtain ⟨argv, given, -⟩ := fits.1
    rw [args] at given
    cases given
  | some argv =>
    rcases settled_execute args with ⟨missing, undefined⟩ | ⟨supplied, responds⟩
    · simp only []
      rw [undefined]
      exact fun _ => iff_of_false unwritten fun fits => missing fits.1
    · refine responds.weaken fun events outcome framed root => ?_
      constructor
      · intro whole
        have arrived := whole.delivered
        exact ⟨supplied, arrived, (framed.2 root arrived).mp whole⟩
      · intro fits
        exact (framed.2 root fits.2.1).mpr fits.2.2

/-- A successful change of directory announces bytes that never follow. -/
theorem not_framed_cd : ¬ ∀ (helper : Helper) (call : HelperCall),
    (helper.serve call).Every fun events _ => RegainsRoot events → Framed events := by
  intro all
  have run := all ⟨str "/srv", str "/srv/.lock", by decide, by decide⟩
    ⟨2, 1, some [str "sub"], .zero, 0, []⟩ true (.ok ()) 0 true true true (.ok ())
    (some ⟨str "/sub", by decide⟩) true true true
  have responds := responds_changeDirectory .zero (str "sub") (fresh_blank 2) true (.ok ()) 0
    true true true (.ok ()) (some ⟨str "/sub", by decide⟩) true true true
  have framed := run ⟨by rintro ⟨⟩, by rintro ⟨⟩⟩
  have stays := (responds.2 ⟨by rintro ⟨⟩, by rintro ⟨⟩⟩ framed.delivered).mp framed
  exact stays ⟨str "/sub", by decide⟩ (by simp)

end FileServer
