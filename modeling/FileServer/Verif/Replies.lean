import FileServer.Lib.Budget
import FileServer.Model.ClientThreads
import FileServer.Verif.Accounts
import FileServer.Verif.Login

/-!
# Replies

Every command is answered with one reply at most, by the handler or by the process that it forks for a
transfer; the message that tells the client a data port is no reply. The reply is marked as one of the
background where the server takes the command for a background transfer, which is not always where the
client does.
-/
namespace FileServer

open FileServer.Lib

/-- A message of the type tells the client a data port. -/
def MsgType.opensData (type : MsgType) : Bool := type = .downloadRes ∨ type = .uploadRes

namespace HandlerOp

/-- The background flag of the reply that a call sends, if it sends one. -/
def replyFlag : HandlerOp → Option Bool
  | sendProtocolMsg type _ _ | writeClient type _ => if type.opensData then none else some false
  | sendProtocolMsgBg type _ _ isBg | sendProtocolMsgLocked type _ _ isBg =>
    if type.opensData then none else some isBg
  | _ => none

/-- The call sends no reply and creates no process. -/
def Quiet (op : HandlerOp) : Prop := op.replyFlag = none ∧ op ≠ .fork

end HandlerOp

/-- The background flags of the replies sent, oldest first. -/
def replyFlags (events : List HandlerEvent) : List Bool := events.filterMap (·.1.replyFlag)

/-- Quiet calls send no reply. -/
theorem replyFlags_quiet {before : List HandlerEvent} (quiet : ∀ event ∈ before, event.1.Quiet)
    (after : List HandlerEvent) : replyFlags (before ++ after) = replyFlags after := by
  unfold replyFlags
  rw [List.filterMap_append, List.filterMap_eq_nil_iff.mpr fun event member => (quiet event member).1,
    List.nil_append]

/-- No process has been created. -/
def Unforked (events : List HandlerEvent) : Prop :=
  ⟨.fork, .parent⟩ ∉ events ∧ ⟨.fork, .child⟩ ∉ events

/-- Quiet calls are no `fork`. -/
theorem mem_after_quiet {before after : List HandlerEvent} (quiet : ∀ event ∈ before, event.1.Quiet)
    (result : ForkResult) : ⟨.fork, result⟩ ∈ before ++ after ↔ ⟨.fork, result⟩ ∈ after := by
  constructor
  · intro member
    rcases List.mem_append.mp member with early | late
    · exact absurd rfl (quiet _ early).2
    · exact late
  · exact List.mem_append_right _

/-- Quiet calls create no process. -/
theorem Unforked.after {before after : List HandlerEvent} (unforked : Unforked after)
    (quiet : ∀ event ∈ before, event.1.Quiet) : Unforked (before ++ after) := by
  unfold Unforked
  rw [mem_after_quiet quiet, mem_after_quiet quiet]
  exact unforked

/-- How a command is answered. -/
inductive Answered (flag : Bool) (events : List HandlerEvent) : Option ClientSession → Prop
  /-- The handler replies. -/
  | reply {session : ClientSession} (one : replyFlags events = [flag]) (unforked : Unforked events) :
    Answered flag events (some session)
  /-- The handler leaves the reply to the process it has forked. -/
  | parent {session : ClientSession} (forked : ⟨.fork, .parent⟩ ∈ events)
    (silent : replyFlags events = []) : Answered flag events (some session)
  /-- The process forked replies once the client has connected. -/
  | child (forked : ⟨.fork, .child⟩ ∈ events) (last : ⟨.fork, .parent⟩ ∉ events)
    (one : replyFlags events = [flag] ∨
      ⟨.acceptData, false⟩ ∈ events ∧ replyFlags events = []) : Answered flag events none
  /-- The handler waits for a user who never comes. -/
  | waits {destUser : List UInt8} (alone : ⟨.awaitUser destUser, none⟩ ∈ events)
    (silent : replyFlags events = []) (unforked : Unforked events) : Answered flag events none

/-- Quiet calls before the answer. -/
theorem Answered.after {flag : Bool} {before after : List HandlerEvent}
    {value : Option ClientSession} (quiet : ∀ event ∈ before, event.1.Quiet)
    (answered : Answered flag after value) : Answered flag (before ++ after) value := by
  have same := replyFlags_quiet quiet after
  cases answered with
  | reply one free => exact .reply (same.trans one) (free.after quiet)
  | parent forked silent => exact .parent (List.mem_append_right _ forked) (same.trans silent)
  | child forked last one =>
    refine .child (List.mem_append_right _ forked) ?_ ?_
    · rw [mem_after_quiet quiet]
      exact last
    rw [same]
    exact one.imp_right fun gone => ⟨List.mem_append_right _ gone.1, gone.2⟩
  | waits alone silent free =>
    exact .waits (List.mem_append_right _ alone) (same.trans silent) (free.after quiet)

/-- A quiet call before the answer. -/
theorem Answered.call {flag : Bool} {event : HandlerEvent} {after : List HandlerEvent}
    {value : Option ClientSession} (quiet : event.1.Quiet) (answered : Answered flag after value) :
    Answered flag (event :: after) value := by
  have single : ∀ other ∈ [event], other.1.Quiet := by
    intro other member
    rwa [List.mem_singleton.mp member]
  exact answered.after single

/-- A `fork` that fails before the answer. -/
theorem Answered.after_failed {flag : Bool} {after : List HandlerEvent}
    {value : Option ClientSession} (answered : Answered flag after value) :
    Answered flag (⟨.fork, .failed⟩ :: after) value := by
  have parent : ⟨.fork, .parent⟩ ∉ after → ⟨.fork, .parent⟩ ∉ ⟨.fork, .failed⟩ :: after :=
    fun free member => free ((List.mem_cons.mp member).resolve_left (by simp))
  have unforked : Unforked after → Unforked (⟨.fork, .failed⟩ :: after) := fun free =>
    ⟨parent free.1, fun member => free.2 ((List.mem_cons.mp member).resolve_left (by simp))⟩
  cases answered with
  | reply one free => exact .reply one (unforked free)
  | parent forked silent => exact .parent (List.mem_cons_of_mem _ forked) silent
  | child forked last one =>
    refine .child (List.mem_cons_of_mem _ forked) (parent last) ?_
    exact one.imp_right fun gone => ⟨List.mem_cons_of_mem _ gone.1, gone.2⟩
  | waits alone silent free => exact .waits (List.mem_cons_of_mem _ alone) silent (unforked free)

/-- Every execution answers the command with the flag. -/
def RepliesWith (flag : Bool) (script : HandlerScript (Option ClientSession)) : Prop :=
  script.Every (Answered flag)

section Parts

variable {flag : Bool} {α : Type}

/-- Quiet calls first. -/
theorem repliesWith_quiet {first : HandlerScript α} {rest : α → HandlerScript (Option ClientSession)}
    (begins : first.Only HandlerOp.Quiet) (goes : ∀ value, RepliesWith flag (rest value)) :
    RepliesWith flag (first >>= rest) :=
  Script.Every.after begins (fun _ _ _ quiet answered => answered.after quiet) goes

/-- A quiet call first. -/
theorem repliesWith_call {op : HandlerOp} {rest : op.Answer → HandlerScript (Option ClientSession)}
    (quiet : op.Quiet) (goes : ∀ answer, RepliesWith flag (rest answer)) :
    RepliesWith flag (perform op >>= rest) :=
  repliesWith_quiet ((Script.only_perform op).mpr quiet) goes

/-- A reply, behind which the handler returns. -/
theorem repliesWith_send {op : HandlerOp} (sends : op.replyFlag = some flag) (other : op ≠ .fork)
    (session : ClientSession) : RepliesWith flag (perform op >>= fun _ => pure (some session)) := by
  intro answer
  refine .reply ?_ ?_
  · simp [replyFlags, sends]
  · constructor
    · exact fun member => other (congrArg Sigma.fst (List.mem_singleton.mp member)).symm
    · exact fun member => other (congrArg Sigma.fst (List.mem_singleton.mp member)).symm

variable {call : HandlerCall}

/-- `sendProtocolMsg` with a text. -/
theorem repliesWith_reply (status : Int32) (msg : List UInt8) :
    RepliesWith false (call.reply status msg) :=
  repliesWith_send rfl (by simp) call.session

/-- `sendProtocolMsgLocked` with a text. -/
theorem repliesWith_replyLocked (status : Int32) (msg : List UInt8) (isBg : Bool) :
    RepliesWith isBg (call.replyLocked status msg isBg) :=
  repliesWith_send rfl (by simp) call.session

/-- A refusal before login. -/
theorem repliesWith_loggedIn {status : Int32} {refusal : List UInt8}
    {rest : HandlerScript (Option ClientSession)} (goes : RepliesWith false rest) :
    RepliesWith false (call.loggedIn status refusal rest) := by
  rw [HandlerCall.loggedIn]
  split
  · exact repliesWith_reply _ _
  · exact goes

/-- A request to the helper. -/
theorem repliesWith_askHelper {unreachable : List UInt8} {request : HelperRequest}
    {rest : HelperAnswer → HandlerScript (Option ClientSession)}
    (goes : ∀ answer, RepliesWith false (rest answer)) :
    RepliesWith false (call.askHelper unreachable request rest) := by
  refine repliesWith_call ⟨rfl, by simp⟩ fun connected => ?_
  cases connected with
  | true => exact repliesWith_call ⟨rfl, by simp⟩ goes
  | false => exact repliesWith_reply _ _

/-- A request whose status is passed on. -/
theorem repliesWith_relay (unreachable : List UInt8) (request : HelperRequest) :
    RepliesWith false (call.relay unreachable request) :=
  repliesWith_askHelper fun _ => repliesWith_reply _ _

/-- A request that is answered with data. -/
theorem repliesWith_fetch (unreachable empty : List UInt8) (request : HelperRequest) {type : MsgType}
    (reply : type.opensData = false) :
    RepliesWith false (call.fetch unreachable request type empty) := by
  refine repliesWith_askHelper fun answer => ?_
  split
  · exact repliesWith_reply _ _
  split
  · refine repliesWith_call ⟨rfl, by simp⟩ fun block => ?_
    cases block with
    | none => exact repliesWith_reply _ _
    | some _ =>
      refine repliesWith_call ⟨rfl, by simp⟩ fun received => ?_
      cases received with
      | none => exact repliesWith_reply _ _
      | some bytes =>
        exact repliesWith_send (by simp [HandlerOp.replyFlag, reply]) (by simp) call.session
  · exact repliesWith_reply _ _

/-- How a process forked for a transfer answers, behind its `fork`. -/
def ChildReplies (flag : Bool) (script : HandlerScript (Option ClientSession)) : Prop :=
  script.Every fun events value => value = none ∧ ⟨.fork, .parent⟩ ∉ events ∧
    (replyFlags events = [flag] ∨ ⟨.acceptData, false⟩ ∈ events ∧ replyFlags events = [])

/-- Quiet calls first. -/
theorem childReplies_quiet {first : HandlerScript α}
    {rest : α → HandlerScript (Option ClientSession)} (begins : first.Only HandlerOp.Quiet)
    (goes : ∀ value, ChildReplies flag (rest value)) : ChildReplies flag (first >>= rest) := by
  refine Script.Every.after begins (fun before after value quiet answered => ?_) goes
  obtain ⟨ended, last, one⟩ := answered
  refine ⟨ended, ?_, ?_⟩
  · rw [mem_after_quiet quiet]
    exact last
  · rw [replyFlags_quiet quiet]
    exact one.imp_right fun gone => ⟨List.mem_append_right _ gone.1, gone.2⟩

/-- The reply at the end. -/
theorem childReplies_send (status : Int32) (msg : List UInt8) (isBg : Bool) :
    ChildReplies isBg (perform (.sendProtocolMsgLocked .text status msg isBg) >>= fun _ =>
      pure none) :=
  fun _ => ⟨rfl, by simp, .inl rfl⟩

/-- The copying loops are quiet. -/
theorem quiet_copies (left : Nat)
    (blocks : List { bytes : List UInt8 // 0 < bytes.length ∧ bytes.length ≤ bufferSize }) :
    (copyDownload left).Only HandlerOp.Quiet ∧ (copyUpload blocks).Only HandlerOp.Quiet := by
  constructor
  · induction left using Nat.strong_induction_on with
    | _ left ih =>
      rw [copyDownload]
      split
      · trivial
      · rename_i more
        refine .call ⟨rfl, by simp⟩ fun part => ?_
        cases part with
        | none => trivial
        | some part =>
          obtain ⟨bytes, bounds⟩ := part
          refine .call ⟨rfl, by simp⟩ fun written => ?_
          cases written with
          | true => exact ih (left - bytes.length) (by omega)
          | false => trivial
  · induction blocks with
    | nil => trivial
    | cons bytes later ih =>
      refine .call ⟨rfl, by simp⟩ fun written => ?_
      cases written with
      | true => exact ih
      | false => trivial

/-- What a process forked for a transfer does before it copies. -/
theorem childReplies_accept {rest : HelperAnswer → HandlerScript (Option ClientSession)}
    {request : HelperRequest} (goes : ∀ answer, ChildReplies flag (rest answer)) :
    ChildReplies flag (perform .releaseSocketLock >>= fun _ => perform .acceptData >>= fun accepted =>
      if accepted = true then
        perform .connectToHelper >>= fun _ => perform (.sendHelperRequest request) >>= rest
      else pure none) := by
  refine childReplies_quiet ((Script.only_perform _).mpr ⟨rfl, by simp⟩) fun _ => ?_
  intro accepted
  cases accepted with
  | true =>
    have connecting : ChildReplies flag (perform .connectToHelper >>= fun _ =>
        perform (.sendHelperRequest request) >>= rest) :=
      childReplies_quiet ((Script.only_perform _).mpr ⟨rfl, by simp⟩) fun _ =>
        childReplies_quiet ((Script.only_perform _).mpr ⟨rfl, by simp⟩) goes
    refine connecting.weaken fun events value answered => ?_
    obtain ⟨ended, last, one⟩ := answered
    refine ⟨ended, fun member => last ((List.mem_cons.mp member).resolve_left (by simp)), ?_⟩
    exact one.imp_right fun gone => ⟨List.mem_cons_of_mem _ gone.1, gone.2⟩
  | false => exact ⟨rfl, by simp, .inr ⟨List.mem_cons_self, rfl⟩⟩

/-- The process behind a download. -/
theorem childReplies_downloadChild (serverPath clientPath : List UInt8) (isBg : Bool) :
    ChildReplies isBg (downloadChild call serverPath clientPath isBg) := by
  refine childReplies_accept fun answer => ?_
  split
  · refine childReplies_quiet (quiet_copies _ []).1 fun _ => ?_
    refine childReplies_quiet ((Script.only_perform _).mpr ⟨rfl, by simp⟩) fun _ => ?_
    exact childReplies_send _ _ _
  · refine childReplies_quiet ((Script.only_perform _).mpr ⟨rfl, by simp⟩) fun _ => ?_
    exact childReplies_send _ _ _

/-- The process behind an upload. -/
theorem childReplies_uploadChild (clientPath serverPath : List UInt8) (isBg : Bool) :
    ChildReplies isBg (uploadChild call clientPath serverPath isBg) := by
  refine childReplies_accept fun answer => ?_
  split
  · refine childReplies_quiet ((Script.only_perform _).mpr ⟨rfl, by simp⟩) fun blocks => ?_
    refine childReplies_quiet (quiet_copies 0 blocks).2 fun _ => ?_
    refine childReplies_quiet ((Script.only_perform _).mpr ⟨rfl, by simp⟩) fun _ => ?_
    exact childReplies_send _ _ _
  · refine childReplies_quiet ((Script.only_perform _).mpr ⟨rfl, by simp⟩) fun _ => ?_
    exact childReplies_send _ _ _

/-- A transfer is answered by the process that serves it, unless there is none. -/
theorem repliesWith_forkTransfer {type : MsgType} {clientPath : List UInt8} {isBg : Bool}
    {child : HandlerScript (Option ClientSession)} (opens : type.opensData = true)
    (forked : ChildReplies isBg child) :
    RepliesWith isBg (forkTransfer call type clientPath isBg child) := by
  refine repliesWith_call ⟨rfl, by simp⟩ fun bound => ?_
  cases bound with
  | none => exact repliesWith_replyLocked _ _ _
  | some port =>
    intro result
    cases result with
    | failed =>
      have replied : RepliesWith isBg (call.replyLocked (-1) (str "Fork failed") isBg) :=
        repliesWith_replyLocked _ _ _
      exact replied.weaken fun events value answered => answered.after_failed
    | parent =>
      intro sent
      refine .parent List.mem_cons_self ?_
      simp [replyFlags, HandlerOp.replyFlag, opens]
    | child =>
      refine forked.weaken fun events value answered => ?_
      obtain ⟨rfl, last, one⟩ := answered
      refine .child List.mem_cons_self
        (fun member => last ((List.mem_cons.mp member).resolve_left (by simp))) ?_
      exact one.imp_right fun gone => ⟨List.mem_cons_of_mem _ gone.1, gone.2⟩

end Parts

/-- The server takes the command for a background transfer. -/
def HandlerCall.inBackground (call : HandlerCall) : Bool :=
  (call.args.head? = some (str "download") ∨ call.args.head? = some (str "upload")) ∧
    isBackground call.args ∧ (call.session.state ≠ .loggedIn ∨ call.args.length = 4)

section Handlers

variable {call : HandlerCall}

/-- The commands for accounts, directories and files. -/
theorem repliesWith_files (call : HandlerCall) : RepliesWith false (handleCreateUser call) ∧
    RepliesWith false (handleCd call) ∧ RepliesWith false (handleLs call) ∧
    RepliesWith false (handleCreateFile call) ∧ RepliesWith false (handleChmod call) ∧
    RepliesWith false (handleDelete call) ∧ RepliesWith false (handleMove call) ∧
    RepliesWith false (handleRead call) ∧ RepliesWith false (handleWrite call) := by
  refine ⟨?_, repliesWith_loggedIn ?_, repliesWith_loggedIn ?_, repliesWith_loggedIn ?_,
    repliesWith_loggedIn ?_, repliesWith_loggedIn ?_, repliesWith_loggedIn ?_,
    repliesWith_loggedIn ?_, repliesWith_loggedIn ?_⟩
  · unfold handleCreateUser
    repeat' split
    all_goals first | exact repliesWith_reply _ _ | exact repliesWith_relay _ _
  · split
    · refine repliesWith_askHelper fun answer => ?_
      split <;> exact repliesWith_reply _ _
    · exact repliesWith_reply _ _
  all_goals
    repeat' split
    all_goals first
      | exact repliesWith_reply _ _
      | exact repliesWith_relay _ _
      | exact repliesWith_fetch _ _ _ rfl

/-- The login. -/
theorem repliesWith_handleLogin : RepliesWith false (handleLogin call) := by
  unfold handleLogin
  repeat' split
  all_goals first
    | exact repliesWith_reply _ _
    | refine repliesWith_askHelper fun answer => ?_
      split
      · exact repliesWith_call ⟨rfl, by simp⟩ fun _ => repliesWith_reply _ _
      · exact repliesWith_reply _ _

/-- The commands for transfers between users. -/
theorem repliesWith_transfers (call : HandlerCall) :
    RepliesWith false (handleTransferRequest call) ∧
      RepliesWith false (handleAcceptTransfer call) ∧
      RepliesWith false (handleRejectTransfer call) := by
  refine ⟨repliesWith_loggedIn ?_, repliesWith_loggedIn ?_, repliesWith_loggedIn ?_⟩
  · split
    all_goals first
      | exact repliesWith_reply _ _
      | intro target
        cases target with
        | none =>
          exact .waits List.mem_cons_self rfl (by simp [Unforked])
        | some pid =>
          refine (repliesWith_call ⟨rfl, by simp⟩ fun assigned => ?_).weaken
            fun events value answered => answered.call ⟨rfl, by simp⟩
          split
          · exact repliesWith_reply _ _
          · exact repliesWith_call ⟨rfl, by simp⟩ fun _ => repliesWith_reply _ _
  · split
    · refine repliesWith_call ⟨rfl, by simp⟩ fun found => ?_
      cases found with
      | none => exact repliesWith_reply _ _
      | some slot => exact repliesWith_relay _ _
    · exact repliesWith_reply _ _
  · split
    · refine repliesWith_call ⟨rfl, by simp⟩ fun found => ?_
      cases found with
      | rejected sender =>
        -- the sender is told behind the reply
        intro sent target
        cases target with
        | some pid =>
          intro killed
          exact .reply rfl (by simp [Unforked])
        | none => exact .reply rfl (by simp [Unforked])
      | notYours => exact repliesWith_reply _ _
      | notFound => exact repliesWith_reply _ _
    · exact repliesWith_reply _ _

/-- The flag of a transfer before login. -/
theorem inBackground_early (name : call.args.head? = some (str "download") ∨
      call.args.head? = some (str "upload")) (early : call.session.state ≠ .loggedIn) :
    call.inBackground = isBackground call.args := by
  simp [HandlerCall.inBackground, name, early]

/-- The flag of a transfer after login, which takes three words or four. -/
theorem inBackground_loggedIn (name : call.args.head? = some (str "download") ∨
      call.args.head? = some (str "upload")) (loggedIn : call.session.state = .loggedIn) :
    (call.args.length = 4 → call.inBackground = isBackground call.args) ∧
      (call.args.length ≠ 4 → call.inBackground = false) := by
  constructor
  · intro four
    simp [HandlerCall.inBackground, name, four]
  · intro other
    simp [HandlerCall.inBackground, loggedIn, other]

/-- A command of three words runs in the foreground. -/
theorem isBackground_three {args : List (List UInt8)} (three : args.length = 3) :
    isBackground args = false := by
  simp [isBackground, three]

/-- A list that is none of four words does not have four. -/
theorem length_ne_four {args : List (List UInt8)}
    (other : ∀ first second third fourth, args = [first, second, third, fourth] → False) :
    args.length ≠ 4 := by
  intro four
  rcases args with _ | ⟨first, _ | ⟨second, _ | ⟨third, _ | ⟨fourth, _ | ⟨fifth, later⟩⟩⟩⟩⟩
  case cons.cons.cons.cons.nil => exact other _ _ _ _ rfl
  all_goals simp at four

/-- A download. -/
theorem repliesWith_handleDownload (name : call.args.head? = some (str "download")) :
    RepliesWith call.inBackground (handleDownload call) := by
  unfold handleDownload
  dsimp only
  split
  · rename_i usage
    have flag : call.inBackground = isBackground call.args := by
      simp [HandlerCall.inBackground, usage.2]
    rw [flag]
    exact repliesWith_replyLocked _ _ _
  split
  · rename_i early
    rw [inBackground_early (.inl name) early]
    exact repliesWith_replyLocked _ _ _
  rename_i later
  obtain ⟨four, other⟩ := inBackground_loggedIn (.inl name) (not_not.mp later)
  split
  · rename_i words
    have three : call.args.length = 3 := by rw [words]; rfl
    rw [other (by omega), ← isBackground_three three]
    exact repliesWith_forkTransfer rfl (childReplies_downloadChild _ _ _)
  · rename_i words
    rw [four (by rw [words]; rfl)]
    exact repliesWith_forkTransfer rfl (childReplies_downloadChild _ _ _)
  · rename_i words
    rw [other (length_ne_four words)]
    exact repliesWith_replyLocked _ _ _

/-- An upload. -/
theorem repliesWith_handleUpload (name : call.args.head? = some (str "upload")) :
    RepliesWith call.inBackground (handleUpload call) := by
  unfold handleUpload
  dsimp only
  split
  · rename_i early
    rw [inBackground_early (.inr name) early]
    exact repliesWith_replyLocked _ _ _
  rename_i later
  obtain ⟨four, other⟩ := inBackground_loggedIn (.inr name) (not_not.mp later)
  split
  · rename_i words
    have three : call.args.length = 3 := by rw [words]; rfl
    rw [other (by omega), ← isBackground_three three]
    exact repliesWith_forkTransfer rfl (childReplies_uploadChild _ _ _)
  · rename_i words
    rw [four (by rw [words]; rfl)]
    exact repliesWith_forkTransfer rfl (childReplies_uploadChild _ _ _)
  · rename_i words
    rw [other (length_ne_four words)]
    exact repliesWith_replyLocked _ _ _

/-- The flag of a command that is no transfer. -/
theorem inBackground_other (download : call.args.head? ≠ some (str "download"))
    (upload : call.args.head? ≠ some (str "upload")) : call.inBackground = false := by
  simp [HandlerCall.inBackground, download, upload]

/-- Every execution of a command answers it, with the flag that the server gives it. -/
theorem repliesWith_dispatchCommands : RepliesWith call.inBackground (dispatchCommands call) := by
  unfold dispatchCommands
  split
  · rename_i none
    rw [inBackground_other (by simp [none]) (by simp [none])]
    exact repliesWith_reply _ _
  · rename_i name words all
    have first : call.args.head? = some name := by rw [all]; rfl
    split
    · rename_i known func found
      have member := List.mem_of_find?_eq_some found
      have same : known = name := by simpa using List.find?_some found
      subst same
      obtain ⟨create, cd, ls, file, chmod, delete, move, read, write⟩ := repliesWith_files call
      obtain ⟨request, accept, reject⟩ := repliesWith_transfers call
      have other : known ≠ str "download" → known ≠ str "upload" →
          call.inBackground = false := fun download upload =>
        inBackground_other (by simpa [first] using download) (by simpa [first] using upload)
      simp only [commands, List.mem_cons, List.not_mem_nil, or_false, Prod.mk.injEq] at member
      rcases member with ⟨rfl, rfl⟩ | ⟨rfl, rfl⟩ | ⟨rfl, rfl⟩ | ⟨rfl, rfl⟩ | ⟨rfl, rfl⟩ |
        ⟨rfl, rfl⟩ | ⟨rfl, rfl⟩ | ⟨rfl, rfl⟩ | ⟨rfl, rfl⟩ | ⟨rfl, rfl⟩ | ⟨rfl, rfl⟩ | ⟨rfl, rfl⟩ |
        ⟨rfl, rfl⟩ | ⟨rfl, rfl⟩ | ⟨rfl, rfl⟩
      case inr.inr.inr.inr.inr.inr.inr.inr.inr.inr.inl => exact repliesWith_handleDownload first
      case inr.inr.inr.inr.inr.inr.inr.inr.inr.inr.inr.inl => exact repliesWith_handleUpload first
      all_goals rw [other (by decide) (by decide)]
      exacts [create, repliesWith_handleLogin, ls, cd, file, chmod, delete, move, read, write,
        request, accept, reject]
    · rename_i missing
      rw [inBackground_other ?_ ?_]
      · exact repliesWith_reply _ _
      all_goals
        intro known
        rw [first, Option.some.injEq] at known
        subst known
        exact absurd missing (by decide)

end Handlers

/-- The messages that the client makes of a line. -/
inductive CommandLine.Makes (line : CommandLine) : Received → Prop
  /-- Any command but a write command. -/
  | command (padding : CharArray 3) : Makes line (commandMessage line padding)
  /-- A write command. -/
  | write {content : List UInt8} {padding : CharArray 3} {message : Received}
    (made : writeMessage line content padding = some message) : Makes line message

/-- The text and the flag of such a message are those of the line. -/
theorem CommandLine.Makes.parts {line : CommandLine} {message : Received}
    (makes : line.Makes message) :
    cString message.2 = line.text ∧ (message.background = true ↔ str " -b" <:+: line.text) := by
  have flag : ∀ (type : MsgType) (length : Nat) (padding : CharArray 3) (payload : List UInt8),
      Received.background (clientHeader type line length padding, payload) = true ↔
        str " -b" <:+: line.text := by
    intro type length padding payload
    unfold Received.background clientHeader
    by_cases marked : str " -b" <:+: line.text <;> simp [marked]
  cases makes with
  | command padding => exact ⟨cString_terminated line.clean [], flag _ _ _ _⟩
  | @write content padding _ made =>
    unfold writeMessage at made
    obtain ⟨-, same⟩ := Option.ite_none_left_eq_some.mp made
    obtain rfl := Option.some.inj same
    refine ⟨?_, flag _ _ _ _⟩
    rw [List.append_assoc]
    exact cString_terminated line.clean content

/-- Such a message announces a payload. -/
theorem CommandLine.Makes.filled {line : CommandLine} {message : Received}
    (makes : line.Makes message) : message.1.payloadLength ≠ 0 := by
  intro none
  cases makes with
  | command padding =>
    have size := congrArg UInt32.toNat none
    have short := line.short
    simp only [commandMessage, clientHeader, List.length_append, List.length_singleton,
      UInt32.toNat_ofNat', UInt32.toNat_zero] at size
    omega
  | @write content padding _ made =>
    unfold writeMessage at made
    obtain ⟨whole, same⟩ := Option.ite_none_left_eq_some.mp made
    obtain rfl := Option.some.inj same
    dsimp only at none whole
    rw [none] at whole
    simp at whole

/-- The words that the server finds in the line. -/
def CommandLine.arguments (line : CommandLine) : List (List UInt8) :=
  (words 32 line.text).take maxArgs

/-- Where the server takes a command for a background transfer, so does the client. -/
theorem infix_of_isBackground {line : CommandLine} (background : isBackground line.arguments = true) :
    str " -b" <:+: line.text := by
  unfold isBackground CommandLine.arguments at background
  rw [decide_eq_true_eq] at background
  obtain ⟨many, last⟩ := background
  have behind : str "-b" ∈ (words 32 line.text).tail := by
    cases all : words 32 line.text with
    | nil =>
      rw [all] at many
      exact absurd many (by decide)
    | cons first later =>
      rw [all, List.take_succ_cons] at many last
      have filled : later.take 4 ≠ [] := by
        rintro none
        rw [none] at many
        exact absurd many (by decide : ¬ 4 ≤ 1)
      rw [← List.singleton_append, List.getLast?_append_of_ne_nil _ filled] at last
      exact List.mem_of_mem_take (List.mem_of_getLast? last)
  show 32 :: str "-b" <:+: line.text
  exact word_behind_of_tail behind

/-- Every execution replies with no other flag than the one that the server gives the command. -/
theorem Answered.flag {flag : Bool} {events : List HandlerEvent} {value : Option ClientSession}
    (answered : Answered flag events value) : ∀ other ∈ replyFlags events, other = flag := by
  intro other member
  cases answered with
  | reply one => exact List.mem_singleton.mp (one ▸ member)
  | parent _ silent | waits _ silent =>
    rw [silent] at member
    cases member
  | child _ _ one =>
    rcases one with one | ⟨-, silent⟩
    · exact List.mem_singleton.mp (one ▸ member)
    · rw [silent] at member
      cases member

/-- Surroundings in which no process is created and every user is found. -/
def forkless : Surroundings Unit := fun _ op =>
  match op with
  | .awaitUser _ => (some 1, ())
  | other => (willing other, ())

/-- In such surroundings the handler itself replies. -/
theorem replyFlags_forkless (call : HandlerCall) :
    replyFlags ((dispatchCommands call).runOn forkless ()).events = [call.inBackground] := by
  have answered := (@repliesWith_dispatchCommands call).runOn forkless ()
  have makes : (dispatchCommands call).Only fun _ => True :=
    HandlerCall.only_dispatchCommands.weaken fun _ _ => trivial
  have given : ∀ event ∈ ((dispatchCommands call).runOn forkless ()).events,
      event.2 = (forkless () event.1).1 :=
    (makes.runOn forkless (fun _ : Unit => True) (fun op answer => answer = (forkless () op).1)
      (fun _ _ _ _ => ⟨trivial, rfl⟩) trivial).2
  cases ended : ((dispatchCommands call).runOn forkless ()).value <;> rw [ended] at answered
  · cases answered with
    | child forked => cases given _ forked
    | waits alone => cases given _ alone
  · cases answered with
    | reply one => exact one
    | parent forked => cases given _ forked

/-- The server takes the line for a background transfer. -/
def CommandLine.RunsBehind (line : CommandLine) (session : ClientSession) : Prop :=
  (line.arguments.head? = some (str "download") ∨ line.arguments.head? = some (str "upload")) ∧
    line.arguments.getLast? = some (str "-b") ∧
      (line.arguments.length = 4 ∨ line.arguments.length = 5 ∧ session.state ≠ .loggedIn)

/-- That is how it marks the reply. -/
theorem inBackground_iff {line : CommandLine} {call : HandlerCall} (words : call.args = line.arguments) :
    call.inBackground = true ↔ line.RunsBehind call.session := by
  have few : line.arguments.length ≤ 5 := List.length_take_le _ _
  unfold HandlerCall.inBackground CommandLine.RunsBehind isBackground
  rw [words]
  simp only [decide_eq_true_eq]
  constructor
  · rintro ⟨transfer, ⟨many, last⟩, early | four⟩
    · have sizes : line.arguments.length = 4 ∨ line.arguments.length = 5 := by omega
      exact ⟨transfer, last, sizes.imp_right fun five => ⟨five, early⟩⟩
    · exact ⟨transfer, last, .inl four⟩
  · rintro ⟨transfer, last, four | ⟨five, early⟩⟩
    · exact ⟨transfer, ⟨by omega, last⟩, .inr four⟩
    · exact ⟨transfer, ⟨by omega, last⟩, .inl early⟩

/-- Such a line runs in the background for the client, too. -/
theorem CommandLine.RunsBehind.within_line {line : CommandLine} {session : ClientSession}
    (behind : line.RunsBehind session) : str " -b" <:+: line.text := by
  obtain ⟨-, last, many⟩ := behind
  have background : isBackground line.arguments = true := by
    simp only [isBackground, decide_eq_true_eq]
    rcases many with four | ⟨five, -⟩
    · exact ⟨by omega, last⟩
    · exact ⟨by omega, last⟩
  exact infix_of_isBackground background

/-- Whatever answers its calls, the server sends at most one reply to a command, by the handler or by
the process it forks; and every such reply carries the background flag that the client has given the
command exactly if a line with ` -b` anywhere is a transfer whose last word of five at most is `-b`,
the fourth one, or the fifth one before login. -/
theorem reply_flag_iff (line : CommandLine) (message : Received) (makes : line.Makes message)
    (pid : UInt32) (session : ClientSession) (behind : Nat → UInt8) :
    let call := messageCall pid session behind message
    (dispatchCommands call).Every (Answered call.inBackground) ∧
      ((dispatchCommands call).Every (fun events _ =>
          ∀ flag ∈ replyFlags events, flag = message.background) ↔
        (str " -b" <:+: line.text → line.RunsBehind session)) := by
  intro call
  obtain ⟨text, background⟩ := makes.parts
  have words : call.args = line.arguments := by
    show (messageCall pid session behind message).args = _
    rw [args_messageCall, text]
    rfl
  have flag : call.inBackground = true ↔ line.RunsBehind session := inBackground_iff words
  refine ⟨repliesWith_dispatchCommands, fun same => ?_, fun agreed => ?_⟩
  · intro marked
    have expected := same.runOn forkless () call.inBackground
    rw [replyFlags_forkless, List.mem_singleton, background.mpr marked] at expected
    exact flag.mp (expected rfl)
  · refine repliesWith_dispatchCommands.weaken fun events value answered other member => ?_
    rw [answered.flag other member, Bool.eq_iff_iff, flag, background]
    exact ⟨CommandLine.RunsBehind.within_line, agreed⟩

/-- A download in the background. -/
def downloadLine : CommandLine := ⟨str "download notes copy -b", by decide, by decide, by decide⟩

/-- The client and the server agree about it. -/
theorem reply_flag_iff_download :
    (dispatchCommands (messageCall 7 bobSession (fun _ => 0)
      (commandMessage downloadLine (.zero 3)))).Every fun events _ =>
        ∀ flag ∈ replyFlags events, flag = true := by
  have agreed := (reply_flag_iff downloadLine _ (.command (.zero 3)) 7 bobSession fun _ => 0).2.mpr
  refine agreed fun marked => ⟨.inl ?_, ?_, .inl ?_⟩
  all_goals decide +kernel

end FileServer
