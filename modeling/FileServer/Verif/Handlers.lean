import FileServer.Model.HandleClient

/-!
# What the handlers do

Two facts about every command, from which the results about sessions and requests follow: which
requests its handler can send, with their arguments and their session; and which session it
leaves. Both are put together from one lemma for each of the parts that handlers share.
-/
namespace FileServer

open FileServer.Lib

namespace HandlerCall

/-- The commands of `sendHelperRequest` that carry the session, with the numbers of their
arguments. -/
def sessionArities : List (HelperCommand × Nat) :=
  [(.cd, 1), (.ls, 1), (.createFile, 2), (.createFile, 3), (.chmod, 2), (.delete, 1), (.move, 2)]

/-- The requests a handler sends, by the arguments of its command. -/
inductive Issues (call : HandlerCall) : HelperRequest → Prop
  /-- The creation of a user needs no login. -/
  | createUser {name username permissions : List UInt8}
      (args : call.args = [name, username, permissions])
      (valid : isUsernameValid (some username) = true) :
      Issues call (.plain .createUser [username, permissions] none)
  /-- A login is asked for once. -/
  | login {name username : List UInt8} (fresh : call.session.state ≠ .loggedIn)
      (args : call.args = [name, username]) (valid : isUsernameValid (some username) = true) :
      Issues call (.plain .login [username] none)
  /-- The arguments of most commands are passed on as they are. -/
  | plain {cmd : HelperCommand} {name : List UInt8} {argv : List (List UInt8)}
      (loggedIn : call.session.state = .loggedIn) (args : call.args = name :: argv)
      (arity : (cmd, argv.length) ∈ sessionArities) :
      Issues call (.plain cmd argv (some call.session))
  /-- A read passes on a path. -/
  | read {path : List UInt8} (offset : Int32) (loggedIn : call.session.state = .loggedIn)
      (args : path ∈ call.args) :
      Issues call (.readWrite .read [path] offset (some call.session) [])
  /-- A write passes on a path and the data that lie behind the arguments. -/
  | write {path : List UInt8} (offset : Int32) (loggedIn : call.session.state = .loggedIn)
      (args : path ∈ call.args) :
      Issues call (.readWrite .write [path] offset (some call.session)
        (call.block (cmdEnd call.argv) (dataLen call.hdr.payloadLength call.argv).toNat))
  /-- A background transfer passes on the path on the server. -/
  | background {cmd : HelperCommand} {path : List UInt8} (either : cmd = .download ∨ cmd = .upload)
      (loggedIn : call.session.state = .loggedIn) (args : path ∈ call.args) :
      Issues call (.readWrite cmd [path] 0 (some call.session) [])
  /-- An accepted transfer names the file of the sender and the directory of the receiver. -/
  | transfer (slot : TransferRequest) {name targetDir id : List UInt8}
      (loggedIn : call.session.state = .loggedIn) (args : call.args = [name, targetDir, id]) :
      Issues call (.plain .transfer [slot.senderText, slot.filenameText,
        call.session.usernameText, targetDir] none)

/-- The calls a handler makes: its requests, and sections that change a transfer only after
login. -/
def Makes (call : HandlerCall) : HandlerOp → Prop
  | .sendHelperRequest request => call.Issues request
  | .enter entered => entered.changesTransfers = true → call.session.state = .loggedIn
  | _ => True

variable {call : HandlerCall} {rest : HandlerScript (Option ClientSession)}

/-- A call comes first. -/
theorem only_then {α : Type} {op : HandlerOp} {goOn : op.Answer → HandlerScript α}
    (made : call.Makes op) (goes : ∀ answer, (goOn answer).Only call.Makes) :
    (perform op >>= goOn).Only call.Makes :=
  Script.Only.bind ((Script.only_perform op).mpr made) goes

/-- A reply is a message to the client. -/
theorem only_reply (other : HandlerCall) (status : Int32) (msg : List UInt8) :
    (other.reply status msg).Only call.Makes :=
  only_then trivial fun _ => trivial

/-- A reply under the lock is a message to the client. -/
theorem only_replyLocked (status : Int32) (msg : List UInt8) (isBg : Bool) :
    (call.replyLocked status msg isBg).Only call.Makes :=
  only_then trivial fun _ => trivial

/-- Behind the refusal the session is logged in. -/
theorem only_loggedIn {status : Int32} {refusal : List UInt8}
    (goes : call.session.state = .loggedIn → rest.Only call.Makes) :
    (call.loggedIn status refusal rest).Only call.Makes := by
  by_cases loggedIn : call.session.state = .loggedIn
  · simpa [HandlerCall.loggedIn, loggedIn] using goes loggedIn
  · simpa [HandlerCall.loggedIn, loggedIn] using only_reply call status refusal

/-- A request is the call to account for. -/
theorem only_askHelper {unreachable : List UInt8} {request : HelperRequest}
    {goOn : HelperAnswer → HandlerScript (Option ClientSession)} (issued : call.Issues request)
    (goes : ∀ answer, (goOn answer).Only call.Makes) :
    (call.askHelper unreachable request goOn).Only call.Makes := by
  refine only_then trivial fun connected => ?_
  cases connected with
  | true => exact only_then issued goes
  | false => exact only_reply call _ _

/-- The status of a request is passed on. -/
theorem only_relay {unreachable : List UInt8} {request : HelperRequest}
    (issued : call.Issues request) : (call.relay unreachable request).Only call.Makes :=
  only_askHelper issued fun _ => only_reply call _ _

/-- The data of a request are passed on. -/
theorem only_fetch {unreachable empty : List UInt8} {request : HelperRequest} {type : MsgType}
    (issued : call.Issues request) :
    (call.fetch unreachable request type empty).Only call.Makes := by
  refine only_askHelper issued fun answer => ?_
  split
  · exact only_reply call _ _
  split
  · refine only_then trivial fun block => ?_
    cases block with
    | none => exact only_reply call _ _
    | some _ =>
      refine only_then trivial fun received => ?_
      cases received with
      | none => exact only_reply call _ _
      | some bytes => exact only_then trivial fun _ => trivial
  · exact only_reply call _ _

/-- Copying a download is no request. -/
theorem only_copyDownload (left : Nat) : (copyDownload left).Only call.Makes := by
  induction left using Nat.strong_induction_on with
  | _ left ih =>
    rw [copyDownload]
    split
    · trivial
    · rename_i more
      refine only_then trivial fun part => ?_
      match part with
      | none => trivial
      | some ⟨bytes, bounds⟩ =>
        refine only_then trivial fun written => ?_
        cases written with
        | true => exact ih (left - bytes.length) (by omega)
        | false => trivial

/-- Copying an upload is no request. -/
theorem only_copyUpload
    (blocks : List { bytes : List UInt8 // 0 < bytes.length ∧ bytes.length ≤ bufferSize }) :
    (copyUpload blocks).Only call.Makes := by
  induction blocks with
  | nil => trivial
  | cons bytes later ih =>
    refine only_then trivial fun written => ?_
    cases written with
    | true => exact ih
    | false => trivial

/-- The process behind a download sends one request. -/
theorem only_downloadChild {serverPath : List UInt8} (clientPath : List UInt8) (isBg : Bool)
    (loggedIn : call.session.state = .loggedIn) (args : serverPath ∈ call.args) :
    (downloadChild call serverPath clientPath isBg).Only call.Makes := by
  refine only_then trivial fun _ => only_then trivial fun open_ => ?_
  cases open_ with
  | false => trivial
  | true =>
    refine only_then trivial fun _ =>
      only_then (.background (.inl rfl) loggedIn args) fun answer => ?_
    split
    · exact Script.Only.bind (only_copyDownload _) fun _ =>
        only_then trivial fun _ => only_then trivial fun _ => trivial
    · exact only_then trivial fun _ => only_then trivial fun _ => trivial

/-- The process behind an upload sends one request. -/
theorem only_uploadChild {serverPath : List UInt8} (clientPath : List UInt8) (isBg : Bool)
    (loggedIn : call.session.state = .loggedIn) (args : serverPath ∈ call.args) :
    (uploadChild call clientPath serverPath isBg).Only call.Makes := by
  refine only_then trivial fun _ => only_then trivial fun open_ => ?_
  cases open_ with
  | false => trivial
  | true =>
    refine only_then trivial fun _ =>
      only_then (.background (.inr rfl) loggedIn args) fun answer => ?_
    split
    · exact only_then trivial fun blocks => Script.Only.bind (only_copyUpload blocks) fun _ =>
        only_then trivial fun _ => only_then trivial fun _ => trivial
    · exact only_then trivial fun _ => only_then trivial fun _ => trivial

/-- Both processes of a transfer make the calls allowed. -/
theorem only_forkTransfer {type : MsgType} {clientPath : List UInt8} {isBg : Bool}
    {child : HandlerScript (Option ClientSession)} (forked : child.Only call.Makes) :
    (forkTransfer call type clientPath isBg child).Only call.Makes := by
  refine only_then trivial fun bound => ?_
  cases bound with
  | none => exact only_replyLocked _ _ _
  | some port =>
    refine only_then trivial fun result => ?_
    cases result with
    | failed => exact only_replyLocked _ _ _
    | parent => exact only_then trivial fun _ => trivial
    | child => exact forked

/-- Notifications take one section, after login, and messages to the client. -/
theorem only_checkForNotifications {allowed : HandlerOp → Prop} {session : ClientSession}
    (sends : ∀ type status msg isBg, allowed (.sendProtocolMsgBg type status msg isBg))
    (enters : session.state = .loggedIn →
      allowed (.enter (.checkForNotifications session.usernameText))) :
    (checkForNotifications session).Only allowed := by
  have sending : ∀ notices : List Notice, (sendNotices notices).Only allowed := by
    intro notices
    induction notices with
    | nil => trivial
    | cons notice later ih =>
      exact Script.Only.bind ((Script.only_perform _).mpr (sends _ _ _ _)) fun _ => ih
  rw [checkForNotifications]
  split
  · trivial
  · rename_i loggedIn
    rw [ne_eq, not_not] at loggedIn
    exact Script.Only.bind ((Script.only_perform _).mpr (enters loggedIn)) sending

/-- The end of a session changes transfers only after login. -/
theorem only_closeClient (pid : UInt32) :
    (closeClient pid call.session).Only call.Makes := by
  rw [closeClient]
  split
  · rename_i loggedIn
    exact only_then (fun _ => loggedIn) fun _ =>
      only_then (fun _ => loggedIn) fun _ => trivial
  · trivial

/-- `create_user` asks for a user with a valid name. -/
theorem only_handleCreateUser : (handleCreateUser call).Only call.Makes := by
  rw [handleCreateUser]
  split
  · rename_i args
    split
    · rename_i valid
      exact only_relay (.createUser args valid)
    · exact only_reply call _ _
  · exact only_reply call _ _

/-- `login` asks for a user with a valid name. -/
theorem only_handleLogin : (handleLogin call).Only call.Makes := by
  rw [handleLogin]
  split
  · exact only_reply call _ _
  rename_i fresh
  split
  · rename_i args
    split
    · rename_i valid
      refine only_askHelper (.login fresh args valid) fun answer => ?_
      split
      · exact only_then nofun fun _ =>
          only_reply _ _ _
      · exact only_reply call _ _
    · exact only_reply call _ _
  · exact only_reply call _ _

/-- `cd` passes on a path. -/
theorem only_handleCd : (handleCd call).Only call.Makes := by
  refine only_loggedIn fun loggedIn => ?_
  split
  · rename_i args
    refine only_askHelper (.plain loggedIn args (by simp [sessionArities])) fun answer => ?_
    split
    · exact only_reply _ _ _
    · exact only_reply call _ _
  · exact only_reply call _ _

/-- `ls` passes on a path. -/
theorem only_handleLs : (handleLs call).Only call.Makes := by
  refine only_loggedIn fun loggedIn => ?_
  split
  · rename_i args
    exact only_fetch (.plain loggedIn args (by simp [sessionArities]))
  · exact only_reply call _ _

/-- `create` passes on a path and permissions, perhaps with the option. -/
theorem only_handleCreateFile : (handleCreateFile call).Only call.Makes := by
  refine only_loggedIn fun loggedIn => ?_
  split
  · rename_i args
    exact only_relay (.plain loggedIn args (by simp [sessionArities]))
  · rename_i args
    split
    · exact only_relay (.plain loggedIn args (by simp [sessionArities]))
    · exact only_reply call _ _
  · exact only_reply call _ _

/-- `chmod` passes on a path and permissions. -/
theorem only_handleChmod : (handleChmod call).Only call.Makes := by
  refine only_loggedIn fun loggedIn => ?_
  split
  · rename_i args
    exact only_relay (.plain loggedIn args (by simp [sessionArities]))
  · exact only_reply call _ _

/-- `delete` passes on a path. -/
theorem only_handleDelete : (handleDelete call).Only call.Makes := by
  refine only_loggedIn fun loggedIn => ?_
  split
  · rename_i args
    exact only_relay (.plain loggedIn args (by simp [sessionArities]))
  · exact only_reply call _ _

/-- `move` passes on two paths. -/
theorem only_handleMove : (handleMove call).Only call.Makes := by
  refine only_loggedIn fun loggedIn => ?_
  split
  · rename_i args
    exact only_relay (.plain loggedIn args (by simp [sessionArities]))
  · exact only_reply call _ _

end HandlerCall

/-- The path of `read` and `write` is one of the arguments. -/
theorem mem_of_offsetAndPath {mismatch usage path : List UInt8} {args : List (List UInt8)}
    {offset : Int32} (found : offsetAndPath mismatch usage args = .ok (offset, path)) :
    path ∈ args := by
  match args, found with
  | [_, option, _], found =>
    simp only [offsetAndPath] at found
    split at found
    · cases found
      simp
    · cases found
  | [_, _], found =>
    cases found
    simp

namespace HandlerCall

variable {call : HandlerCall}

/-- `read` passes on a position and a path. -/
theorem only_handleRead : (handleRead call).Only call.Makes := by
  refine only_loggedIn fun loggedIn => ?_
  split
  · rename_i offset path found
    exact only_fetch (.read offset loggedIn (mem_of_offsetAndPath found))
  · exact only_reply call _ _

/-- `write` passes on a position, a path and data. -/
theorem only_handleWrite : (handleWrite call).Only call.Makes := by
  refine only_loggedIn fun loggedIn => ?_
  split
  · rename_i offset path found
    exact only_relay (.write offset loggedIn (mem_of_offsetAndPath found))
  · exact only_reply call _ _

/-- `download` forks a process that asks for the file. -/
theorem only_handleDownload : (handleDownload call).Only call.Makes := by
  simp only [handleDownload]
  split
  · exact only_replyLocked _ _ _
  split
  · exact only_replyLocked _ _ _
  rename_i loggedIn
  rw [ne_eq, not_not] at loggedIn
  split
  · rename_i args
    exact only_forkTransfer (only_downloadChild _ _ loggedIn (by simp [args]))
  · rename_i args
    exact only_forkTransfer (only_downloadChild _ _ loggedIn (by simp [args]))
  · exact only_replyLocked _ _ _

/-- `upload` forks a process that asks for the file to be stored. -/
theorem only_handleUpload : (handleUpload call).Only call.Makes := by
  simp only [handleUpload]
  split
  · exact only_replyLocked _ _ _
  rename_i loggedIn
  rw [ne_eq, not_not] at loggedIn
  split
  · rename_i args
    exact only_forkTransfer (only_uploadChild _ _ loggedIn (by simp [args]))
  · rename_i args
    exact only_forkTransfer (only_uploadChild _ _ loggedIn (by simp [args]))
  · exact only_replyLocked _ _ _

/-- The sections of `transfer_request`. -/
theorem only_handleTransferRequest : (handleTransferRequest call).Only call.Makes := by
  refine only_loggedIn fun loggedIn => ?_
  split
  all_goals first
    | exact only_reply call _ _
    | refine only_then trivial fun target => ?_
      cases target with
      | none => trivial
      | some pid =>
        refine only_then (fun _ => loggedIn) fun assigned => ?_
        split
        · exact only_reply call _ _
        · exact only_then trivial fun _ => only_reply call _ _

/-- `accept` asks for the copy of the file offered. -/
theorem only_handleAcceptTransfer : (handleAcceptTransfer call).Only call.Makes := by
  refine only_loggedIn fun loggedIn => ?_
  split
  · rename_i args
    refine only_then (fun _ => loggedIn) fun found => ?_
    cases found with
    | none => exact only_reply call _ _
    | some slot => exact only_relay (.transfer slot loggedIn args)
  · exact only_reply call _ _

/-- The sections of `reject`. -/
theorem only_handleRejectTransfer : (handleRejectTransfer call).Only call.Makes := by
  refine only_loggedIn fun loggedIn => ?_
  split
  · refine only_then (fun _ => loggedIn) fun found => ?_
    cases found with
    | rejected sender =>
      refine only_then trivial fun _ =>
        only_then (fun _ => loggedIn) fun target => ?_
      cases target with
      | some pid => exact only_then trivial fun _ => trivial
      | none => trivial
    | notYours => exact only_reply call _ _
    | notFound => exact only_reply call _ _
  · exact only_reply call _ _

/-- Every command makes only the calls allowed. -/
theorem only_dispatchCommands : (dispatchCommands call).Only call.Makes := by
  rw [dispatchCommands]
  split
  · exact only_reply call _ _
  split
  · rename_i found
    have listed := List.mem_of_find?_eq_some found
    simp only [commands, List.mem_cons, List.not_mem_nil, or_false, Prod.mk.injEq] at listed
    rcases listed with ⟨-, rfl⟩ | ⟨-, rfl⟩ | ⟨-, rfl⟩ | ⟨-, rfl⟩ | ⟨-, rfl⟩ | ⟨-, rfl⟩ |
      ⟨-, rfl⟩ | ⟨-, rfl⟩ | ⟨-, rfl⟩ | ⟨-, rfl⟩ | ⟨-, rfl⟩ | ⟨-, rfl⟩ | ⟨-, rfl⟩ | ⟨-, rfl⟩ |
      ⟨-, rfl⟩
    exacts [only_handleCreateUser, only_handleLogin, only_handleLs, only_handleCd,
      only_handleCreateFile, only_handleChmod, only_handleDelete, only_handleMove,
      only_handleRead, only_handleWrite, only_handleDownload, only_handleUpload,
      only_handleTransferRequest, only_handleAcceptTransfer, only_handleRejectTransfer]
  · exact only_reply call _ _

/-- A command that comes back leaves the session as it was. -/
def Keeps (call : HandlerCall) (script : HandlerScript (Option ClientSession)) : Prop :=
  script.Returns fun after => ∀ final, after = some final → final = call.session

variable {rest : HandlerScript (Option ClientSession)}

/-- Only what comes last matters. -/
theorem keeps_bind {α : Type} {first : HandlerScript α}
    {goOn : α → HandlerScript (Option ClientSession)} (goes : ∀ value, call.Keeps (goOn value)) :
    call.Keeps (first >>= goOn) :=
  Script.Returns.bind goes

/-- The session itself is kept. -/
theorem keeps_pure : call.Keeps (pure (some call.session)) := by
  intro final same
  exact (Option.some.inj same).symm

/-- A process that does not come back leaves no session. -/
theorem keeps_none : call.Keeps (pure none) := nofun

/-- A reply keeps the session. -/
theorem keeps_reply (status : Int32) (msg : List UInt8) : call.Keeps (call.reply status msg) :=
  keeps_bind fun _ => keeps_pure

/-- A reply under the lock keeps the session. -/
theorem keeps_replyLocked (status : Int32) (msg : List UInt8) (isBg : Bool) :
    call.Keeps (call.replyLocked status msg isBg) :=
  keeps_bind fun _ => keeps_pure

/-- A refusal before login keeps the session. -/
theorem keeps_loggedIn {status : Int32} {refusal : List UInt8} (goes : call.Keeps rest) :
    call.Keeps (call.loggedIn status refusal rest) := by
  rw [HandlerCall.loggedIn]
  split
  · exact keeps_reply _ _
  · exact goes

/-- A request keeps the session if what is done with the answer does. -/
theorem keeps_askHelper {unreachable : List UInt8} {request : HelperRequest}
    {goOn : HelperAnswer → HandlerScript (Option ClientSession)}
    (goes : ∀ answer, call.Keeps (goOn answer)) :
    call.Keeps (call.askHelper unreachable request goOn) := by
  refine keeps_bind fun connected => ?_
  cases connected with
  | true => exact keeps_bind goes
  | false => exact keeps_reply _ _

/-- Passing on the status keeps the session. -/
theorem keeps_relay (unreachable : List UInt8) (request : HelperRequest) :
    call.Keeps (call.relay unreachable request) :=
  keeps_askHelper fun _ => keeps_reply _ _

/-- Passing on data keeps the session. -/
theorem keeps_fetch (unreachable empty : List UInt8) (request : HelperRequest)
    (type : MsgType) : call.Keeps (call.fetch unreachable request type empty) := by
  refine keeps_askHelper fun answer => ?_
  split
  · exact keeps_reply _ _
  split
  · refine keeps_bind fun block => ?_
    cases block with
    | none => exact keeps_reply _ _
    | some _ =>
      refine keeps_bind fun received => ?_
      cases received with
      | none => exact keeps_reply _ _
      | some bytes => exact keeps_bind fun _ => keeps_pure
  · exact keeps_reply _ _

/-- The processes behind downloads and uploads do not come back. -/
theorem keeps_children (first second : List UInt8) (isBg : Bool) :
    call.Keeps (downloadChild call first second isBg) ∧
      call.Keeps (uploadChild call first second isBg) := by
  constructor
  all_goals
    refine keeps_bind fun _ => keeps_bind fun open_ => ?_
    cases open_ with
    | false => exact keeps_none
    | true =>
      refine keeps_bind fun _ => keeps_bind fun answer => ?_
      split
      · first
          | exact keeps_bind fun _ => keeps_bind fun _ => keeps_bind fun _ => keeps_none
          | exact keeps_bind fun _ => keeps_bind fun _ => keeps_bind fun _ =>
              keeps_bind fun _ => keeps_none
      · exact keeps_bind fun _ => keeps_bind fun _ => keeps_none

/-- Forking keeps the session. -/
theorem keeps_forkTransfer {type : MsgType} {clientPath : List UInt8} {isBg : Bool}
    {child : HandlerScript (Option ClientSession)} (forked : call.Keeps child) :
    call.Keeps (forkTransfer call type clientPath isBg child) := by
  refine keeps_bind fun bound => ?_
  cases bound with
  | none => exact keeps_replyLocked _ _ _
  | some port =>
    refine keeps_bind fun result => ?_
    cases result with
    | failed => exact keeps_replyLocked _ _ _
    | parent => exact keeps_bind fun _ => keeps_pure
    | child => exact forked

/-- `create_user` keeps the session. -/
theorem keeps_handleCreateUser : call.Keeps (handleCreateUser call) := by
  rw [handleCreateUser]
  repeat' split
  all_goals first | exact keeps_relay _ _ | exact keeps_reply _ _

/-- The commands that pass on a status or data keep the session. -/
theorem keeps_relayed : call.Keeps (handleLs call) ∧ call.Keeps (handleCreateFile call) ∧
    call.Keeps (handleChmod call) ∧ call.Keeps (handleDelete call) ∧
    call.Keeps (handleMove call) ∧ call.Keeps (handleRead call) ∧
    call.Keeps (handleWrite call) := by
  refine ⟨?_, ?_, ?_, ?_, ?_, ?_, ?_⟩
  all_goals
    refine keeps_loggedIn ?_
    repeat' split
    all_goals first
      | exact keeps_reply _ _
      | exact keeps_relay _ _
      | exact keeps_fetch _ _ _ _

/-- Background transfers keep the session. -/
theorem keeps_background : call.Keeps (handleDownload call) ∧ call.Keeps (handleUpload call) := by
  simp only [handleDownload, handleUpload]
  constructor
  all_goals
    repeat' split
    all_goals first
      | exact keeps_replyLocked _ _ _
      | exact keeps_forkTransfer (keeps_children _ _ _).1
      | exact keeps_forkTransfer (keeps_children _ _ _).2

/-- Transfers between users keep the session. -/
theorem keeps_transfers : call.Keeps (handleTransferRequest call) ∧
    call.Keeps (handleAcceptTransfer call) ∧ call.Keeps (handleRejectTransfer call) := by
  refine ⟨keeps_loggedIn ?_, keeps_loggedIn ?_, keeps_loggedIn ?_⟩
  · split
    all_goals first
      | exact keeps_reply _ _
      | refine keeps_bind fun target => ?_
        cases target with
        | none => exact keeps_none
        | some pid =>
          refine keeps_bind fun assigned => ?_
          split
          · exact keeps_reply _ _
          · exact keeps_bind fun _ => keeps_reply _ _
  · split
    · refine keeps_bind fun found => ?_
      cases found with
      | none => exact keeps_reply _ _
      | some slot => exact keeps_relay _ _
    · exact keeps_reply _ _
  · split
    · refine keeps_bind fun found => ?_
      cases found with
      | rejected sender =>
        refine keeps_bind fun _ => keeps_bind fun target => ?_
        cases target with
        | some pid => exact keeps_bind fun _ => keeps_pure
        | none => exact keeps_pure
      | notYours => exact keeps_reply _ _
      | notFound => exact keeps_reply _ _
    · exact keeps_reply _ _

/-- The arguments come from a payload or from what was left of an earlier one. -/
def Split (call : HandlerCall) : Prop :=
  ∃ payload saved final, tokenizeCommand payload saved = some (call.argv, final)

/-- The calls made in a pass of the loop are calls of a handler with the session of the pass. -/
theorem only_clientPass {allowed : HandlerOp → Prop} {pid : UInt32} {state : HandlerState}
    {input : ClientInput}
    (made : ∀ call : HandlerCall, call.session = state.session → call.Split →
      ∀ op, call.Makes op → allowed op) : (clientPass pid state input).Only allowed := by
  have idle := made ⟨pid, [], [], state.behind, MsgHeader.layout.decode [], state.session⟩ rfl
    ⟨some ⟨[], 0⟩, none, _, rfl⟩
  have closing : (closeClient pid state.session).Only allowed :=
    (@only_closeClient ⟨pid, [], [], state.behind, MsgHeader.layout.decode [],
      state.session⟩ pid).weaken idle
  have dispatching : ∀ behind hdr payload,
      (dispatchPayload pid { state with behind } hdr payload).Only allowed := by
    intro behind hdr payload
    rw [dispatchPayload]
    split
    · trivial
    · rename_i argv saved split
      refine Script.Only.bind (only_dispatchCommands.weaken (made _ rfl ⟨_, _, _, split⟩)) ?_
      intro session
      cases session <;> trivial
  have receiving : ∀ message, (handleMessage pid state message).Only allowed := by
    intro message
    rw [handleMessage]
    split
    · exact dispatching state.behind _ _
    · refine Script.Only.bind ((Script.only_perform _).mpr (idle _ trivial)) fun block => ?_
      cases block with
      | none => trivial
      | some behind =>
        simp only
        split
        · trivial
        · exact dispatching behind _ _
  refine Script.Only.bind ?_ fun _ => ?_
  · refine Script.Only.bind ((Script.only_perform _).mpr (idle _ trivial)) fun signal => ?_
    cases signal with
    | false => trivial
    | true =>
      exact only_checkForNotifications (fun _ _ _ _ => idle _ trivial) fun loggedIn =>
        idle _ fun _ => loggedIn
  · cases input with
    | interrupted => trivial
    | closed => exact Script.Only.bind closing fun _ => trivial
    | message received announced =>
      refine Script.Only.bind (receiving received) fun outcome => ?_
      cases outcome with
      | next state => trivial
      | leave => exact Script.Only.bind closing fun _ => trivial
      | gone => trivial

end HandlerCall

/-- The requests among the calls made. -/
def requests (events : List HandlerEvent) : List HelperRequest :=
  events.filterMap fun event =>
    match event.1 with
    | .sendHelperRequest request => some request
    | _ => none

@[simp]
theorem requests_nil : requests [] = [] := rfl

@[simp]
theorem requests_cons (event : HandlerEvent) (later : List HandlerEvent) :
    requests (event :: later) = requests [event] ++ requests later := by
  cases event with
  | mk op answer => cases op <;> rfl

/-- The call of a handler for a message. -/
def messageCall (pid : UInt32) (session : ClientSession) (behind : Nat → UInt8)
    (message : Received) : HandlerCall :=
  let split := tokenizeLoop maxArgs (strtok 32 ⟨message.2 ++ [0], 0⟩)
  ⟨pid, split.1, split.2.memory, behind, message.1, session⟩

/-- A message with a payload is dispatched once there is a block for it. -/
theorem runOn_handleMessage {ω : Type} (serve : Surroundings ω) (world : ω) (pid : UInt32)
    (state : HandlerState) {message : Received} {behind : Nat → UInt8}
    (filled : message.1.payloadLength ≠ 0)
    (fits : ¬ payloadSize message.1 ≤ message.1.payloadLength)
    (given : (serve world (.malloc (payloadSize message.1))).1 = some behind) :
    let call := messageCall pid state.session behind message
    let run := (dispatchCommands call).runOn serve
      (serve world (.malloc (payloadSize message.1))).2
    ((handleMessage pid state message).runOn serve world).events =
        ⟨.malloc (payloadSize message.1), some behind⟩ :: run.events ∧
      ((handleMessage pid state message).runOn serve world).value =
        (match run.value with
          | none => .gone
          | some session => .next ⟨session,
              some (tokenizeLoop maxArgs (strtok 32 ⟨message.2 ++ [0], 0⟩)).2, behind⟩) := by
  intro call run
  have dispatching : ((dispatchPayload pid { state with behind } message.1
      (payload message)).runOn serve (serve world (.malloc (payloadSize message.1))).2).events =
        run.events ∧
      ((dispatchPayload pid { state with behind } message.1
        (payload message)).runOn serve (serve world (.malloc (payloadSize message.1))).2).value =
        (match run.value with
          | none => .gone
          | some session => .next ⟨session,
              some (tokenizeLoop maxArgs (strtok 32 ⟨message.2 ++ [0], 0⟩)).2, behind⟩) := by
    rw [dispatchPayload]
    simp only [tokenizeCommand, payload, filled, ↓reduceIte, Option.some_or, Option.map_some,
      Script.runOn_bind]
    constructor
    · refine (congrArg _ ?_).trans (List.append_nil _)
      split <;> rfl
    · change _ = (match run.value with | none => _ | some session => _)
      change ((match run.value with | none => _ | some session => _ :
        HandlerScript LoopOutcome).runOn serve _).value = _
      cases run.value <;> rfl
  rw [handleMessage, if_neg filled]
  simp only [Script.runOn_bind, Script.runOn_perform, given, fits, ↓reduceIte, dispatching]
  exact ⟨rfl, trivial⟩

/-- A handler alone with a registry, blocks with given bytes behind them, and a helper that
answers every request with success. -/
def alone (behind : Nat → UInt8) : Surroundings SharedRegistry := fun registry op =>
  match op with
  | .enter entered => entered.apply registry
  | .awaitUser destUser => (registry.findUser destUser, registry)
  | .malloc _ => (some behind, registry)
  | .signalReceived => (false, registry)
  | .connectToHelper => (true, registry)
  | .sendHelperRequest _ => (.answered .zero, registry)
  | .readHelper _ | .readHelperPart _ | .bindDataPort => (none, registry)
  | .fork => (.failed, registry)
  | .acceptData | .writeData _ | .writeHelper _ => (true, registry)
  | .readData => ([], registry)
  | .kill _ | .sendProtocolMsg .. | .sendProtocolMsgBg .. | .sendProtocolMsgLocked .. |
    .writeClient .. | .releaseSocketLock | .closeData => ((), registry)

end FileServer
