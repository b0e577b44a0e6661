import FileServer.Model.Command
import FileServer.Model.Utility

/-!
# Handlers of the server

The functions of `handler/handlers.c` that serve one command each, `check_for_notifications`,
the command table with `dispatchCommands`, and the loop of `handleClient`. What several
handlers repeat is one definition with the differences as parameters: the refusal before login,
the connection to the helper, the reply with the status of the helper, and the forwarding of
data that follows its response.
-/
namespace FileServer

open FileServer.Lib

/-! ## What handlers share -/

namespace HandlerCall

/-- `sendProtocolMsg` with a text, after which the handler returns. -/
def reply (call : HandlerCall) (status : Int32) (msg : List UInt8) :
    HandlerScript (Option ClientSession) := do
  perform (.sendProtocolMsg .text status msg)
  return some call.session

/-- `sendProtocolMsgLocked` with a text, after which the handler returns. -/
def replyLocked (call : HandlerCall) (status : Int32) (msg : List UInt8) (isBg : Bool) :
    HandlerScript (Option ClientSession) := do
  perform (.sendProtocolMsgLocked .text status msg isBg)
  return some call.session

/-- The refusal of a command before login. -/
def loggedIn (call : HandlerCall) (status : Int32) (refusal : List UInt8)
    (rest : HandlerScript (Option ClientSession)) : HandlerScript (Option ClientSession) :=
  if call.session.state ≠ .loggedIn then call.reply status refusal else rest

/-- A request over a new connection to the helper. -/
def askHelper (call : HandlerCall) (unreachable : List UInt8) (request : HelperRequest)
    (rest : HelperAnswer → HandlerScript (Option ClientSession)) :
    HandlerScript (Option ClientSession) := do
  if ← perform .connectToHelper then
    let answer ← perform (.sendHelperRequest request)
    rest answer
  else call.reply (-1) unreachable

/-- A request whose status and text are passed on to the client. -/
def relay (call : HandlerCall) (unreachable : List UInt8) (request : HelperRequest) :
    HandlerScript (Option ClientSession) :=
  call.askHelper unreachable request fun answer => call.reply answer.status answer.res.msgText

/-- A request that is answered with data: they follow a header of their own type. -/
def fetch (call : HandlerCall) (unreachable : List UInt8) (request : HelperRequest)
    (type : MsgType) (empty : List UInt8) : HandlerScript (Option ClientSession) :=
  call.askHelper unreachable request fun answer => do
    if answer.status ≠ 0 then call.reply (-1) answer.res.msgText
    else if 0 < answer.res.payloadLen then
      match ← perform (.malloc answer.res.payloadLen) with
      | none => call.reply (-1) (str "Server memory error")
      | some _ =>
        match ← perform (.readHelper answer.res.payloadLen) with
        | none => call.reply (-1) (str "Failed to read data from Helper")
        | some bytes =>
          perform (.writeClient type bytes.val)
          return some call.session
    else call.reply 0 empty

end HandlerCall

/-- `%d`. -/
def formatInt (value : Int) : List UInt8 := str (toString value)

/-- What `snprintf` keeps in an array of the given size. -/
def formatted (size : Nat) (text : List UInt8) : List UInt8 := text.take (size - 1)

/-- The option that carries a position. -/
def offsetOption : List UInt8 := str "-offset="

/-- The arguments of `read` and `write`: a position and a path, or the text of a refusal. -/
def offsetAndPath (mismatch usage : List UInt8) :
    List (List UInt8) → Except (List UInt8) (Int32 × List UInt8)
  | [_, option, path] =>
    if option.take offsetOption.length = offsetOption then
      .ok (atoi (option.drop offsetOption.length), path)
    else .error mismatch
  | [_, path] => .ok (0, path)
  | _ => .error usage

/-- The last argument asks for a background transfer. -/
def isBackground (args : List (List UInt8)) : Bool :=
  4 ≤ args.length ∧ args.getLast? = some (str "-b")

/-! ## Accounts and directories -/

/-- `handleCreateUser`. -/
def handleCreateUser : Handler := fun call =>
  match call.args with
  | [_, username, permissions] =>
    if isUsernameValid (some username) then
      call.relay (str "Internal error: Helper unreachable")
        (.plain .createUser [username, permissions] none)
    else call.reply (-1) (str "Invalid username")
  | _ => call.reply (-1) (str "Usage: create_user <username> <permissions>")

/-- The session after a login. -/
def ClientSession.login (session : ClientSession) (res : HelperResponse)
    (username : List UInt8) : ClientSession where
  state := .loggedIn
  uid := res.loginUid
  gid := res.loginGid
  workdir := session.workdir.strcpy (str "/") (by decide)
  home := .strncpy absPath res.loginHome
  username := .strncpy maxUsernameLen username

/-- `handleLogin`. -/
def handleLogin : Handler := fun call =>
  if call.session.state = .loggedIn then call.reply 0 (str "Already logged in")
  else match call.args with
  | [_, username] =>
    if isUsernameValid (some username) then
      call.askHelper (str "Internal error") (.plain .login [username] none) fun answer => do
        if answer.status = 0 then
          let session := call.session.login answer.res username
          let _ ← perform (.enter (.insertOnlineUser username call.pid))
          { call with session }.reply 0 (str "Login successful")
        else call.reply (-1) answer.res.msgText
    else call.reply (-1) (str "Invalid username")
  | _ => call.reply (-1) (str "Usage: login <username>")

/-- The session after a change of directory. -/
def ClientSession.changeDirectory (session : ClientSession) (res : HelperResponse) :
    ClientSession :=
  { session with workdir := .strncpy absPath res.cdCwd }

/-- `handleCd`. -/
def handleCd : Handler := fun call =>
  call.loggedIn (-1) (str "Log in first") <|
    match call.args with
    | [_, path] =>
      call.askHelper (str "Internal error") (.plain .cd [path] (some call.session)) fun answer =>
        if answer.status = 0 then
          let session := call.session.changeDirectory answer.res
          { call with session }.reply 0
            (formatted 1256 (str "Current workDir: " ++ session.workdirText))
        else call.reply (-1) answer.res.msgText
    | _ => call.reply (-1) (str "Usage: cd <path>")

/-- `handleLs`. -/
def handleLs : Handler := fun call =>
  call.loggedIn (-1) (str "Log in first") <|
    match call.args with
    | [_, path] =>
      call.fetch (str "Internal server error: Helper unreachable")
        (.plain .ls [path] (some call.session)) .lsres (str "Directory is empty")
    | _ => call.reply (-1) (str "Usage: ls <path>")

/-! ## Files -/

/-- `handleCreateFile`. -/
def handleCreateFile : Handler := fun call =>
  let create (argv : List (List UInt8)) :=
    call.relay (str "Internal error: Helper unreachable")
      (.plain .createFile argv (some call.session))
  call.loggedIn 0 (str "Log in first") <|
    match call.args with
    | [_, path, permissions] => create [path, permissions]
    | [_, path, permissions, option] =>
      if option = str "-d" then create [path, permissions, option]
      else call.reply (-1) (str "Unknown option. Only -d supported")
    | _ => call.reply (-1) (str "Usage: create <path> <permissions> [-d]")

/-- `handleChmod`. -/
def handleChmod : Handler := fun call =>
  call.loggedIn 0 (str "Log in first") <|
    match call.args with
    | [_, path, permissions] =>
      call.relay (str "Internal error: Helper unreachable")
        (.plain .chmod [path, permissions] (some call.session))
    | _ => call.reply (-1) (str "Usage: chmod <path> <permissions>")

/-- `handleDelete`. -/
def handleDelete : Handler := fun call =>
  call.loggedIn 0 (str "Log in first") <|
    match call.args with
    | [_, path] =>
      call.relay (str "Internal error: Helper unreachable")
        (.plain .delete [path] (some call.session))
    | _ => call.reply (-1) (str "Usage: delete <path>")

/-- `handleMove`. -/
def handleMove : Handler := fun call =>
  call.loggedIn 0 (str "Log in first") <|
    match call.args with
    | [_, path1, path2] =>
      call.relay (str "Internal error: Helper unreachable")
        (.plain .move [path1, path2] (some call.session))
    | _ => call.reply (-1) (str "Usage: move <path1> <path2>")

/-- `handleRead`. -/
def handleRead : Handler := fun call =>
  call.loggedIn 0 (str "Log in first") <|
    match offsetAndPath (str "Usage: read -offset=N <path>")
        (str "Usage: read [-offset=N] <path>") call.args with
    | .ok (offset, path) =>
      call.fetch (str "Internal error: Helper unreachable")
        (.readWrite .read [path] offset (some call.session) []) .readcmd (str "File is empty")
    | .error usage => call.reply (-1) usage

/-- `cmd_end` in `handleWrite`: the position behind the terminator of the last argument. -/
def cmdEnd (argv : List Token) : Nat := (argv.getLast?.map Token.finish).getD 0 + 1

/-- `data_len` in `handleWrite`, in 32-bit arithmetic: the position is counted from the first
argument, not from the start of the payload. -/
def dataLen (payloadLength : UInt32) (argv : List Token) : UInt32 :=
  payloadLength - UInt32.ofNat (cmdEnd argv - (argv.head?.map Token.start).getD 0)

/-- `handleWrite`. -/
def handleWrite : Handler := fun call =>
  call.loggedIn (-1) (str "Log in first") <|
    let data := call.block (cmdEnd call.argv) (dataLen call.hdr.payloadLength call.argv).toNat
    match offsetAndPath (str "Usage: write [-offset=N] <path>")
        (str "Usage: write [-offset=N] <path>") call.args with
    | .ok (offset, path) =>
      call.relay (str "Internal error: Helper unreachable")
        (.readWrite .write [path] offset (some call.session) data)
    | .error usage => call.reply (-1) usage

/-! ## Background transfers -/

/-- The copying loop of a download: at most `left` bytes go from the helper to the client. -/
def copyDownload (left : Nat) : HandlerScript Unit :=
  if left = 0 then pure ()
  else do
    match ← perform (.readHelperPart (min left bufferSize)) with
    | none => pure ()
    | some ⟨bytes, _⟩ =>
      if ← perform (.writeData bytes) then copyDownload (left - bytes.length) else pure ()
termination_by left
decreasing_by omega

/-- The copying loop of an upload: the blocks read from the client go to the helper. -/
def copyUpload : List { bytes : List UInt8 // 0 < bytes.length ∧ bytes.length ≤ bufferSize } →
    HandlerScript Unit
  | [] => pure ()
  | bytes :: later => do
    if ← perform (.writeHelper bytes.val) then copyUpload later else pure ()

/-- The text of a failed transfer. -/
def transferFailure (size : Nat) (lead : List UInt8) (res : HelperResponse) : List UInt8 :=
  formatted size (lead ++ if res.msgText = [] then str "Helper error" else res.msgText)

/-- The process forked by `handleDownload`. -/
def downloadChild (call : HandlerCall) (serverPath clientPath : List UInt8) (isBg : Bool) :
    HandlerScript (Option ClientSession) := do
  perform .releaseSocketLock
  if ← perform .acceptData then
    let _ ← perform .connectToHelper
    let answer ← perform (.sendHelperRequest
      (.readWrite .download [serverPath] 0 (some call.session) []))
    if answer.status = 0 then
      copyDownload answer.res.payloadLen.toNat
      perform .closeData
      perform (.sendProtocolMsgLocked .text 0
        (formatted 128 (str "download " ++ serverPath ++ str " " ++ clientPath ++
          str " concluded")) isBg)
    else
      perform .closeData
      perform (.sendProtocolMsgLocked .text (-1)
        (transferFailure 2048 (str "Download failed: ") answer.res) isBg)
  return none

/-- The process forked by `handleUpload`. -/
def uploadChild (call : HandlerCall) (clientPath serverPath : List UInt8) (isBg : Bool) :
    HandlerScript (Option ClientSession) := do
  perform .releaseSocketLock
  if ← perform .acceptData then
    let _ ← perform .connectToHelper
    let answer ← perform (.sendHelperRequest
      (.readWrite .upload [serverPath] 0 (some call.session) []))
    if answer.status = 0 then
      let blocks ← perform .readData
      copyUpload blocks
      perform .closeData
      perform (.sendProtocolMsgLocked .text 0
        (formatted 128 (str "upload " ++ serverPath ++ str " " ++ clientPath ++
          str " concluded")) isBg)
    else
      perform .closeData
      perform (.sendProtocolMsgLocked .text (-1)
        (transferFailure 1500 (str "Upload failed: ") answer.res) isBg)
  return none

/-- The data connection of a transfer: the handler tells the client the port, the new process
serves it. -/
def forkTransfer (call : HandlerCall) (type : MsgType) (clientPath : List UInt8) (isBg : Bool)
    (child : HandlerScript (Option ClientSession)) : HandlerScript (Option ClientSession) := do
  match ← perform .bindDataPort with
  | none => call.replyLocked (-1) (str "Internal: bind failed") isBg
  | some port =>
    match ← perform .fork with
    | .failed => call.replyLocked (-1) (str "Fork failed") isBg
    | .parent =>
      perform (.sendProtocolMsgLocked type 0
        (formatted 64 (str "DATA_PORT " ++ formatInt port.toNat ++ str " " ++ clientPath)) false)
      return some call.session
    | .child => child

/-- `handleDownload`. -/
def handleDownload : Handler := fun call =>
  let isBg := isBackground call.args
  let usage := str "Usage: download <server_path> <client_path> [-b]"
  if 4 ≤ call.args.length ∧ isBg = false then call.replyLocked (-1) usage isBg
  else if call.session.state ≠ .loggedIn then
    call.replyLocked (-1) (str "Log in first") isBg
  else match call.args with
  | [_, serverPath, clientPath] | [_, serverPath, clientPath, _] =>
    forkTransfer call .downloadRes clientPath isBg (downloadChild call serverPath clientPath isBg)
  | _ => call.replyLocked (-1) usage false

/-- `handleUpload`. -/
def handleUpload : Handler := fun call =>
  let isBg := isBackground call.args
  if call.session.state ≠ .loggedIn then call.replyLocked (-1) (str "Log in first") isBg
  else match call.args with
  | [_, clientPath, serverPath] | [_, clientPath, serverPath, _] =>
    forkTransfer call .uploadRes clientPath isBg (uploadChild call clientPath serverPath isBg)
  | _ => call.replyLocked (-1) (str "Usage: upload <client_path> <server_path> [-b]") false

/-! ## Transfers between users -/

/-- `handleTransferRequest`. -/
def handleTransferRequest : Handler := fun call =>
  call.loggedIn (-1) (str "Login required") <|
    match call.args with
    | [_, filename, destUser] | [_, filename, destUser, _] => do
      match ← perform (.awaitUser destUser) with
      | none => return none
      | some targetPid =>
        let assignedId ← perform (.enter
          (.createRequest filename destUser call.session.usernameText))
        if assignedId = -1 then
          call.reply (-1) (str "Server busy: Too many pending transfers")
        else
          perform (.kill targetPid)
          call.reply 0 (formatted 128 (str "Transfer request created with ID: " ++
            formatInt assignedId.toInt ++ str ". Waiting for recipient..."))
    | _ => call.reply (-1) (str "Usage: transfer_request <file> <dest_user>")

/-- `handleAcceptTransfer`. -/
def handleAcceptTransfer : Handler := fun call =>
  call.loggedIn (-1) (str "Login required") <|
    match call.args with
    | [_, targetDir, id] => do
      let found ← perform (.enter
        (.acceptRequest (atoi id).toUInt32 call.session.usernameText))
      match found with
      | none =>
        call.reply (-1) (str "Error: ID not found or notification not yet processed.")
      | some currentReq =>
        call.relay (str "Internal Error: Helper unreachable")
          (.plain .transfer [currentReq.senderText, currentReq.filenameText,
            call.session.usernameText, targetDir] none)
    | _ => call.reply (-1) (str "Usage: accept <directory> <ID>")

/-- `handleRejectTransfer`. -/
def handleRejectTransfer : Handler := fun call =>
  call.loggedIn (-1) (str "Login required") <|
    match call.args with
    | [_, id] => do
      let found ← perform (.enter
        (.rejectRequest (atoi id).toUInt32 call.session.usernameText))
      match found with
      | .rejected senderName =>
        perform (.sendProtocolMsg .text 0 (str "Transfer rejected."))
        let handlerPid ← perform (.enter (.findUser senderName))
        match handlerPid with
        | some pid => perform (.kill pid)
        | none => pure ()
        return some call.session
      | .notYours => call.reply 1 (str "Error: This transfer is not for you.")
      | .notFound => call.reply 1 (str "Error: Request ID not found.")
    | _ => call.reply (-1) (str "Usage: reject <request_id>")

/-! ## Notifications -/

/-- The text of a notification. -/
def Notice.text (notice : Notice) : List UInt8 :=
  let id := formatInt notice.request.id.toInt32.toInt
  formatted 512 <|
    if notice.isRejection then
      str "[NOTIFICATION] User " ++ notice.request.receiverText ++
        str " REJECTED your transfer: " ++ notice.request.filenameText
    else
      str "[NOTIFICATION] User " ++ notice.request.senderText ++ str " sent a file: " ++
        notice.request.filenameText ++ str " (ID: " ++ id ++
        str ")\n   > Accept: accept <dir> " ++ id ++ str "\n   > Reject: reject " ++ id

/-- The sending loop of `check_for_notifications`. -/
def sendNotices : List Notice → HandlerScript Unit
  | [] => pure ()
  | notice :: later => do
    perform (.sendProtocolMsgBg .text 0 notice.text true)
    sendNotices later

/-- `check_for_notifications`. -/
def checkForNotifications (session : ClientSession) : HandlerScript Unit :=
  if session.state ≠ .loggedIn then pure ()
  else do
    let toNotify ← perform (.enter (.checkForNotifications session.usernameText))
    sendNotices toNotify

/-! ## Dispatch -/

/-- The table `commands`. -/
def commands : List (List UInt8 × Handler) :=
  [(str "create_user", handleCreateUser), (str "login", handleLogin), (str "ls", handleLs),
    (str "cd", handleCd), (str "create", handleCreateFile), (str "chmod", handleChmod),
    (str "delete", handleDelete), (str "move", handleMove), (str "read", handleRead),
    (str "write", handleWrite), (str "download", handleDownload), (str "upload", handleUpload),
    (str "transfer_request", handleTransferRequest), (str "accept", handleAcceptTransfer),
    (str "reject", handleRejectTransfer)]

/-- `dispatchCommands`, after the payload has been split. -/
def dispatchCommands : Handler := fun call =>
  match call.args with
  | [] => call.reply 0 (str "Problems with command? add args")
  | name :: _ =>
    match commands.find? (·.1 = name) with
    | some (_, func) => func call
    | none => call.reply (-1) (str "Command not found")

end FileServer
