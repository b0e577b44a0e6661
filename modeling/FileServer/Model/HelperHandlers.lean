import FileServer.Model.SystemCalls
import Mathlib.Data.List.Infix

/-!
# Commands of the helper

The functions of `helper/helper.c` that serve one command each, and the `switch` of
`handleCommands`. Each goes through its system calls in the order of the source, with the exits
it takes when one of them fails. The response starts out as `handleCommands` sets it up: the
status is -1, and everything but the command is zero.
-/
namespace FileServer

open FileServer.Lib

/-- How the function for a command ends. -/
inductive HelperOutcome
  /-- It returns to the loop of `handleCommands`. -/
  | returned
  /-- `_exit`. -/
  | exited
  /-- It uses a null pointer or leaves an array; nothing is known from there on. -/
  | undefined
deriving DecidableEq

namespace HelperResponse

/-- The response set up by `handleCommands`. -/
def blank (cmd : UInt32) : HelperResponse := { zero with cmd, status := -1 }

/-- `snprintf` into `msg`; a short text copied by `strncpy` leaves the same bytes there, since
`msg` is zero before. -/
def say (response : HelperResponse) (text : List UInt8) : HelperResponse :=
  { response with msg := response.msg.snprintf text (by decide) }

/-- The same with status 0. -/
def succeed (response : HelperResponse) (text : List UInt8) : HelperResponse :=
  { response with status := 0 }.say text

end HelperResponse

/-- The end of most commands: the privileges of root, then the response. -/
def regainAndRespond (res : HelperResponse) : HelperScript HelperOutcome := do
  if ← regainRoot then
    let _ ← system (.writeResponse res)
    return .returned
  else return .exited

/-- The beginning of most commands: without the sandbox the response tells so and the process
ends. -/
def inSandbox (sandbox : HelperScript Bool) (res : HelperResponse) (refusal : List UInt8)
    (rest : HelperScript HelperOutcome) : HelperScript HelperOutcome := do
  if ← sandbox then rest
  else
    let _ ← system (.writeResponse (res.say refusal))
    return .exited

/-! ## Accounts -/

/-- What `CreateSystemUser` does after `adduser` when a later step fails: the message, and the
user is deleted. -/
def undoUser (lockFd : Descriptor) (username text : List UInt8) :
    HelperScript (Bool × List UInt8) := do
  system (.deluser username)
  releaseUserCreationLock lockFd
  return (false, text)

/-- `CreateSystemUser`: whether it returns 0, and the text for `msg`. -/
def createSystemUser (lockFilePath rootDir username : List UInt8) (privileges : UInt32) :
    HelperScript (Bool × List UInt8) := do
  let homeDir := formatted absPath (rootDir ++ str "/" ++ username)
  match ← acquireUserCreationLock lockFilePath with
  | .error _ => return (false, str "internal server error")
  | .ok lockFd =>
    match ← system (.getpwnam username) with
    | some _ =>
      releaseUserCreationLock lockFd
      return (false, str "error creating user, username taken")
    | none =>
      match ← system (.adduser homeDir username) with
      | .notForked =>
        releaseUserCreationLock lockFd
        return (false, str "internal server error")
      | .failed =>
        releaseUserCreationLock lockFd
        return (false, str "error creating user")
      | .succeeded =>
        match ← system (.getpwnam username) with
        | none => undoUser lockFd username (str "internal server error")
        | some pwd =>
          match ← system (.mkdir homeDir privileges) with
          | .error _ => undoUser lockFd username (str "error creating home directory")
          | .ok _ =>
            match ← system (.chown homeDir pwd.uid pwd.gid) with
            | .error _ => undoUser lockFd username (str "error setting home ownership")
            | .ok _ =>
              releaseUserCreationLock lockFd
              return (true, str "User created succesfully")

/-- The case `CREATE_USER`. -/
def handleHelperCreateUser (lockFilePath rootDir username : List UInt8) (privileges : UInt32)
    (res : HelperResponse) : HelperScript HelperOutcome := do
  let (created, text) ← createSystemUser lockFilePath rootDir username privileges
  let _ ← system (.writeResponse { res.say text with status := if created then 0 else -1 })
  return .returned

/-- The result of a login in the union `data`. -/
def HelperResponse.login (response : HelperResponse) (pw : Account) : HelperResponse where
  status := 0
  payloadLen := response.payloadLen
  msg := response.msg
  cmd := response.cmd
  data := .ofBytes 4104 (Layout.word32.encode pw.uid ++ Layout.word32.encode pw.gid ++
    (CharArray.strncpy 4096 pw.dir).bytes)

/-- `handleHelperLogin`; none stands for a null pointer. -/
def handleHelperLogin (username : Option (List UInt8)) (res : HelperResponse) :
    HelperScript HelperOutcome := do
  match username with
  | none =>
    let _ ← system (.writeResponse (res.say (str "Missing username")))
    return .returned
  | some username =>
    match ← system (.getpwnam username) with
    | none =>
      let _ ← system
        (.writeResponse (res.say (str "User " ++ username ++ str " not found")))
      return .returned
    | some pw =>
      let _ ← system (.writeResponse (res.login pw))
      return .returned

/-! ## Directories -/

/-- Number of elements of the array of `handleHelperLs`. -/
abbrev maxEntries : Nat := 1024

/-- `PATH_MAX`. -/
abbrev pathMax : Nat := 4096

/-- The characters of `perms` for a file. -/
def permissionText (st : FileStat) : List UInt8 :=
  let bit (mask : UInt32) (char : UInt8) : UInt8 := if st.mode &&& mask ≠ 0 then char else 45
  let type : UInt8 := match st.type with
    | .directory => 100
    | .link => 108
    | _ => 45
  [type, bit 0o400 114, bit 0o200 119, bit 0o100 120, bit 0o040 114, bit 0o020 119,
    bit 0o010 120, bit 0o004 114, bit 0o002 119, bit 0o001 120]

/-- The row of an entry. -/
def fileEntry (name : List UInt8) (st : FileStat) : FileEntry where
  name := .ofBytes 56 (name.take 55)
  perms := .ofBytes 11 (permissionText st)
  padding := .zero 5
  size := UInt64.ofNat st.size

/-- The loop of `handleHelperLs` over the names that `readdir` returns; none when it leaves the
array. -/
def listEntries (path : List UInt8) :
    List { name : List UInt8 // NulFree name ∧ name ≠ [] } → List FileEntry →
      HelperScript (Option (List FileEntry))
  | [], entries => pure (some entries)
  | ⟨name, _⟩ :: later, entries =>
    if name = str "." ∨ name = str ".." then listEntries path later entries
    else do
      match ← system (.stat (formatted pathMax (path ++ str "/" ++ name))) with
      | .error _ => listEntries path later entries
      | .ok st =>
        if entries.length < maxEntries then
          listEntries path later (entries ++ [fileEntry name st])
        else return none

/-- The length of a list in the response. -/
def HelperResponse.listed (response : HelperResponse) (count : Nat) : HelperResponse :=
  { response with
    payloadLen := UInt32.ofNat (count * FileEntry.layout.size)
    data := .ofBytes 4104 (overwrite response.data.bytes 0
      (Layout.word32.encode (UInt32.ofNat count))) }

/-- `handleHelperLs`. -/
def handleHelperLs (session : ClientSession) (path rootDir : List UInt8) (res : HelperResponse) :
    HelperScript HelperOutcome :=
  inSandbox (sandboxUserToRoot session rootDir) res (str "Internal server error") do
    match ← system (.opendir path) with
    | .error text => regainAndRespond ((res.say (str "ls failed: " ++ text)).listed 0)
    | .ok names =>
      match ← listEntries path names [] with
      | none => return .undefined
      | some entries =>
        let res := (res.succeed (str "Success")).listed entries.length
        system .closedir
        if ← regainRoot then
          let _ ← system (.writeResponse res)
          if 0 < res.payloadLen then
            let _ ← system (.writeServer (FileEntry.layout.encodeList entries))
          return .returned
        else return .exited

/-- The new directory in the union `data`, and the length of its name. -/
def HelperResponse.changed (response : HelperResponse) (cwd : List UInt8) : HelperResponse :=
  { response with
    payloadLen := UInt32.ofNat (cwd.length + 1)
    data := .ofBytes 4104 (overwrite response.data.bytes 0 (cwd ++ [0])) }

/-- `ChangeDirectory`. -/
def changeDirectory (session : ClientSession) (path : List UInt8) (res : HelperResponse) :
    HelperScript HelperOutcome :=
  inSandbox (sandboxUserToHisHome session) res (str "Internal server error") do
    match ← system (.chdir path) with
    | .error text => regainAndRespond ((res.say (str "cd failed: " ++ text)).changed [])
    | .ok _ =>
      match ← system .getcwd with
      | none => regainAndRespond ((res.say (str "Failed to resolve directory")).changed [])
      | some newcwd =>
        regainAndRespond ((res.succeed (str "Directory changed")).changed newcwd)

/-! ## Files and their names -/

/-- `HandlerHelperCreateFile`. -/
def handlerHelperCreateFile (session : ClientSession) (filename : List UInt8)
    (privileges : UInt32) (makeDir : Bool) (res : HelperResponse) : HelperScript HelperOutcome :=
  inSandbox (sandboxUserToHisHome session) res (str "Sandbox error") do
    if makeDir then
      let made ← system (.mkdir filename privileges)
      let _ ← system (.writeResponse <| match made with
        | .error text => res.say (str "mkdir failed: " ++ text)
        | .ok _ => res.succeed (str "Directory created successfully"))
      if ← regainRoot then return .returned else return .exited
    else
      match ← system (.openFile (str ".") ⟨.readOnly, false, false, true, false⟩ 0) with
      | .error _ => regainAndRespond (res.say (str "Dir open error"))
      | .ok dirfd =>
        let opened ← system
          (.openat dirfd filename ⟨.writeOnly, true, true, false, true⟩ privileges)
        system (.close dirfd)
        match opened with
        | .error _ => regainAndRespond (res.say (str "Create failed"))
        | .ok fd =>
          match ← lockFile filename .exclusive with
          | .error _ =>
            system (.close dirfd)
            system (.close fd)
            regainAndRespond (res.say (str "Cannot lock file for creation"))
          | .ok lockFd =>
            system (.close fd)
            unlockFile lockFd
            regainAndRespond (res.succeed (str "File created succesfully"))

/-- A change made under an exclusive lock of a file by `HandleHelperChmod`. -/
def handleHelperChmod (session : ClientSession) (filename : List UInt8) (privileges : UInt32)
    (res : HelperResponse) : HelperScript HelperOutcome :=
  inSandbox (sandboxUserToHisHome session) res (str "Sandbox error") do
    match ← lockFile filename .exclusive with
    | .error _ => regainAndRespond (res.say (str "Cannot lock file for chmod"))
    | .ok lockFd =>
      let changed ← system (.chmod filename privileges)
      unlockFile lockFd
      regainAndRespond <| match changed with
        | .error text => res.say (str "chmod failed: " ++ text)
        | .ok _ => res.succeed (str "Permissions updated successfully")

/-- `HandleHelperDelete`. -/
def handleHelperDelete (session : ClientSession) (path : List UInt8) (res : HelperResponse) :
    HelperScript HelperOutcome :=
  inSandbox (sandboxUserToHisHome session) res (str "Sandbox error") do
    match ← system (.stat path) with
    | .error text => regainAndRespond (res.say (str "Delete failed: " ++ text))
    | .ok st =>
      if st.type = .directory then
        match ← system (.rmdir path) with
        | .error text => regainAndRespond (res.say (str "Delete directory failed: " ++ text))
        | .ok _ => regainAndRespond (res.succeed (str "Deleted successfully"))
      else
        match ← lockFile path .exclusive with
        | .error _ => regainAndRespond (res.say (str "Cannot lock file for delete"))
        | .ok lockFd =>
          let deleted ← system (.unlink path)
          unlockFile lockFd
          regainAndRespond <| match deleted with
            | .error text => res.say (str "Delete file failed: " ++ text)
            | .ok _ => res.succeed (str "Deleted successfully")

/-- What follows the last slash of a path. -/
def baseName (path : List UInt8) : List UInt8 := (path.reverse.takeWhile (· != 47)).reverse

/-- The part of `HandleHelperMove` under the lock of the source: the text of the failure, if
any. -/
def moveLocked (path1 path2 : List UInt8) : HelperScript (Except (List UInt8) Unit) := do
  match ← system (.stat path1) with
  | .error text => return .error (str "Move failed: source does not exist: " ++ text)
  | .ok _ =>
    let refusal := str "Move failed: destination is not a directory or doesn't exists"
    match ← system (.stat path2) with
    | .error _ => return .error refusal
    | .ok stDest =>
      if stDest.type ≠ .directory then return .error refusal
      else
        let dstPath := formatted pathMax (path2 ++ str "/" ++ baseName path1)
        match ← system (.stat dstPath) with
        | .ok _ => return .error (str "Move failed: destination file already exists")
        | .error _ =>
          match ← system (.rename path1 dstPath) with
          | .error text => return .error (str "Move failed: " ++ text)
          | .ok _ => return .ok ()

/-- `HandleHelperMove`. -/
def handleHelperMove (session : ClientSession) (path1 path2 : List UInt8)
    (res : HelperResponse) : HelperScript HelperOutcome :=
  inSandbox (sandboxUserToHisHome session) res (str "Sandbox error") do
    match ← lockFile path1 .exclusive with
    | .error _ => regainAndRespond (res.say (str "Cannot lock source file for move"))
    | .ok lockFd =>
      let moved ← moveLocked path1 path2
      unlockFile lockFd
      regainAndRespond <| match moved with
        | .error text => res.say text
        | .ok _ => res.succeed (str "Moved successfully")

/-! ## Contents of files -/

/-- The part of `HandleHelperRead` under the lock: the bytes read, or the text of a failure. -/
def readLocked (lockFd : Descriptor) (offset : Int32) :
    HelperScript (Except (List UInt8) { bytes : List UInt8 // bytes.length ≤ 4096 }) := do
  match ← system (.fstat lockFd) with
  | .error text => return .error (str "Stat failed: " ++ text)
  | .ok st =>
    if st.type ≠ .regular then return .error (str "Not a regular file")
    else if offset.toInt > st.size then return .error (str "Offset beyond EOF")
    else
      match ← system (.seekSet lockFd offset) with
      | .error _ => return .error (str "Seek failed")
      | .ok _ =>
        match ← system (.read lockFd 4096) with
        | .error _ => return .error (str "Internal error reading file")
        | .ok bytes => return .ok bytes

/-- `HandleHelperRead`. -/
def handleHelperRead (session : ClientSession) (path : List UInt8) (offset : Int32)
    (res : HelperResponse) : HelperScript HelperOutcome :=
  inSandbox (sandboxUserToHisHome session) res (str "Sandbox error") do
    match ← lockFile path .shared with
    | .error text => regainAndRespond (res.say (str "Lock failed: " ++ text))
    | .ok lockFd =>
      let found ← readLocked lockFd offset
      unlockFile lockFd
      match found with
      | .error text => regainAndRespond (res.say text)
      | .ok ⟨bytes, _⟩ =>
        let res := { res with payloadLen := UInt32.ofNat bytes.length }.succeed (str "Success")
        if ← regainRoot then
          let _ ← system (.writeResponse res)
          if 0 < res.payloadLen then
            let _ ← system (.writeServer bytes)
          return .returned
        else return .exited

/-- The loop of `HandleHelperWrite` that writes spaces; whether none of them has failed. -/
def padFile (fd : Descriptor) : Nat → HelperScript Bool
  | 0 => pure true
  | count + 1 => do
    match ← system (.write fd [32]) with
    | .error _ => return false
    | .ok _ => padFile fd count

/-- The part of `HandleHelperWrite` that moves to the position, beyond the end with spaces: the
text of a failure, if any. The failure of the seek to the end has none. -/
def seekPadded (fd : Descriptor) (size : Nat) (offset : Int32) :
    HelperScript (Except (List UInt8) Unit) := do
  if offset.toInt > size then
    match ← system (.seekEnd fd) with
    | .error _ => return .error []
    | .ok _ =>
      if ← padFile fd (offset.toInt - size).toNat then return .ok ()
      else return .error (str "Padding failed")
  else
    match ← system (.seekSet fd offset) with
    | .error text => return .error (str "Seek failed: " ++ text)
    | .ok _ => return .ok ()

/-- The part of `HandleHelperWrite` under the lock: the text of a failure, if any. -/
def writeLocked (fd : Descriptor) (offset : Int32) (data : List UInt8) :
    HelperScript (Except (List UInt8) Unit) := do
  match ← system (.fstat fd) with
  | .error text => return .error (str "Stat failed: " ++ text)
  | .ok st =>
    if st.type ≠ .regular then return .error (str "Not a regular file")
    else
      match ← seekPadded fd st.size offset with
      | .error text => return .error text
      | .ok _ =>
        match ← system (.write fd data) with
        | .error text => return .error (str "Write failed: " ++ text)
        | .ok ⟨count, _⟩ =>
          if count ≠ data.length then
            return .error (str "Partial write: wrote " ++ formatInt count ++ str " of " ++
              formatInt data.length ++ str " bytes")
          else return .ok ()

/-- `HandleHelperWrite`. A file that cannot be locked is closed twice. -/
def handleHelperWrite (session : ClientSession) (path : List UInt8) (offset : Int32)
    (data : List UInt8) (res : HelperResponse) : HelperScript HelperOutcome :=
  inSandbox (sandboxUserToHisHome session) res (str "Sandbox error") do
    match ← system (.openFile path ⟨.readWrite, true, false, false, false⟩ 0o700) with
    | .error text => regainAndRespond (res.say (str "Open failed: " ++ text))
    | .ok fd =>
      match ← system (.setLock fd .exclusive) with
      | .error text =>
        system (.close fd)
        system (.close fd)
        regainAndRespond (res.say (str "Error locking fd: " ++ text))
      | .ok _ =>
        let written ← writeLocked fd offset data
        system (.close fd)
        regainAndRespond <| match written with
          | .error text => if text = [] then res else res.say text
          | .ok _ => res.succeed (str "Success")

/-! ## Background transfers -/

/-- The end of `HandleHelperDownload` and `HandleHelperUpload`. -/
def endTransfer (fd : Descriptor) : HelperScript HelperOutcome := do
  system (.clearLock fd)
  system (.close fd)
  if ← regainRoot then return .returned else return .exited

/-- The copying loop of `HandleHelperDownload`. -/
def streamToServer : Blocks bufferSize → HelperScript Unit
  | [] => pure ()
  | bytes :: later => do
    if ← system (.writeServer bytes.val) then streamToServer later else pure ()

/-- The copying loop of `HandleHelperUpload`. -/
def streamToFile (fd : Descriptor) : Blocks bufferSize → HelperScript Unit
  | [] => pure ()
  | bytes :: later => do
    if ← system (.writeAll fd bytes.val) then streamToFile fd later else pure ()

/-- `HandleHelperDownload`. -/
def handleHelperDownload (session : ClientSession) (path : List UInt8) (res : HelperResponse) :
    HelperScript HelperOutcome := do
  let refuse (text : List UInt8) : HelperScript HelperOutcome := do
    let _ ← system (.writeResponse (res.say text))
    return .returned
  if ← sandboxUserToHisHome session then
    match ← system (.openFile path ⟨.readOnly, false, false, false, false⟩ 0) with
    | .error text => refuse (str "Open failed: " ++ text)
    | .ok fd =>
      match ← system (.setLock fd .shared) with
      | .error _ =>
        let _ ← system (.writeResponse (res.say (str "Lock failed")))
        endTransfer fd
      | .ok _ =>
        let found ← system (.fstat fd)
        match found with
        | .ok ⟨.regular, _, size⟩ =>
          let res := { res with payloadLen := UInt32.ofNat size }.succeed (str "Success")
          if ← system (.writeResponse res) then
            let blocks ← system (.readAgain fd bufferSize)
            streamToServer blocks
          endTransfer fd
        | _ =>
          let _ ← system (.writeResponse (res.say (str "Invalid file type")))
          endTransfer fd
  else refuse (str "Sandbox error")

/-- `HandleHelperUpload`. -/
def handleHelperUpload (session : ClientSession) (path : List UInt8) (res : HelperResponse) :
    HelperScript HelperOutcome := do
  if ← sandboxUserToHisHome session then
    match ← system (.openFile path ⟨.writeOnly, true, true, false, false⟩ 0o600) with
    | .error text =>
      let _ ← system (.writeResponse (res.say (str "Open/Create failed: " ++ text)))
      if ← regainRoot then return .returned else return .exited
    | .ok fd =>
      match ← system (.setLock fd .exclusive) with
      | .error _ =>
        let _ ← system (.writeResponse (res.say (str "Lock failed")))
        endTransfer fd
      | .ok _ =>
        if ← system (.writeResponse (res.succeed (str "Success"))) then
          let blocks ← system (.readServer bufferSize)
          streamToFile fd blocks
        endTransfer fd
  else
    let _ ← system (.writeResponse (res.say (str "Sandbox error")))
    return .returned

/-! ## Transfers between users -/

/-- The copying loop of `HandleHelperTransfer`; whether every block was written whole. -/
def copyFile (destFd : Descriptor) : Blocks 8192 → HelperScript Bool
  | [] => pure true
  | bytes :: later => do
    match ← system (.write destFd bytes.val) with
    | .error _ => return false
    | .ok ⟨count, _⟩ => if count ≠ bytes.val.length then return false else copyFile destFd later

/-- The part of `HandleHelperTransfer` with the destination open: the text of a failure, if
any. -/
def transferOpened (srcFd destFd : Descriptor) (recv : List UInt8) :
    HelperScript (Except (List UInt8) Unit) := do
  match ← system (.getpwnam recv) with
  | none => return .error (str "Recipient user '" ++ recv ++ str "' does not exist on system")
  | some pw =>
    let _ ← system (.fchown destFd pw.uid pw.gid)
    match ← system (.setLock destFd .exclusive) with
    | .error _ => return .error (str "Could not lock destination file")
    | .ok _ =>
      let blocks ← system (.readAgain srcFd 8192)
      if ← copyFile destFd blocks then return .ok ()
      else return .error (str "Write error during transfer")

/-- The part of `HandleHelperTransfer` with the source open: the text of a failure, if any. -/
def transferLocked (srcFd : Descriptor) (destFullPath recv : List UInt8) :
    HelperScript (Except (List UInt8) Unit) := do
  match ← system (.setLock srcFd .shared) with
  | .error _ =>
    system (.close srcFd)
    return .error (str "Could not lock source file")
  | .ok _ =>
    match ← system (.openFile destFullPath ⟨.writeOnly, true, true, false, false⟩ 0o644) with
    | .error _ =>
      system (.close srcFd)
      return .error (str "Destination path invalid or permission denied")
    | .ok destFd =>
      let copied ← transferOpened srcFd destFd recv
      system (.close srcFd)
      system (.close destFd)
      return copied

/-- `strstr` finds two dots. -/
def hasDots (text : List UInt8) : Bool := decide (str ".." <:+: text)

/-- `HandleHelperTransfer`. -/
def handleHelperTransfer (root sender filename recv targetPath : List UInt8)
    (res : HelperResponse) : HelperScript HelperOutcome := do
  let srcFullPath := formatted 512 (root ++ str "/" ++ sender ++ str "/" ++ filename)
  let destFullPath := formatted 512
    (root ++ str "/" ++ recv ++ str "/" ++ targetPath ++ str "/" ++ filename)
  let transferred ←
    if hasDots targetPath || hasDots filename then
      pure (.error (str "Security Error: Illegal path characters"))
    else do
      match ← system (.openFile srcFullPath ⟨.readOnly, false, false, false, false⟩ 0) with
      | .error _ => pure (.error (str "Source file not found"))
      | .ok srcFd => transferLocked srcFd destFullPath recv
  let _ ← system (.writeResponse <| match transferred with
    | .error text => res.say text
    | .ok _ => res.succeed (str "Transfer successful"))
  return .returned

/-! ## The switch -/

/-- `strtol` with base 8, cut to a `mode_t`. -/
def octalMode (text : List UInt8) : UInt32 := UInt32.ofInt (strtol 8 text)

/-- The helper: its root directory, and the lock file of `CreateSystemUser`. -/
structure Helper where
  /-- `rootDir`. -/
  rootDir : List UInt8
  /-- `lock_file_path`. -/
  lockFilePath : List UInt8
  /-- The root directory is a string. -/
  clean : NulFree rootDir
  /-- The root directory fits its array. -/
  short : rootDir.length < 64

/-- The home directory that the helper gives to a user. -/
def Helper.homeOf (helper : Helper) (username : List UInt8) : List UInt8 :=
  helper.rootDir ++ str "/" ++ username

/-- The function for a command; a command without the arguments it uses is passed a null
pointer, which only the login looks for. -/
def Helper.execute (helper : Helper) (call : HelperCall) (argv : List (List UInt8))
    (res : HelperResponse) : HelperScript HelperOutcome :=
  let session := call.session
  match HelperCommand.ofWord call.cmd, argv with
  | some .createUser, username :: privileges :: _ =>
    handleHelperCreateUser helper.lockFilePath helper.rootDir username (octalMode privileges) res
  | some .login, argv => handleHelperLogin argv.head? res
  | some .cd, path :: _ => changeDirectory session path res
  | some .ls, path :: _ => handleHelperLs session path helper.rootDir res
  | some .createFile, filename :: privileges :: options =>
    if 2 < call.argc.toNat then
      match options with
      | option :: _ => handlerHelperCreateFile session filename (octalMode privileges)
          (decide (option = str "-d")) res
      | [] => pure .undefined
    else handlerHelperCreateFile session filename (octalMode privileges) false res
  | some .chmod, filename :: privileges :: _ =>
    handleHelperChmod session filename (octalMode privileges) res
  | some .delete, path :: _ => handleHelperDelete session path res
  | some .move, path1 :: path2 :: _ => handleHelperMove session path1 path2 res
  | some .read, path :: _ => handleHelperRead session path call.offset res
  | some .write, path :: _ => handleHelperWrite session path call.offset call.data res
  | some .download, path :: _ => handleHelperDownload session path res
  | some .upload, path :: _ => handleHelperUpload session path res
  | some .transfer, sender :: filename :: recv :: targetPath :: _ =>
    handleHelperTransfer helper.rootDir sender filename recv targetPath res
  | some _, _ => pure .undefined
  | none, _ => do
    let _ ← system (.writeResponse (res.say (str "Command not available on the helper")))
    return .returned

/-- The `switch` of `handleCommands`. -/
def Helper.serve (helper : Helper) (call : HelperCall) : HelperScript HelperOutcome :=
  match call.args with
  | none => pure .undefined
  | some argv => helper.execute call argv (.blank call.cmd)

end FileServer
