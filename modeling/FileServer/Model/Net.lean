import FileServer.Model.Utility

/-!
# Structures and senders of the server

The session, the shared registry and the helper protocol of `handler/handlers.h` and
`net/net.h`, with the memory image of every structure that is copied as bytes, and the
functions of `net/net.c` that write to a socket. A send is the list of buffers it passes to
`writeAll`, in order.
-/
namespace FileServer

open FileServer.Lib

/-- `ClientState`. -/
inductive ClientState
  | notLoggedIn
  | loggedIn
  /-- A word that is the value of no enumerator. -/
  | other (word : { word : UInt32 // 2 ≤ word.toNat })
deriving DecidableEq

namespace ClientState

/-- The stored word. -/
def toWord : ClientState → UInt32
  | notLoggedIn => 0
  | loggedIn => 1
  | other word => word.val

/-- The value of a stored word. -/
def ofWord (word : UInt32) : ClientState :=
  if large : 2 ≤ word.toNat then .other ⟨word, large⟩
  else if word = 0 then notLoggedIn else loggedIn

/-- A stored value is read back. -/
theorem ofWord_toWord (state : ClientState) : ofWord state.toWord = state := by
  cases state with
  | other word => simp [toWord, ofWord, word.property]
  | _ => rfl

/-- A word read as a value is stored as the same word. -/
theorem toWord_ofWord (word : UInt32) : (ofWord word).toWord = word := by
  by_cases large : 2 ≤ word.toNat
  · simp [ofWord, large, toWord]
  · obtain ⟨value, bound, rfl⟩ : ∃ value, value < 2 ∧ UInt32.ofNat value = word :=
      ⟨word.toNat, by omega, UInt32.ofNat_toNat⟩
    interval_cases value <;> rfl

/-- Memory image of the enumeration. -/
def layout : Layout ClientState := Layout.word32.map ofWord toWord ofWord_toWord toWord_ofWord

end ClientState

/-- `ClientSession`. -/
structure ClientSession where
  /-- Whether a login has succeeded. -/
  state : ClientState
  /-- Effective user of the helper commands. -/
  uid : UInt32
  /-- Effective group of the helper commands. -/
  gid : UInt32
  /-- Name given at login. -/
  username : CharArray maxUsernameLen
  /-- Home directory on the host. -/
  home : CharArray absPath
  /-- Current directory below the home directory. -/
  workdir : CharArray absPath
deriving DecidableEq

namespace ClientSession

/-- The session cleared by `memset`. -/
def zero : ClientSession := ⟨.notLoggedIn, 0, 0, .zero _, .zero _, .zero _⟩

/-- Memory image of the structure. -/
def layout : Layout ClientSession :=
  (ClientState.layout.pair (Layout.word32.pair (Layout.word32.pair
    ((CharArray.layout maxUsernameLen).pair ((CharArray.layout absPath).pair
      (CharArray.layout absPath)))))).map
    (fun fields => ⟨fields.1, fields.2.1, fields.2.2.1, fields.2.2.2.1, fields.2.2.2.2.1,
      fields.2.2.2.2.2⟩)
    (fun session => (session.state, session.uid, session.gid, session.username, session.home,
      session.workdir))
    (fun _ => rfl) (fun _ => rfl)

/-- `session->username` read as a string; without a terminator it runs into the next fields. -/
def usernameText (session : ClientSession) : List UInt8 :=
  cString (session.username.bytes ++ (session.home.bytes ++ session.workdir.bytes))

/-- `session->home` read as a string. -/
def homeText (session : ClientSession) : List UInt8 :=
  cString (session.home.bytes ++ session.workdir.bytes)

/-- `session->workdir` read as a string. -/
def workdirText (session : ClientSession) : List UInt8 := cString session.workdir.bytes

end ClientSession

/-- `TransferStatus`. -/
inductive TransferStatus
  | free
  | pending
  | notified
  | rejected
  /-- A word that is the value of no enumerator. -/
  | other (word : { word : UInt32 // 4 ≤ word.toNat })
deriving DecidableEq

namespace TransferStatus

/-- The stored word. -/
def toWord : TransferStatus → UInt32
  | free => 0
  | pending => 1
  | notified => 2
  | rejected => 3
  | other word => word.val

/-- The value of a stored word. -/
def ofWord (word : UInt32) : TransferStatus :=
  if large : 4 ≤ word.toNat then .other ⟨word, large⟩
  else match word.toNat with
    | 0 => free
    | 1 => pending
    | 2 => notified
    | _ => rejected

/-- A stored value is read back. -/
theorem ofWord_toWord (status : TransferStatus) : ofWord status.toWord = status := by
  cases status with
  | other word => simp [toWord, ofWord, word.property]
  | _ => rfl

/-- A word read as a value is stored as the same word. -/
theorem toWord_ofWord (word : UInt32) : (ofWord word).toWord = word := by
  by_cases large : 4 ≤ word.toNat
  · simp [ofWord, large, toWord]
  · obtain ⟨value, bound, rfl⟩ : ∃ value, value < 4 ∧ UInt32.ofNat value = word :=
      ⟨word.toNat, by omega, UInt32.ofNat_toNat⟩
    interval_cases value <;> rfl

/-- A word is read as the value that it stores. -/
theorem ofWord_eq_iff {word : UInt32} {status : TransferStatus} :
    ofWord word = status ↔ word = status.toWord := by
  constructor
  · rintro rfl
    exact (toWord_ofWord word).symm
  · rintro rfl
    exact ofWord_toWord status

/-- Memory image of the enumeration. -/
def layout : Layout TransferStatus :=
  Layout.word32.map ofWord toWord ofWord_toWord toWord_ofWord

end TransferStatus

/-- `UserEntry`: a row of the table of online users. -/
structure UserEntry where
  /-- Name of the user logged in. -/
  username : CharArray maxUsernameLen
  /-- Process that serves the session. -/
  handlerPid : UInt32
  /-- Nonzero while the row is in use. -/
  isActive : UInt32
deriving DecidableEq

namespace UserEntry

/-- The row cleared by `memset`. -/
def zero : UserEntry := ⟨.zero _, 0, 0⟩

/-- `username` read as a string; without a terminator it runs into the next fields. -/
def usernameText (entry : UserEntry) : List UInt8 :=
  cString (entry.username.bytes ++ (Layout.word32.encode entry.handlerPid ++
    Layout.word32.encode entry.isActive))

end UserEntry

/-- `TransferRequest`: a slot of the table of transfers. -/
structure TransferRequest where
  /-- Number of the request, the bits of an `int`. -/
  id : UInt32
  /-- User who offers the file. -/
  sender : CharArray maxUsernameLen
  /-- User it is offered to. -/
  receiver : CharArray maxUsernameLen
  /-- The file offered. -/
  filename : CharArray filenameSize
  /-- Stage of the request. -/
  status : TransferStatus
deriving DecidableEq

namespace TransferRequest

/-- The slot cleared by `memset`. -/
def zero : TransferRequest := ⟨0, .zero _, .zero _, .zero _, .free⟩

/-- Memory image of the structure. -/
def layout : Layout TransferRequest :=
  (Layout.word32.pair ((CharArray.layout maxUsernameLen).pair
    ((CharArray.layout maxUsernameLen).pair ((CharArray.layout filenameSize).pair
      TransferStatus.layout)))).map
    (fun fields => ⟨fields.1, fields.2.1, fields.2.2.1, fields.2.2.2.1, fields.2.2.2.2⟩)
    (fun slot => (slot.id, slot.sender, slot.receiver, slot.filename, slot.status))
    (fun _ => rfl) (fun _ => rfl)

/-- `filename` read as a string; without a terminator it runs into the status. -/
def filenameText (slot : TransferRequest) : List UInt8 :=
  cString (slot.filename.bytes ++ TransferStatus.layout.encode slot.status)

/-- `receiver` read as a string; without a terminator it runs into the next fields. -/
def receiverText (slot : TransferRequest) : List UInt8 :=
  cString (slot.receiver.bytes ++ (slot.filename.bytes ++
    TransferStatus.layout.encode slot.status))

/-- `sender` read as a string; without a terminator it runs into the next fields. -/
def senderText (slot : TransferRequest) : List UInt8 :=
  cString (slot.sender.bytes ++ (slot.receiver.bytes ++ (slot.filename.bytes ++
    TransferStatus.layout.encode slot.status)))

end TransferRequest

/-- `SharedRegistry`, without the semaphore that makes its critical sections atomic. -/
structure SharedRegistry where
  /-- Rows of the sessions logged in. -/
  onlineUsers : List UserEntry
  /-- Slots of the transfers offered. -/
  pending : List TransferRequest
  /-- Number of the last request. -/
  globalIdCounter : UInt32
  /-- The table of users has its declared size. -/
  length_onlineUsers : onlineUsers.length = maxUsers
  /-- The table of transfers has its declared size. -/
  length_pending : pending.length = maxTransfers

/-- The registry set up by `initSharedRegistry` in fresh shared memory. -/
def initSharedRegistry : SharedRegistry where
  onlineUsers := List.replicate maxUsers .zero
  pending := List.replicate maxTransfers .zero
  globalIdCounter := 0
  length_onlineUsers := List.length_replicate
  length_pending := List.length_replicate

/-- `helper_commands`. -/
inductive HelperCommand
  | createUser
  | login
  | cd
  | ls
  | createFile
  | chmod
  | delete
  | move
  | read
  | write
  | download
  | upload
  | transfer
deriving DecidableEq

/-- The word that stands for a command in a request. -/
def HelperCommand.toWord : HelperCommand → UInt32
  | createUser => 0
  | login => 1
  | cd => 2
  | ls => 3
  | createFile => 4
  | chmod => 5
  | delete => 6
  | move => 7
  | read => 8
  | write => 9
  | download => 10
  | upload => 11
  | transfer => 12

/-- `helper_request_header`. -/
structure HelperRequestHeader where
  /-- The command, as its word. -/
  cmd : UInt32
  /-- Number of argument strings. -/
  argc : UInt32
  /-- Bytes of all strings with their terminators. -/
  payloadLen : UInt32
  /-- Session the command runs in. -/
  session : ClientSession
  /-- Position for read and write, the bits of an `int`. -/
  offset : UInt32
  /-- Bytes of data after the strings. -/
  dataLen : UInt32
deriving DecidableEq

/-- Memory image of the structure. -/
def HelperRequestHeader.layout : Layout HelperRequestHeader :=
  (Layout.word32.pair (Layout.word32.pair (Layout.word32.pair (ClientSession.layout.pair
    (Layout.word32.pair Layout.word32))))).map
    (fun fields => ⟨fields.1, fields.2.1, fields.2.2.1, fields.2.2.2.1, fields.2.2.2.2.1,
      fields.2.2.2.2.2⟩)
    (fun header => (header.cmd, header.argc, header.payloadLen, header.session, header.offset,
      header.dataLen))
    (fun _ => rfl) (fun _ => rfl)

/-- `helper_response`. The union of the results of the commands is kept as its bytes. -/
structure HelperResponse where
  /-- Zero on success, negative on error. -/
  status : Int32
  /-- Bytes that follow the response. -/
  payloadLen : UInt32
  /-- Text for the client. -/
  msg : CharArray 1256
  /-- The command answered, as its word. -/
  cmd : UInt32
  /-- The union `data`. -/
  data : CharArray 4104
deriving DecidableEq

namespace HelperResponse

/-- The response cleared by `memset`. -/
def zero : HelperResponse := ⟨0, 0, .zero _, 0, .zero _⟩

/-- `data.login.uid`. -/
def loginUid (response : HelperResponse) : UInt32 := Layout.word32.decode response.data.bytes

/-- `data.login.gid`. -/
def loginGid (response : HelperResponse) : UInt32 :=
  Layout.word32.decode (response.data.bytes.drop 4)

/-- `data.login.home` read as a string. -/
def loginHome (response : HelperResponse) : List UInt8 := cString (response.data.bytes.drop 8)

/-- `data.cd.cwd` read as a string. -/
def cdCwd (response : HelperResponse) : List UInt8 := cString response.data.bytes

/-- `msg` read as a string; without a terminator it runs into the next fields. -/
def msgText (response : HelperResponse) : List UInt8 :=
  cString (response.msg.bytes ++ (Layout.word32.encode response.cmd ++ response.data.bytes))

end HelperResponse

/-- A request to the helper: a call of `sendHelperRequest` or `sendHelperRequestRW` with its
arguments. No session and no data stand for null pointers. -/
inductive HelperRequest
  /-- `sendHelperRequest`. -/
  | plain (cmd : HelperCommand) (argv : List (List UInt8)) (session : Option ClientSession)
  /-- `sendHelperRequestRW`. -/
  | readWrite (cmd : HelperCommand) (argv : List (List UInt8)) (offset : Int32)
      (session : Option ClientSession) (data : List UInt8)
deriving DecidableEq

namespace HelperRequest

/-- The command requested. -/
def cmd : HelperRequest → HelperCommand
  | plain cmd _ _ => cmd
  | readWrite cmd _ _ _ _ => cmd

/-- The argument strings. -/
def argv : HelperRequest → List (List UInt8)
  | plain _ argv _ => argv
  | readWrite _ argv _ _ _ => argv

/-- The session passed, if any. -/
def session : HelperRequest → Option ClientSession
  | plain _ _ session => session
  | readWrite _ _ _ session _ => session

/-- The position passed; `sendHelperRequest` stores zero. -/
def offset : HelperRequest → Int32
  | plain _ _ _ => 0
  | readWrite _ _ offset _ _ => offset

/-- The data passed; `sendHelperRequest` has none. -/
def data : HelperRequest → List UInt8
  | plain _ _ _ => []
  | readWrite _ _ _ _ data => data

/-- The loop that adds up the lengths of the strings, in 32-bit arithmetic. -/
def payloadLen (argv : List (List UInt8)) : UInt32 :=
  argv.foldl (fun total arg => total + UInt32.ofNat (arg.length + 1)) 0

/-- The header written first. A missing session leaves the field cleared. -/
def header (request : HelperRequest) : HelperRequestHeader where
  cmd := request.cmd.toWord
  argc := UInt32.ofNat request.argv.length
  payloadLen := payloadLen request.argv
  session := request.session.getD .zero
  offset := request.offset.toUInt32
  dataLen := UInt32.ofNat request.data.length

/-- What is written: the header, each string with its terminator, and the data. -/
def buffers (request : HelperRequest) : List (List UInt8) :=
  writeAll (HelperRequestHeader.layout.encode request.header) ++
    request.argv.flatMap (fun arg => writeAll (arg ++ [0])) ++ writeAll request.data

end HelperRequest

/-- Header of a message to the client; the padding is what the stack held. -/
def messageHeader (type : MsgType) (status : UInt32) (length : Nat) (isBg : UInt8)
    (padding : CharArray 3) : MsgHeader :=
  ⟨type, status, UInt32.ofNat length, isBg, padding⟩

/-- A text message: as much of the text with its terminator as the header announces. -/
def textMessage (type : MsgType) (status : UInt32) (msg : List UInt8) (isBg : UInt8)
    (padding : CharArray 3) : Received :=
  let header := messageHeader type status (msg.length + 1) isBg padding
  (header, (msg ++ [0]).take header.payloadLength.toNat)

/-- A text message announces its payload. -/
theorem textMessage_announced (type : MsgType) (status : UInt32) (msg : List UInt8)
    (isBg : UInt8) (padding : CharArray 3) :
    (textMessage type status msg isBg padding).Announced := by
  simp only [Received.Announced, textMessage, messageHeader, List.length_take,
    List.length_append, List.length_singleton, UInt32.toNat_ofNat']
  omega

/-- `sendProtocolMsgBg`: the header, then the text with its terminator. -/
def sendProtocolMsgBg (type : MsgType) (status : UInt32) (msg : List UInt8) (isBg : UInt8)
    (padding : CharArray 3) : List (List UInt8) :=
  writeAll (MsgHeader.layout.encode (textMessage type status msg isBg padding).1) ++
    writeAll (textMessage type status msg isBg padding).2

/-- `sendProtocolMsg`: the same with the background flag clear. -/
def sendProtocolMsg (type : MsgType) (status : UInt32) (msg : List UInt8)
    (padding : CharArray 3) : List (List UInt8) :=
  sendProtocolMsgBg type status msg 0 padding

end FileServer
