import FileServer.Lib.Numerals
import FileServer.Model.HelperHandlers
import FileServer.Verif.Login
import FileServer.Verif.Permissions

/-!
# Numbers in commands

The permissions of `create`, `create_user` and `chmod`, and the position of `read` and `write`. The
server passes the permissions on as a text and the helper reads them by `strtol`, the position is read
by `atoi`; neither looks where the number ends. Every token has a value, that of the numeral at its
start, and the command is served with it.
-/
namespace FileServer

open FileServer.Lib

/-- A command with a number, and its other arguments. -/
inductive NumericCommand
  /-- `create <path> <permissions> [-d]`. -/
  | create (path : List UInt8) (makeDir : Bool)
  /-- `create_user <username> <permissions>`. -/
  | createUser (username : List UInt8)
  /-- `chmod <path> <permissions>`. -/
  | chmod (path : List UInt8)
  /-- `read -offset=N <path>`. -/
  | read (path : List UInt8)
  /-- `write -offset=N <path>`. -/
  | write (path : List UInt8)

namespace NumericCommand

/-- The words of the command. -/
def args (token : List UInt8) : NumericCommand → List (List UInt8)
  | create path makeDir =>
    str "create" :: path :: token :: if makeDir then [str "-d"] else []
  | createUser username => [str "create_user", username, token]
  | chmod path => [str "chmod", path, token]
  | read path => [str "read", offsetOption ++ token, path]
  | write path => [str "write", offsetOption ++ token, path]

/-- The base of the numerals. -/
def base : NumericCommand → Nat
  | create .. | createUser _ | chmod _ => 8
  | read _ | write _ => 10

/-- The session may give the command. -/
def Allowed (session : ClientSession) : NumericCommand → Prop
  | createUser username => isUsernameValid (some username) = true
  | _ => session.state = .loggedIn

/-- What the helper runs for the command with a number. -/
def run (helper : Helper) (session : ClientSession) (data : List UInt8) (number : Int) :
    NumericCommand → HelperScript HelperOutcome
  | create path makeDir => handlerHelperCreateFile session path (UInt32.ofInt number) makeDir
      (.blank HelperCommand.createFile.toWord)
  | createUser username => handleHelperCreateUser helper.lockFilePath helper.rootDir username
      (UInt32.ofInt number) (.blank HelperCommand.createUser.toWord)
  | chmod path => handleHelperChmod session path (UInt32.ofInt number)
      (.blank HelperCommand.chmod.toWord)
  | read path => handleHelperRead session path (Int32.ofInt number)
      (.blank HelperCommand.read.toWord)
  | write path => handleHelperWrite session path (Int32.ofInt number) data
      (.blank HelperCommand.write.toWord)

/-- The handler sends one request, which every helper serves with the number. -/
def ServedWith (call : HandlerCall) (number : Int) (command : NumericCommand) : Prop :=
  ∃ unreachable request, (dispatchCommands call = call.relay unreachable request ∨
      ∃ type empty, dispatchCommands call = call.fetch unreachable request type empty) ∧
    ∀ helper : Helper, helper.serve request.call =
      command.run helper call.session request.data number

/-- The arguments of a command with a position. -/
theorem offsetAndPath_offset (mismatch usage name token path : List UInt8) :
    offsetAndPath mismatch usage [name, offsetOption ++ token, path] =
      .ok (Int32.ofInt (strtol 10 token), path) := by
  show (if (offsetOption ++ token).take offsetOption.length = offsetOption then
    .ok (atoi ((offsetOption ++ token).drop offsetOption.length), path) else
      .error mismatch : Except (List UInt8) (Int32 × List UInt8)) = _
  rw [if_pos (List.take_left' rfl), List.drop_left' rfl]
  rfl

/-- The command is served with what `strtol` returns for its token. -/
theorem servedWith_strtol (command : NumericCommand) {call : HandlerCall} {token : List UInt8}
    (allowed : command.Allowed call.session) (words : call.args = command.args token) :
    command.ServedWith call (strtol command.base token) := by
  cases command with
  | create path makeDir =>
    have loggedIn : call.session.state = .loggedIn := allowed
    have selected : dispatchCommands call = handleCreateFile call := by
      rw [dispatchCommands, words]
      rfl
    refine ⟨str "Internal error: Helper unreachable",
      .plain .createFile (path :: token :: if makeDir then [str "-d"] else [])
      (some call.session), Or.inl ?_, fun helper => ?_⟩
    · rw [selected]
      unfold handleCreateFile HandlerCall.loggedIn
      rw [if_neg (not_not.mpr loggedIn), words]
      cases makeDir <;> rfl
    · cases makeDir <;> rfl
  | createUser username =>
    have valid : isUsernameValid (some username) = true := allowed
    have selected : dispatchCommands call = handleCreateUser call := by
      rw [dispatchCommands, words]
      rfl
    refine ⟨str "Internal error: Helper unreachable",
      .plain .createUser [username, token] none, Or.inl ?_, fun helper => rfl⟩
    rw [selected]
    unfold handleCreateUser
    rw [words]
    exact if_pos valid
  | chmod path =>
    have loggedIn : call.session.state = .loggedIn := allowed
    have selected : dispatchCommands call = handleChmod call := by
      rw [dispatchCommands, words]
      rfl
    refine ⟨str "Internal error: Helper unreachable",
      .plain .chmod [path, token] (some call.session), Or.inl ?_, fun helper => rfl⟩
    rw [selected]
    unfold handleChmod HandlerCall.loggedIn
    rw [if_neg (not_not.mpr loggedIn), words]
    rfl
  | read path =>
    have loggedIn : call.session.state = .loggedIn := allowed
    have selected : dispatchCommands call = handleRead call := by
      rw [dispatchCommands, words]
      rfl
    refine ⟨str "Internal error: Helper unreachable",
      .readWrite .read [path] (Int32.ofInt (strtol 10 token)) (some call.session) [],
      Or.inr ⟨.readcmd, str "File is empty", ?_⟩, fun helper => rfl⟩
    rw [selected]
    unfold handleRead HandlerCall.loggedIn
    rw [if_neg (not_not.mpr loggedIn), words, args, offsetAndPath_offset]
  | write path =>
    have loggedIn : call.session.state = .loggedIn := allowed
    have selected : dispatchCommands call = handleWrite call := by
      rw [dispatchCommands, words]
      rfl
    refine ⟨str "Internal error: Helper unreachable",
      .readWrite .write [path] (Int32.ofInt (strtol 10 token)) (some call.session)
      (call.block (cmdEnd call.argv) (dataLen call.hdr.payloadLength call.argv).toNat),
      Or.inl ?_, fun helper => rfl⟩
    rw [selected]
    unfold handleWrite HandlerCall.loggedIn
    rw [if_neg (not_not.mpr loggedIn), words, args, offsetAndPath_offset]

end NumericCommand

/-- Another word than an offset before the path is refused, and nothing is asked of the helper. -/
theorem dispatchCommands_otherOption {call : HandlerCall} {name option path : List UInt8}
    (loggedIn : call.session.state = .loggedIn) (words : call.args = [name, option, path])
    (command : name = str "read" ∨ name = str "write") (other : ¬ offsetOption <+: option) :
    ∃ usage, dispatchCommands call = call.reply (-1) usage := by
  have refused (mismatch usage : List UInt8) :
      offsetAndPath mismatch usage [name, option, path] = .error mismatch := by
    unfold offsetAndPath
    exact if_neg fun same => other (List.prefix_iff_eq_take.mpr same.symm)
  rcases command with rfl | rfl
  · refine ⟨str "Usage: read -offset=N <path>", ?_⟩
    have selected : dispatchCommands call = handleRead call := by
      rw [dispatchCommands, words]
      rfl
    rw [selected]
    unfold handleRead HandlerCall.loggedIn
    rw [if_neg (not_not.mpr loggedIn), words, refused]
  · refine ⟨str "Usage: write [-offset=N] <path>", ?_⟩
    have selected : dispatchCommands call = handleWrite call := by
      rw [dispatchCommands, words]
      rfl
    rw [selected]
    unfold handleWrite HandlerCall.loggedIn
    rw [if_neg (not_not.mpr loggedIn), words, refused]

/-- The token of a command is a complete numeral, and its value is in the range of the command. -/
def NumericCommand.WellFormed (token : List UInt8) (value : Int) : NumericCommand → Prop
  | .create .. | .createUser _ | .chmod _ =>
    token ≠ [] ∧ (∀ digit ∈ token, digitValue digit < 8) ∧ value = digitsValue 8 token ∧
      value ≤ 0o7777
  | .read _ | .write _ => Numeral token value ∧ -2 ^ 31 ≤ value ∧ value < 2 ^ 31

/-- The value of such a token is that of the numeral at its start, and no bound changes it. -/
theorem NumericCommand.WellFormed.leads {command : NumericCommand} {token : List UInt8} {value : Int}
    (formed : command.WellFormed token value) :
    LeadingNumeral command.base token value ∧ longOf value = value := by
  have octal (formed : token ≠ [] ∧ (∀ digit ∈ token, digitValue digit < 8) ∧
      value = digitsValue 8 token ∧ value ≤ 0o7777) :
      LeadingNumeral 8 token value ∧ longOf value = value := by
    obtain ⟨filled, digits, rfl, small⟩ := formed
    refine ⟨leadingNumeral_whole (.inl rfl) filled digits, ?_⟩
    unfold longOf
    omega
  have decimal (formed : Numeral token value ∧ -2 ^ 31 ≤ value ∧ value < 2 ^ 31) :
      LeadingNumeral 10 token value ∧ longOf value = value := by
    obtain ⟨⟨digits, filled, decimal, whole⟩, low, high⟩ := formed
    have all : ∀ byte ∈ digits, digitValue byte < 10 :=
      fun byte member => digitValue_decimal (decimal byte member)
    refine ⟨?_, ?_⟩
    · rcases whole with ⟨rfl, rfl⟩ | ⟨rfl, rfl⟩
      · exact leadingNumeral_whole (.inl rfl) filled all
      · exact leadingNumeral_whole (.inr (.inr rfl)) filled all
    · unfold longOf
      omega
  cases command with
  | create path makeDir => exact octal formed
  | createUser username => exact octal formed
  | chmod path => exact octal formed
  | read path => exact decimal formed
  | write path => exact decimal formed

/-- What a handler does with its token: a complete numeral in the range of the command is used with its
value, any other token with the value of the numeral at its start, which is zero where there is none,
within the bounds of a `long`; only another word than an offset is refused. -/
theorem numericArguments (call : HandlerCall) :
    (∀ (command : NumericCommand) (token : List UInt8) (value : Int),
      command.Allowed call.session → call.args = command.args token →
        command.WellFormed token value → command.ServedWith call value) ∧
      (∀ (command : NumericCommand) (token : List UInt8), command.Allowed call.session →
        call.args = command.args token →
          ∃ value, LeadingNumeral command.base token value ∧
            (∀ other, LeadingNumeral command.base token other → longOf other = longOf value) ∧
            command.ServedWith call (longOf value)) ∧
      ∀ name option path, call.session.state = .loggedIn → call.args = [name, option, path] →
        name = str "read" ∨ name = str "write" → ¬ offsetOption <+: option →
          ∃ usage, dispatchCommands call = call.reply (-1) usage := by
  have small (command : NumericCommand) : command.base ≤ 36 := by
    cases command <;> exact Nat.le_of_ble_eq_true rfl
  refine ⟨fun command token value allowed words formed => ?_, fun command token allowed words => ?_,
    fun name option path loggedIn words command other =>
      dispatchCommands_otherOption loggedIn words command other⟩
  · have served := command.servedWith_strtol allowed words
    rw [strtol_of_leadingNumeral (small command) formed.leads.1, formed.leads.2] at served
    exact served
  · obtain ⟨value, leads⟩ := exists_leadingNumeral command.base token
    have taken := strtol_of_leadingNumeral (small command) leads
    refine ⟨value, leads, fun other also => ?_, ?_⟩
    · rw [← strtol_of_leadingNumeral (small command) also, taken]
    · rw [← taken]
      exact command.servedWith_strtol allowed words

/-- The permissions of a line are used up to what follows their digits. -/
theorem numericArguments_chmod :
    ∃ value, LeadingNumeral 8 (str "640x") value ∧
      (∀ other, LeadingNumeral 8 (str "640x") other → longOf other = longOf value) ∧
      (NumericCommand.chmod (str "notes")).ServedWith
        (commandCall 7 (aliceAt []) (str "chmod notes 640x")) (longOf value) :=
  (numericArguments (commandCall 7 (aliceAt []) (str "chmod notes 640x"))).2.1
    (.chmod (str "notes")) (str "640x") (show (aliceAt []).state = .loggedIn by decide)
    (by decide +kernel)

/-- Three letters for the permissions take them all from a file. -/
theorem not_refused_letters :
    ¬ ∀ token, (∀ value, ¬ (NumericCommand.chmod (str "notes")).WellFormed token value) →
      ((dispatchCommands (commandCall 7 (aliceAt []) (str "chmod notes " ++ token))).runOn
        (willing.serveWith srvHelper Machine.calls)
          (initSharedRegistry, aliceMachine.fresh)).world.2.disk = aliceMachine.disk := by
  intro refused
  have same := refused (str "abc") (fun value formed => absurd formed.2.1 (by decide))
  have mode := congrArg (fun disk => (disk.attributes [str "srv", str "alice", str "notes"]).mode)
    same
  revert mode
  decide +kernel

end FileServer
