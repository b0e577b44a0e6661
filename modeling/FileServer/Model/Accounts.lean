import FileServer.Model.FileSystem
import FileServer.Model.HandleClient
import FileServer.Model.HelperHandlers
import FileServer.Lib.Run

/-!
# Accounts of the system

The database of accounts that `getpwnam` reads and that `CreateSystemUser` changes through
`adduser` and `deluser`, under the helper and any number of clients. Creations of users and
logins run the functions of the helper on the database; whether a call on it fails, which
numbers a new user gets, and everything that is no such call, is left to the environment. With a tree
of files, `deluser --remove-home` removes an account together with the directory recorded for it and
everything in it, whoever has created that directory.
-/
namespace FileServer

open FileServer.Lib

/-- The first account of a name. -/
def findAccount (accounts : List Account) (name : List UInt8) : Option Account :=
  accounts.find? (·.name = name)

/-- What the database does not decide. -/
structure AccountEnvironment (ω : Type) where
  /-- The other calls of the helper; for the calls on the database, whether they fail. -/
  system : ω → (op : HelperOp) → op.Answer × ω
  /-- Whether `deluser` succeeds. -/
  deletes : ω → Bool
  /-- The numbers of a new user and of its group. -/
  numbers : ω → UInt32 × UInt32
  /-- The calls of the handlers that are no creation of a user and no login. -/
  server : Surroundings ω

namespace AccountEnvironment

variable {ω : Type} (env : AccountEnvironment ω)

/-- The calls of the helper on the database. -/
def calls : List Account × ω → (op : HelperOp) → op.Answer × (List Account × ω)
  | (accounts, world), .getpwnam name =>
    let (works, after) := env.system world (.getpwnam name)
    (works.bind fun _ => findAccount accounts name, accounts, after)
  | (accounts, world), .adduser homeDir username =>
    match env.system world (.adduser homeDir username) with
    | (.succeeded, after) =>
      if (findAccount accounts username).isSome then (.failed, accounts, after)
      else (.succeeded, accounts ++ [⟨username, (env.numbers world).1, (env.numbers world).2,
        cString homeDir, cString_nulFree homeDir⟩], after)
    | (result, after) => (result, accounts, after)
  | (accounts, world), .deluser username =>
    let (_, after) := env.system world (.deluser username)
    ((), if env.deletes world then accounts.filter (·.name ≠ username) else accounts, after)
  | (accounts, world), op =>
    let (answer, after) := env.system world op
    (answer, accounts, after)

/-- The response that a call sends to the server. -/
def responseOf : HelperEvent → Option HelperResponse
  | ⟨.writeResponse res, true⟩ => some res
  | _ => none

/-- The response that arrives at the server. -/
def response (events : List HelperEvent) : Option HelperResponse := events.findSome? responseOf

end AccountEnvironment

/-- What a request leaves that a helper serves, when the connection carries as much of it as the answer
says: what is not sent is not served, and a response that is not read, or not written, is lost. -/
def HelperAnswer.carry {ω : Type} (connection : HelperAnswer)
    (served : Script.Execution HelperOp HelperOp.Answer HelperOutcome ω) (world : ω) :
    HelperAnswer × ω :=
  match connection with
  | .unsent res => (.unsent res, world)
  | .failed res => (.failed res, served.world)
  | .answered res =>
    match AccountEnvironment.response served.events with
    | some sent => (.answered sent, served.world)
    | none => (.failed res, served.world)

/-- The request is sent, and its response can be read. -/
def HelperAnswer.carries : HelperAnswer → Bool
  | answered _ => true
  | failed _ | unsent _ => false

section

variable {ω : Type} {connection : HelperAnswer}
  {served : Script.Execution HelperOp HelperOp.Answer HelperOutcome ω} {world : ω}

/-- A response that is read has been written. -/
theorem HelperAnswer.answered_carry {res : HelperResponse}
    (answered : (connection.carry served world).1 = .answered res) :
    AccountEnvironment.response served.events = some res ∧
      (connection.carry served world).2 = served.world := by
  unfold carry at answered ⊢
  split at answered
  · cases answered
  · cases answered
  · split at answered
    · rename_i sent arrived
      cases answered
      exact ⟨arrived, rfl⟩
    · cases answered

/-- A request that is carried brings the response that the helper writes. -/
theorem HelperAnswer.carry_of_carries (carries : connection.carries = true) :
    connection.carry served world =
      (match AccountEnvironment.response served.events with
        | some sent => .answered sent
        | none => .failed connection.res, served.world) := by
  cases connection with
  | answered res => cases arrived : AccountEnvironment.response served.events <;> simp [carry, arrived,
      HelperAnswer.res]
  | failed res => cases carries
  | unsent res => cases carries

/-- The helper serves the request, or nothing has happened. -/
theorem HelperAnswer.world_carry (connection : HelperAnswer)
    (served : Script.Execution HelperOp HelperOp.Answer HelperOutcome ω) (world : ω) :
    (connection.carry served world).2 = served.world ∨
      (connection.carry served world).2 = world := by
  unfold carry
  split
  · exact Or.inr rfl
  · exact Or.inl rfl
  · split <;> exact Or.inl rfl

end

namespace AccountEnvironment

variable {ω : Type} (env : AccountEnvironment ω)

/-- The calls of the handlers: creations of users and logins are served by the helper. -/
def serve (helper : Helper) : Surroundings (List Account × ω)
  | (accounts, world), .sendHelperRequest (.plain cmd argv session) =>
    if cmd = .createUser ∨ cmd = .login then
      let (answer, after) := env.server world (.sendHelperRequest (.plain cmd argv session))
      answer.carry ((helper.serve (HelperRequest.plain cmd argv session).call).runOn env.calls
        (accounts, after)) (accounts, after)
    else
      let (answer, after) := env.server world (.sendHelperRequest (.plain cmd argv session))
      (answer, accounts, after)
  | (accounts, world), op =>
    let (answer, after) := env.server world op
    (answer, accounts, after)

end AccountEnvironment

/-- The processes that serve the clients, and the accounts. -/
structure AccountRun (ω : Type) where
  /-- What the process of each client keeps; none after its end. -/
  clients : Nat → Option HandlerState
  /-- The accounts. -/
  accounts : List Account
  /-- The environment. -/
  world : ω

namespace AccountRun

variable {ω : Type}

/-- No client has sent anything. -/
def start (accounts : List Account) (behind : Nat → UInt8) (world : ω) : AccountRun ω :=
  ⟨fun _ => some ⟨.zero, none, behind⟩, accounts, world⟩

/-- One client passes through the loop of `handleClient`. -/
def next (helper : Helper) (env : AccountEnvironment ω) (pids : Nat → UInt32)
    (run : AccountRun ω) (input : Nat × ClientInput) : Option (AccountRun ω) :=
  (run.clients input.1).map fun state =>
    let pass := (clientPass (pids input.1) state input.2).runOn (env.serve helper)
      (run.accounts, run.world)
    ⟨Function.update run.clients input.1 pass.value, pass.world.1, pass.world.2⟩

end AccountRun

namespace AccountEnvironment

variable {ω : Type} (env : AccountEnvironment ω)

/-- The answers of the system, with those on the accounts. -/
def kernel : HostSystem (List Account × ω) := ⟨env.calls, fun _ => 0⟩

/-- The tree without the home directory of a user. -/
def removeHome (host : Host (List Account × ω)) (username : List UInt8) : FileTree :=
  match findAccount host.world.1 username with
  | none => host.tree
  | some account => host.tree.removeTree host.view account.dir

/-- The calls of the helper on accounts and files. -/
def hostCalls (host : Host (List Account × ω)) : (op : HelperOp) →
    op.Answer × Host (List Account × ω)
  | .deluser username =>
    let after := (host.calls env.kernel (.deluser username)).2
    ((), if env.deletes host.world.2 then { after with tree := removeHome host username } else after)
  | op => Host.calls env.kernel host op

end AccountEnvironment

end FileServer
