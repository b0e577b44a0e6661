import FileServer.Model.Accounts

/-!
# One command on the registry

A handler that runs while no other process enters the registry. Its sections are carried out on
the registry; what the helper, the memory and the sockets answer is given for every call.
-/
namespace FileServer

open FileServer.Lib

/-- An answer to every call of a handler. -/
abbrev HandlerAnswers := (op : HandlerOp) → op.Answer

/-- The sections of a handler are carried out, the other calls are answered as given. The loop
of `handleTransferRequest` takes no process with the number zero. -/
def HandlerAnswers.serve (answers : HandlerAnswers) : Surroundings SharedRegistry
  | registry, .enter entered => entered.apply registry
  | registry, .awaitUser destUser =>
    ((registry.findUser destUser).filter (· ≠ 0), registry)
  | registry, op => (answers op, registry)

/-- The same with a helper, which serves the requests that reach it in surroundings of its own. -/
def HandlerAnswers.serveWith {ω : Type} (answers : HandlerAnswers) (helper : Helper)
    (calls : ω → (op : HelperOp) → op.Answer × ω) : Surroundings (SharedRegistry × ω)
  | (registry, world), .sendHelperRequest request =>
    let (answer, after) := (answers (.sendHelperRequest request)).carry
      ((helper.serve request.call).runOn calls world) world
    (answer, registry, after)
  | (registry, world), op =>
    let (answer, after) := answers.serve registry op
    (answer, after, world)

/-- The bytes that the helper sends to the server besides its response. -/
def payloadOf (events : List HelperEvent) : List UInt8 :=
  events.flatMap fun event => match event with
    | ⟨.writeServer bytes, true⟩ => bytes
    | _ => []

/-- The same with the connection to the helper, where these bytes wait to be read. -/
def HandlerAnswers.serveStream {ω : Type} (answers : HandlerAnswers) (helper : Helper)
    (calls : ω → (op : HelperOp) → op.Answer × ω) :
    Surroundings (SharedRegistry × ω × List UInt8)
  | (registry, world, _), .sendHelperRequest request =>
    let served := (helper.serve request.call).runOn calls world
    let (answer, after) := (answers (.sendHelperRequest request)).carry served world
    (answer, registry, after, match answer with
      | .answered _ => payloadOf served.events
      | .failed _ | .unsent _ => [])
  | (registry, world, pending), .readHelper length =>
    (if enough : length.toNat ≤ pending.length then
        some ⟨pending.take length.toNat, List.length_take_of_le enough⟩ else none,
      registry, world, pending.drop length.toNat)
  | (registry, world, pending), op =>
    let (answer, after) := answers.serve registry op
    (answer, after, world, pending)

section

variable {ω : Type} {answers : HandlerAnswers} {helper : Helper}
  {calls : ω → (op : HelperOp) → op.Answer × ω} (registry : SharedRegistry) {world : ω}
  (pending : List UInt8) {request : HelperRequest}

/-- The bytes behind the response that the helper sends wait to be read. -/
theorem HandlerAnswers.serveStream_answered {res : HelperResponse}
    (carries : (answers (.sendHelperRequest request)).carries = true)
    (arrives : AccountEnvironment.response
      ((helper.serve request.call).runOn calls world).events = some res) :
    answers.serveStream helper calls (registry, world, pending) (.sendHelperRequest request) =
      (.answered res, registry, ((helper.serve request.call).runOn calls world).world,
        payloadOf ((helper.serve request.call).runOn calls world).events) := by
  unfold serveStream
  simp only [HelperAnswer.carry_of_carries carries, arrives]

/-- Nothing waits to be read without a response. -/
theorem HandlerAnswers.serveStream_failed
    (carries : (answers (.sendHelperRequest request)).carries = true)
    (silent : AccountEnvironment.response
      ((helper.serve request.call).runOn calls world).events = none) :
    answers.serveStream helper calls (registry, world, pending) (.sendHelperRequest request) =
      (.failed (answers (.sendHelperRequest request)).res, registry,
        ((helper.serve request.call).runOn calls world).world, []) := by
  unfold serveStream
  simp only [HelperAnswer.carry_of_carries carries, silent]

end

end FileServer
