import FileServer.Model.Helper
import FileServer.Verif.SessionGate
import FileServer.Verif.Tokenize

/-!
# Requests sent and received

What a handler sends is what the helper gets: the encoder and the decoder of a request agree on
every request with arguments that fit, and the requests of the handlers have the arguments that
their commands need.
-/
namespace FileServer

open FileServer.Lib

/-- A command is found by its word. -/
theorem HelperCommand.ofWord_toWord (cmd : HelperCommand) : ofWord cmd.toWord = some cmd := by
  cases cmd <;> rfl

/-- Arguments are unpacked as they were packed. -/
theorem unpackArgs_flatMap {argv : List (List UInt8)} (clean : ∀ arg ∈ argv, NulFree arg) :
    unpackArgs argv.length (argv.flatMap fun arg => arg ++ [0]) = some argv := by
  induction argv with
  | nil => rfl
  | cons arg later ih =>
    have first : cString ((arg :: later).flatMap fun arg => arg ++ [0]) = arg := by
      rw [List.flatMap_cons, List.append_assoc, List.singleton_append]
      exact cString_terminated (clean arg (by simp)) _
    have rest : ((arg :: later).flatMap fun arg => arg ++ [0]).drop (arg.length + 1) =
        later.flatMap fun arg => arg ++ [0] := by
      rw [List.flatMap_cons]
      exact List.drop_left' (by simp)
    have room : arg.length < ((arg :: later).flatMap fun arg => arg ++ [0]).length := by
      simp only [List.flatMap_cons, List.length_append, List.length_singleton]
      omega
    rw [List.length_cons, unpackArgs]
    simp only [first, room, ↓reduceIte, rest]
    rw [ih fun other member => clean other (by simp [member]), Option.map_some]

namespace HelperRequest

/-- The bytes of the arguments. -/
def packed (request : HelperRequest) : List UInt8 := request.argv.flatMap fun arg => arg ++ [0]

/-- The lengths of a request fit the words that carry them. -/
structure Fits (request : HelperRequest) : Prop where
  /-- The arguments with their terminators. -/
  args : request.packed.length < 2 ^ 32
  /-- The data. -/
  data : request.data.length < 2 ^ 32

/-- The length announced is that of the arguments, unless it wraps. -/
theorem toNat_payloadLen (argv : List (List UInt8)) :
    (payloadLen argv).toNat = (argv.flatMap fun arg => arg ++ [0]).length % 2 ^ 32 := by
  have step : ∀ total : UInt32,
      (argv.foldl (fun total arg => total + UInt32.ofNat (arg.length + 1)) total).toNat =
        (total.toNat + (argv.flatMap fun arg => arg ++ [0]).length) % 2 ^ 32 := by
    intro total
    induction argv generalizing total with
    | nil =>
      rw [List.foldl_nil, List.flatMap_nil, List.length_nil, Nat.add_zero,
        Nat.mod_eq_of_lt total.toNat_lt]
    | cons arg later ih =>
      rw [List.foldl_cons, ih, UInt32.toNat_add, UInt32.toNat_ofNat', List.flatMap_cons,
        List.length_append, List.length_append, List.length_singleton]
      omega
  rw [payloadLen, step, UInt32.toNat_zero, Nat.zero_add]

/-- What is written for a request. -/
theorem flatten_buffers (request : HelperRequest) :
    request.buffers.flatten =
      HelperRequestHeader.layout.encode request.header ++ request.packed ++ request.data := by
  have args : ∀ argv : List (List UInt8), (argv.flatMap fun arg => writeAll (arg ++ [0])).flatten =
      argv.flatMap fun arg => arg ++ [0] := by
    intro argv
    induction argv with
    | nil => rfl
    | cons arg later ih =>
      rw [List.flatMap_cons, List.flatten_append, flatten_writeAll, ih, List.flatMap_cons]
  rw [buffers, List.flatten_append, List.flatten_append, flatten_writeAll, flatten_writeAll,
    args, packed]

/-- The call is what the header, the arguments and the data decode to. -/
theorem deliver_header (loop : RequestLoop) (request : HelperRequest) :
    loop.deliver request.header (some request.argv) request.data =
      ⟨.header, loop.delivered ++ [request.call]⟩ := by
  simp only [RequestLoop.deliver, header, call, Int32.toInt32_toUInt32]

/-- After the arguments the data complete the call. -/
theorem feed_data (loop : RequestLoop) {request : HelperRequest} (fits : request.Fits) :
    requestReader.feed ⟨loop.takeData request.header (some request.argv), []⟩ request.data =
      betweenRequests (loop.delivered ++ [request.call]) := by
  have announced : request.header.dataLen.toNat = request.data.length := by
    rw [header, UInt32.toNat_ofNat', Nat.mod_eq_of_lt fits.data]
  by_cases filled : 0 < request.header.dataLen.toNat
  · simp only [RequestLoop.takeData, filled, ↓reduceDIte]
    rw [requestReader.feed_block announced.symm]
    exact congrArg (Reading.mk · []) (deliver_header _ _)
  · have empty : request.data = [] := List.length_eq_zero_iff.mp (by omega)
    simp only [RequestLoop.takeData, filled, ↓reduceDIte]
    have done := deliver_header loop request
    rw [empty] at done
    rw [empty, Reader.feed_nil, done]
    rfl

/-- A whole request is received as its call and leaves the loop between requests. -/
theorem feed_request (delivered : List HelperCall) {request : HelperRequest}
    (fits : request.Fits) (clean : ∀ arg ∈ request.argv, NulFree arg)
    (few : request.argv.length ≤ maxArgs) :
    requestReader.feed (betweenRequests delivered) request.buffers.flatten =
      betweenRequests (delivered ++ [request.call]) := by
  have announced : request.header.payloadLen.toNat = request.packed.length := by
    rw [header, toNat_payloadLen, ← packed, Nat.mod_eq_of_lt fits.args]
  have count : min request.header.argc.toNat maxArgs = request.argv.length := by
    have bound : maxArgs < 2 ^ 32 := by decide
    rw [header, UInt32.toNat_ofNat', Nat.mod_eq_of_lt (by omega), Nat.min_eq_left few]
  rw [flatten_buffers, Reader.feed_append, Reader.feed_append, betweenRequests,
    requestReader.feed_block (HelperRequestHeader.layout.length_encode _)]
  by_cases filled : 0 < request.header.payloadLen.toNat
  · have first : requestReader.accept ⟨.header, delivered⟩
        (HelperRequestHeader.layout.encode request.header) =
          ⟨.payload request.header filled, delivered⟩ := by
      simp only [requestReader, Layout.decode_encode_self, filled, ↓reduceDIte]
    have second : requestReader.accept ⟨.payload request.header filled, delivered⟩
        request.packed = RequestLoop.takeData ⟨.payload request.header filled, delivered⟩
          request.header (some request.argv) := by
      simp only [requestReader, count]
      rw [packed, unpackArgs_flatMap clean]
    rw [first, requestReader.feed_block announced.symm, second]
    exact feed_data _ fits
  · have empty : request.packed = [] := List.length_eq_zero_iff.mp (by omega)
    have none : request.argv = [] := by
      cases args : request.argv with
      | nil => rfl
      | cons arg later => simp [packed, args] at empty
    have first : requestReader.accept ⟨.header, delivered⟩
        (HelperRequestHeader.layout.encode request.header) =
          RequestLoop.takeData ⟨.header, delivered⟩ request.header (some request.argv) := by
      simp only [requestReader, Layout.decode_encode_self, filled, ↓reduceDIte, none]
    rw [empty, Reader.feed_nil, first]
    exact feed_data _ fits

end HelperRequest

/-- The elements of `args` that a command uses point to strings. -/
def HelperCall.Served (call : HelperCall) : Prop :=
  ∃ argv, call.args = some argv ∧ ∀ index ∈ call.used, index < argv.length

/-- A request can be sent and served: it has no more arguments than there is room for, they are
strings, and its command finds those it needs. -/
structure HelperRequest.Sound (request : HelperRequest) : Prop where
  /-- The arguments are strings. -/
  clean : ∀ arg ∈ request.argv, NulFree arg
  /-- There is room for them. -/
  few : request.argv.length ≤ maxArgs
  /-- The command finds its arguments. -/
  served : request.call.Served

/-- A request is understood: however the stream is cut, when everything has been written and
read the helper has got exactly its call and stands at the start of what follows it; and the
command finds its arguments. -/
def HelperRequest.Understood (request : HelperRequest) : Prop :=
  (∀ delivered later calls final,
    runFrom (Pipe.next requestReader)
        ⟨request.buffers ++ later, [], betweenRequests delivered⟩ calls = some final →
      (∀ call, final.next requestReader call = none) →
        final.reading =
          requestReader.feed (betweenRequests (delivered ++ [request.call])) later.flatten) ∧
    request.call.Served

/-- A sound request is understood when its lengths fit. -/
theorem HelperRequest.Sound.understood {request : HelperRequest} (sound : request.Sound)
    (fits : request.Fits) : request.Understood := by
  refine ⟨fun delivered later calls final reached blocked => ?_, sound.served⟩
  obtain ⟨written, drained⟩ := Pipe.empty_of_blocked requestReader blocked
  have waiting : requestReader.Waiting (betweenRequests delivered) := requestReader.want_pos _
  have whole := Pipe.run_delivers requestReader waiting reached written drained
  rw [Pipe.outcome, List.nil_append, List.flatten_append, Reader.feed_append,
    request.feed_request delivered fits sound.clean sound.few] at whole
  exact whole

namespace HandlerCall

variable {call : HandlerCall}

/-- The arguments of a command are strings, and there is room for them. -/
theorem Split.args (split : call.Split) :
    (∀ arg ∈ call.args, NulFree arg) ∧ call.args.length ≤ maxArgs := by
  obtain ⟨payload, saved, final, made⟩ := split
  obtain ⟨cursor, -, same⟩ := Option.map_eq_some_iff.mp made
  have argv : call.argv = (tokenizeLoop maxArgs (strtok 32 cursor)).1 := by rw [same]
  constructor
  · intro arg member
    obtain ⟨token, found, rfl⟩ := List.mem_map.mp member
    exact (tokenizeLoop_token (argv ▸ found)).2.2.1
  · rw [HandlerCall.args, argv, tokenizeLoop_words]
    exact List.length_take_le _ _

/-- A request is sound when its arguments are strings, as many as there is room for and as its
command needs. -/
theorem sound_of {request : HelperRequest} (clean : ∀ arg ∈ request.argv, NulFree arg)
    (cmd : HelperCommand) (count : Nat) (same : request.cmd = cmd)
    (arity : request.argv.length = count)
    (enough : count ≤ maxArgs ∧ ∀ index ∈ cmd.used count, index < count) : request.Sound := by
  have bound : maxArgs < 2 ^ 32 := by decide
  subst same arity
  have width : request.call.argc.toNat = request.argv.length := by
    rw [HelperRequest.call, UInt32.toNat_ofNat', Nat.mod_eq_of_lt (by omega)]
  have used : request.call.used = request.cmd.used request.argv.length := by
    simp only [HelperCall.used, width]
    simp only [HelperRequest.call, HelperCommand.ofWord_toWord]
  refine ⟨clean, enough.1, request.argv, rfl, ?_⟩
  rw [used]
  exact enough.2

/-- The requests that handlers send are sound. -/
theorem Issues.sound {request : HelperRequest} (issued : call.Issues request)
    (split : call.Split) : request.Sound := by
  have clean := split.args.1
  have single : ∀ path ∈ call.args, ∀ arg ∈ [path], NulFree arg := by
    intro path given arg member
    rw [List.mem_singleton.mp member]
    exact clean path given
  cases issued with
  | @createUser name username permissions args valid =>
    refine sound_of ?_ .createUser 2 rfl rfl (by decide)
    exact fun arg member => clean arg (args ▸ List.mem_cons_of_mem _ member)
  | @login name username fresh args valid =>
    refine sound_of ?_ .login 1 rfl rfl (by decide)
    exact fun arg member => clean arg (args ▸ List.mem_cons_of_mem _ member)
  | @plain cmd name argv loggedIn args arity =>
    refine sound_of ?_ cmd argv.length rfl rfl ?_
    · exact fun arg member => clean arg (args ▸ List.mem_cons_of_mem _ member)
    · generalize argv.length = count at arity
      revert arity
      have each : ∀ pair ∈ sessionArities, pair.2 ≤ maxArgs ∧
          ∀ index ∈ pair.1.used pair.2, index < pair.2 := by decide
      exact each (cmd, count)
  | read offset loggedIn args => exact sound_of (single _ args) .read 1 rfl rfl (by decide)
  | write offset loggedIn args => exact sound_of (single _ args) .write 1 rfl rfl (by decide)
  | background either loggedIn args =>
    rcases either with rfl | rfl
    · exact sound_of (single _ args) .download 1 rfl rfl (by decide)
    · exact sound_of (single _ args) .upload 1 rfl rfl (by decide)
  | @transfer slot name targetDir id loggedIn args =>
    refine sound_of ?_ .transfer 4 rfl rfl (by decide)
    intro arg member
    simp only [HelperRequest.argv, List.mem_cons, List.not_mem_nil, or_false] at member
    rcases member with rfl | rfl | rfl | rfl
    · exact cString_nulFree _
    · exact cString_nulFree _
    · exact cString_nulFree _
    · exact clean _ (by simp [args])

end HandlerCall

/-- The helper understands every request that a pass of the loop sends, whatever the client has
sent and whatever the state of the session, as long as the lengths fit. -/
theorem requests_understood {ω : Type} (serve : Surroundings ω) (world : ω) (pid : UInt32)
    (state : HandlerState) (input : ClientInput) :
    ∀ request ∈ requests ((clientPass pid state input).runOn serve world).events,
      request.Fits → request.Understood := by
  have only : (clientPass pid state input).Only fun op =>
      ∀ request, op = .sendHelperRequest request → request.Sound :=
    HandlerCall.only_clientPass fun call _ split op made request same => by
      subst same
      exact HandlerCall.Issues.sound made split
  intro request member
  obtain ⟨⟨op, answer⟩, made, asked⟩ := List.mem_filterMap.mp member
  have sound := only.every.runOn serve world ⟨op, answer⟩ made
  cases op with
  | sendHelperRequest sent =>
    cases asked
    exact (sound _ rfl).understood
  | _ => cases asked

/-- The request of a login is understood. -/
theorem requests_understood_loginBob :
    requests ((clientPass 7 ⟨.zero, none, fun _ => 0⟩
        (.message ClientRun.loginBob (by decide))).runOn (alone fun _ => 0)
          initSharedRegistry).events = [.plain .login [str "bob"] none] ∧
      (HelperRequest.plain .login [str "bob"] none).Understood :=
  ⟨by decide +kernel, requests_understood (alone fun _ => 0) initSharedRegistry 7
    ⟨.zero, none, fun _ => 0⟩ (.message ClientRun.loginBob (by decide)) _ (by decide +kernel)
    ⟨by decide, by decide⟩⟩

end FileServer
