import FileServer.Model.Worker
import FileServer.Verif.Handlers
import FileServer.Verif.PayloadBounds

/-!
# Content of a write command

The client sends the line typed, a terminator and the content; where the content starts is not
in the message. The handler takes it to start behind the terminator that `strtok` has put after
the last argument, which is the end of the line unless the line ends in a space.
-/
namespace FileServer

open FileServer.Lib

/-- A line that asks for content to be written to a path, at a position. -/
inductive CommandLine.Writes (command : CommandLine) : List UInt8 → Int → Prop
  /-- Without the option the position is zero. -/
  | plain {path : List UInt8} (starts : str "write " <+: command.text)
      (tokens : words 32 command.text = [str "write", path]) : Writes command path 0
  /-- The option gives the position in digits. -/
  | option (numeral : List UInt8) {path : List UInt8} {position : Int} (starts : str "write " <+: command.text)
      (tokens : words 32 command.text = [str "write", offsetOption ++ numeral, path])
      (reads : Numeral numeral position) : Writes command path position

/-- The request a write command leads to carries the path, the position and the content,
whatever the handler has done before and whatever its surroundings do, as long as there is
memory for the message and a helper. -/
def Transported (session : ClientSession) (command : CommandLine) (path : List UInt8)
    (position : Int) (content : List UInt8) : Prop :=
  ∃ offset : Int32, offset.toInt = position ∧ ∀ padding, ∃ message,
    writeMessage command content padding = some message ∧
      ∀ pid saved behind {ω : Type} (serve : Surroundings ω) world,
        (∀ world size, (serve world (.malloc size)).1.isSome) →
        (∀ world, (serve world .connectToHelper).1 = true) →
          requests ((handleMessage pid ⟨session, saved, behind⟩ message).runOn serve
            world).events = [.readWrite .write [path] offset (some session) content]

namespace HandlerCall

/-- Bytes of the payload are read from where they are. -/
theorem block_inside (call : HandlerCall) {start length : Nat}
    (inside : start + length ≤ call.memory.length) :
    call.block start length = (call.memory.drop start).take length := by
  apply List.ext_getElem
  · rw [block, List.length_map, List.length_range, List.length_take, List.length_drop]
    omega
  · intro index left right
    rw [block, List.length_map, List.length_range] at left
    simp only [block, byteAt, List.getElem_map, List.getElem_range, List.getElem_take,
      List.getElem_drop]
    rw [dif_pos (by omega)]

/-- A block has the length asked for. -/
@[simp]
theorem length_block (call : HandlerCall) (start length : Nat) :
    (call.block start length).length = length := by
  rw [block, List.length_map, List.length_range]

/-- A relayed request is sent once when there is a helper. -/
theorem requests_relay {ω : Type} {serve : Surroundings ω} {world : ω} (call : HandlerCall)
    (unreachable : List UInt8) (request : HelperRequest)
    (connects : (serve world .connectToHelper).1 = true) :
    requests ((call.relay unreachable request).runOn serve world).events = [request] := by
  simp only [relay, askHelper, reply, Script.runOn_bind, Script.runOn_perform, connects,
    ↓reduceIte]
  rfl

/-- A write command with a path asks for its data to be written. -/
theorem requests_handleWrite {ω : Type} {serve : Surroundings ω} {world : ω} {call : HandlerCall}
    {offset : Int32} {path : List UInt8} (loggedIn : call.session.state = .loggedIn)
    (parsed : offsetAndPath (str "Usage: write [-offset=N] <path>")
      (str "Usage: write [-offset=N] <path>") call.args = .ok (offset, path))
    (connects : (serve world .connectToHelper).1 = true) :
    requests ((handleWrite call).runOn serve world).events =
      [.readWrite .write [path] offset (some call.session)
        (call.block (cmdEnd call.argv) (dataLen call.hdr.payloadLength call.argv).toNat)] := by
  simp only [handleWrite, parsed, HandlerCall.loggedIn, loggedIn, ne_eq, not_true_eq_false,
    ↓reduceIte]
  exact requests_relay _ _ _ connects

/-- The first argument `write` selects its handler. -/
theorem dispatchCommands_write {call : HandlerCall} {later : List (List UInt8)}
    (args : call.args = str "write" :: later) : dispatchCommands call = handleWrite call := by
  have selected : commands.find? (·.1 = str "write") = some (str "write", handleWrite) := rfl
  rw [dispatchCommands, args]
  simp only [selected]

end HandlerCall

/-- Both forms of the line have a path and a position for the handler to find. -/
theorem CommandLine.Writes.parsed {command : CommandLine} {path : List UInt8} {position : Int}
    (writes : command.Writes path position) (mismatch usage : List UInt8) :
    ∃ later offset, words 32 command.text = str "write" :: later ∧ later.length < maxArgs ∧
      offsetAndPath mismatch usage (words 32 command.text) = .ok (offset, path) ∧
      ∀ exact_ : Int32, exact_.toInt = position → exact_ = offset := by
  cases writes with
  | plain starts tokens =>
    refine ⟨[path], 0, tokens, by simp, by rw [tokens]; rfl, fun exact_ same => ?_⟩
    exact Int32.toInt_inj.mp same
  | option numeral starts tokens reads =>
    refine ⟨[offsetOption ++ numeral, path], atoi numeral, tokens, by simp [maxArgs], ?_, ?_⟩
    · rw [tokens]
      simp [offsetAndPath]
    · rintro exact_ rfl
      exact (atoi_numeral reads).symm

/-- A line that asks for content starts with a letter. -/
theorem CommandLine.Writes.head {command : CommandLine} {path : List UInt8} {position : Int}
    (writes : command.Writes path position) : command.text.head? ≠ some 32 := by
  have starts : str "write " <+: command.text := by cases writes <;> assumption
  obtain ⟨rest, same⟩ := starts
  rw [← same, List.head?_append_of_ne_nil _ (by decide)]
  decide

section Message

variable {command : CommandLine} {path : List UInt8} {position : Int} {content : List UInt8}

/-- The scan of the payload sees the line. -/
theorem text_payload (command : CommandLine) (content : List UInt8) :
    Cursor.text ⟨command.text ++ [0] ++ content ++ [0], 0⟩ = command.text := by
  rw [Cursor.text, List.drop_zero, List.append_assoc, List.append_assoc, List.singleton_append,
    cString_terminated command.clean]

/-- The arguments found start at the front of the payload, and what lies behind the terminator
of the last one is the content exactly when the line does not end in a space. -/
theorem data_payload (writes : command.Writes path position) {length : UInt32}
    (announced : length.toNat = (command.text ++ [0] ++ content).length)
    (call : HandlerCall)
    (argv : call.argv = (tokenizeLoop maxArgs
      (strtok 32 ⟨command.text ++ [0] ++ content ++ [0], 0⟩)).1)
    (memory : call.memory = (tokenizeLoop maxArgs
      (strtok 32 ⟨command.text ++ [0] ++ content ++ [0], 0⟩)).2.memory) :
    call.block (cmdEnd call.argv) (dataLen length call.argv).toNat = content ↔
      command.text.getLast? ≠ some 32 := by
  have text := text_payload command content
  have texts := tokenizeLoop_words maxArgs ⟨command.text ++ [0] ++ content ++ [0], 0⟩
  obtain ⟨later, offset, tokens, few, -, -⟩ := writes.parsed [] []
  have room : (words 32 command.text).length ≤ maxArgs := by rw [tokens]; exact few
  rw [text, List.take_of_length_le room, tokens, ← argv] at texts
  cases found : call.argv with
  | nil => simp [found] at texts
  | cons first others =>
    obtain ⟨last, ends⟩ : ∃ last, (first :: others).getLast? = some last :=
      ⟨_, List.getLast?_eq_some_getLast (List.cons_ne_nil _ _)⟩
    rw [found] at argv
    have begins := (tokenizeLoop_first argv.symm).2
    have whole := tokenizeLoop_last (argv ▸ ends)
    have inside := (tokenizeLoop_token (argv ▸ List.mem_of_getLast? ends)).2.1
    have kept := (tokenizeLoop_advances maxArgs ⟨command.text ++ [0] ++ content ++ [0], 0⟩).back
    rw [← memory] at kept
    simp only [Cursor.terminator, text, Nat.zero_add] at begins whole inside kept
    have zero : first.start = 0 := begins.mpr writes.head
    have behind : call.memory.drop command.text.length = 0 :: (content ++ [0]) := by
      rw [kept]
      simp
    have width : call.memory.length = command.text.length + content.length + 2 := by
      have := congrArg List.length behind
      simp only [List.length_drop, List.length_cons, List.length_append, List.length_nil] at this
      omega
    have bound := length.toNat_lt
    simp only [List.length_append, List.length_singleton] at announced
    have size : (dataLen length (first :: others)).toNat = length.toNat - (last.finish + 1) := by
      simp only [dataLen, cmdEnd, ends, List.head?_cons, Option.map_some, Option.getD_some, zero,
        Nat.sub_zero]
      rw [UInt32.toNat_sub_of_le, UInt32.toNat_ofNat']
      all_goals
        try rw [UInt32.le_iff_toNat_le, UInt32.toNat_ofNat']
        omega
    have finish : cmdEnd (first :: others) = last.finish + 1 := by
      rw [cmdEnd, ends]
      rfl
    rw [size, finish]
    constructor
    · intro same
      have := congrArg List.length same
      rw [HandlerCall.length_block] at this
      exact (whole.mp (by omega)).1
    · intro open_
      have last_ := whole.mpr ⟨open_, room⟩
      have past : call.memory.drop (last.finish + 1) = content ++ [0] := by
        rw [last_, ← List.drop_drop, behind, List.drop_succ_cons, List.drop_zero]
      have amount : length.toNat - (last.finish + 1) = content.length := by omega
      rw [HandlerCall.block_inside _ (by omega), past, amount, List.take_left]

/-- The client makes a message of a line and its content unless the length wraps. -/
theorem writeMessage_eq_some (padding : CharArray 3) {message : Received} :
    writeMessage command content padding = some message ↔
      (command.text ++ [0] ++ content).length < 2 ^ 32 ∧
        (clientHeader .writecmd command (command.text ++ [0] ++ content).length padding,
          command.text ++ [0] ++ content) = message := by
  rw [writeMessage, clientHeader, UInt32.toNat_ofNat']
  split
  · simp only [false_iff, reduceCtorEq]
    omega
  · rw [Option.some.injEq]
    exact (and_iff_right (by omega)).symm

/-- The request that the message leads to. -/
theorem requests_writeMessage {ω : Type} (serve : Surroundings ω) (world : ω) (pid : UInt32)
    (state : HandlerState) (writes : command.Writes path position)
    (loggedIn : state.session.state = .loggedIn) {padding : CharArray 3} {message : Received}
    (sent : writeMessage command content padding = some message)
    (fits : (command.text ++ [0] ++ content).length < 2 ^ 32 - 1)
    (memory : (serve world (.malloc (payloadSize message.1))).1.isSome)
    (connects : ∀ world, (serve world .connectToHelper).1 = true) :
    ∃ offset data, requests ((handleMessage pid state message).runOn serve world).events =
        [.readWrite .write [path] offset (some state.session) data] ∧
      (∀ exact_ : Int32, exact_.toInt = position → exact_ = offset) ∧
      (data = content ↔ command.text.getLast? ≠ some 32) := by
  obtain ⟨short, rfl⟩ := (writeMessage_eq_some _).mp sent
  obtain ⟨behind, given⟩ := Option.isSome_iff_exists.mp memory
  obtain ⟨later, offset, tokens, few, parsed, exactly⟩ := writes.parsed
    (str "Usage: write [-offset=N] <path>") (str "Usage: write [-offset=N] <path>")
  have announced : (clientHeader .writecmd command (command.text ++ [0] ++ content).length
      padding).payloadLength.toNat = (command.text ++ [0] ++ content).length := by
    rw [clientHeader, UInt32.toNat_ofNat', Nat.mod_eq_of_lt short]
  generalize clientHeader .writecmd command _ padding = header at announced given ⊢
  have filled : header.payloadLength ≠ 0 := by
    intro zero
    simp [zero] at announced
  have room : ¬ payloadSize header ≤ header.payloadLength := by
    rw [UInt32.not_le, UInt32.lt_iff_toNat_lt, payloadLength_lt_payloadSize, announced]
    exact fits
  have args : (messageCall pid state.session behind
      (header, command.text ++ [0] ++ content)).args = words 32 command.text := by
    have texts := tokenizeLoop_words maxArgs ⟨command.text ++ [0] ++ content ++ [0], 0⟩
    rw [text_payload, List.take_of_length_le (by rw [tokens]; exact few)] at texts
    exact texts
  refine ⟨offset, _, ?_, exactly, data_payload writes announced
    (messageCall pid state.session behind (header, command.text ++ [0] ++ content)) rfl rfl⟩
  rw [(runOn_handleMessage serve world pid state filled room given).1, requests_cons,
    HandlerCall.dispatchCommands_write (args.trans tokens)]
  exact HandlerCall.requests_handleWrite loggedIn (args ▸ parsed) (connects _)

/-- A message whose length wraps the size of its block leads to no request. -/
theorem requests_wrapped {ω : Type} (serve : Surroundings ω) (world : ω) (pid : UInt32)
    (state : HandlerState) {message : Received}
    (wraps : 2 ^ 32 - 1 ≤ message.1.payloadLength.toNat) :
    requests ((handleMessage pid state message).runOn serve world).events = [] := by
  have filled : message.1.payloadLength ≠ 0 := by
    intro zero
    simp [zero] at wraps
  have room : payloadSize message.1 ≤ message.1.payloadLength := by
    rw [← UInt32.not_lt, UInt32.lt_iff_toNat_lt, payloadLength_lt_payloadSize]
    omega
  rw [handleMessage, if_neg filled]
  simp only [Script.runOn_bind, Script.runOn_perform, room, ↓reduceIte]
  split <;> rfl

/-- A write command transports its content exactly when its line does not end in a space, its
length leaves room for a terminator, and the position is an `int`. -/
theorem transported_iff {session : ClientSession} (loggedIn : session.state = .loggedIn)
    {command : CommandLine} {path : List UInt8} {position : Int}
    (writes : command.Writes path position) (content : List UInt8) :
    Transported session command path position content ↔
      command.text.getLast? ≠ some 32 ∧
        command.text.length + 1 + content.length < 2 ^ 32 - 1 ∧
        -2 ^ 31 ≤ position ∧ position < 2 ^ 31 := by
  have width : (command.text ++ [0] ++ content).length =
      command.text.length + 1 + content.length := by
    rw [List.length_append, List.length_append, List.length_singleton]
  constructor
  · rintro ⟨offset, rfl, sends⟩
    obtain ⟨message, sent, leads⟩ := sends (.zero 3)
    have asked := leads 0 none (fun _ => 0) (alone fun _ => 0) initSharedRegistry
      (fun _ _ => rfl) (fun _ => rfl)
    have fits : (command.text ++ [0] ++ content).length < 2 ^ 32 - 1 := by
      by_contra wraps
      obtain ⟨short, rfl⟩ := (writeMessage_eq_some _).mp sent
      rw [requests_wrapped] at asked
      · cases asked
      · rw [clientHeader, UInt32.toNat_ofNat', Nat.mod_eq_of_lt short]
        omega
    obtain ⟨_, data, asks, -, same⟩ := requests_writeMessage (alone fun _ => 0)
      initSharedRegistry 0 ⟨session, none, fun _ => 0⟩ writes loggedIn sent fits rfl fun _ => rfl
    rw [asks] at asked
    cases asked
    exact ⟨same.mp rfl, width ▸ fits, offset.minValue_le_toInt, offset.toInt_lt⟩
  · rintro ⟨open_, fits, low, high⟩
    refine ⟨.ofInt position, Int32.toInt_ofInt_of_le low high, fun padding => ?_⟩
    rw [← width] at fits
    have short : (command.text ++ [0] ++ content).length < 2 ^ 32 := by omega
    have sent := (writeMessage_eq_some padding).mpr ⟨short, rfl⟩
    refine ⟨_, sent, fun pid saved behind ω serve world memory connects => ?_⟩
    obtain ⟨offset, data, asks, exactly, same⟩ := requests_writeMessage serve world pid
      ⟨session, saved, behind⟩ writes loggedIn sent fits (memory _ _) connects
    rw [asks, exactly _ (Int32.toInt_ofInt_of_le low high), same.mpr open_]

end Message

/-- A line that asks for content to be written to a file. -/
def writeLine : CommandLine := ⟨str "write -offset=-3 f", by decide, by decide, by decide⟩

/-- The content of the line arrives, with the spaces and terminators in it. -/
theorem transported_writeLine :
    Transported loggedInSession writeLine (str "f") (-3) [32, 0, 104, 105, 0] := by
  have digits : ∀ digit ∈ str "3", 48 ≤ digit ∧ digit ≤ 57 := by
    intro digit member
    obtain rfl := List.mem_singleton.mp member
    decide
  have numeral : Numeral (str "-3") (-3) :=
    ⟨str "3", by decide, digits, .inr ⟨by decide, by decide⟩⟩
  exact (transported_iff rfl (.option (str "-3") (by decide) (by decide +kernel) numeral) _).mpr
    ⟨by decide, by decide, by decide, by decide⟩

/-- The same line with a space typed at its end. -/
def spacedLine : CommandLine := ⟨str "write f ", by decide, by decide, by decide⟩

/-- The space at the end of a line adds a terminator to the content. -/
theorem not_transported_spacedLine : spacedLine.Writes (str "f") 0 ∧
    ¬ Transported loggedInSession spacedLine (str "f") 0 (str "hi") := by
  have writes : spacedLine.Writes (str "f") 0 := .plain (by decide) (by decide +kernel)
  refine ⟨writes, ?_⟩
  rintro ⟨offset, -, sends⟩
  obtain ⟨message, sent, leads⟩ := sends (.zero 3)
  have asked := leads 0 none (fun _ => 0) (alone fun _ => 0) initSharedRegistry
    (fun _ _ => rfl) (fun _ => rfl)
  obtain ⟨_, data, asks, -, same⟩ := requests_writeMessage (alone fun _ => 0)
    initSharedRegistry 0 ⟨loggedInSession, none, fun _ => 0⟩ writes rfl sent (by decide) rfl
    fun _ => rfl
  rw [asks] at asked
  cases asked
  exact absurd (same.mp rfl) (by decide)

end FileServer
