import FileServer.Lib.Run
import FileServer.Verif.ReplyBudget
import FileServer.Verif.SentCommands

/-!
# The reply that the client waits for

While the client waits there is one command in the foreground that is not answered, and it is the last
one sent. So whatever ends the wait answers that command, if the server takes for background transfers
all that the client does.
-/
namespace FileServer

open FileServer.Lib

namespace HandlerPlace

/-- What the handler may still spend; it spends nothing in front of `readAll`. -/
def Within : HandlerPlace → Nat → Prop
  | noticing _ script, budget => script.Within replyMeter 0 ∧ budget = 0
  | serving script, budget => script.Within replyMeter budget

end HandlerPlace

/-- A process with what it and its command may still spend. -/
structure Share where
  /-- The process. -/
  child : TransferChild
  /-- What it may spend. -/
  budget : Nat

/-- The budgets together. -/
def Share.total (shares : List Share) : Nat := (shares.map Share.budget).sum

/-- Processes that together may spend nothing may each spend nothing. -/
theorem Share.budget_eq_zero {shares : List Share} (none : total shares = 0) {share : Share}
    (member : share ∈ shares) : share.budget = 0 :=
  List.sum_eq_zero_iff_forall_eq_nat.mp none _ (List.mem_map_of_mem member)

/-- The budgets when one process has spent something. -/
theorem Share.total_set {shares : List Share} {index : Nat} {share : Share}
    (found : shares[index]? = some share) (after : Share) :
    total (shares.set index after) + share.budget = total shares + after.budget := by
  unfold total
  induction shares generalizing index with
  | nil => cases found
  | cons first later ih =>
    cases index with
    | zero =>
      obtain rfl := Option.some.inj found
      rw [List.set_cons_zero, List.map_cons, List.map_cons, List.sum_cons, List.sum_cons]
      omega
    | succ index =>
      have rest : _ + share.budget = _ + after.budget := ih found
      rw [List.set_cons_succ, List.map_cons, List.map_cons, List.sum_cons, List.sum_cons]
      omega

namespace Dialogue

/-- The replies in the foreground that may still come and that have come but not ended the wait, with
the commands in the foreground that are not yet read. -/
def due (dialogue : Dialogue) (mine theirs : Nat) : Nat :=
  dialogue.client.writer.held + dialogue.commands.countP (!·.background) + mine + theirs +
    dialogue.messages.countP (·.message.clearsWait) + dialogue.client.reader.held

/-- The message answers the last command sent. -/
def Answers (dialogue : Dialogue) (outgoing : Outgoing) : Prop :=
  ∃ command, outgoing.command = some command ∧ command + 1 = dialogue.client.sent.length

/-- At most one reply is due, to the last command sent, and only while the client waits. -/
structure Awaited (dialogue : Dialogue) (mine : Nat) (shares : List Share) : Prop where
  /-- The commands sent have been read or are on their way. -/
  sent : dialogue.client.sent = dialogue.taken ++ dialogue.commands
  /-- Behind a command in the foreground none is on its way. -/
  last : ∀ front message back, dialogue.commands = front ++ message :: back →
    message.background = false → back = []
  /-- The handler keeps to its budget. -/
  handler : dialogue.handler.Within mine
  /-- A handler that may still reply serves the last command sent. -/
  serves : 0 < mine → dialogue.commands = [] ∧ dialogue.taken ≠ []
  /-- The processes that it has forked. -/
  children : shares.map Share.child = dialogue.children
  /-- They keep to their budgets, and serve the last command sent if they may still reply. -/
  forked : ∀ share ∈ shares, share.child.script.Within replyMeter share.budget ∧
    (0 < share.budget → share.child.command + 1 = dialogue.client.sent.length)
  /-- The replies on their way. -/
  answers : ∀ outgoing ∈ dialogue.messages, outgoing.message.clearsWait = true →
    dialogue.Answers outgoing
  /-- The message that the client handles is the last it has read. -/
  handles : ∀ message, dialogue.client.reader = .handling message →
    ∃ outgoing, dialogue.lastRead = some outgoing ∧ outgoing.message = message
  /-- A reply that the reader holds. -/
  held : dialogue.client.reader.held ≠ 0 → ∃ outgoing, dialogue.lastRead = some outgoing ∧
    outgoing.message.clearsWait = true ∧ dialogue.Answers outgoing
  /-- The last command sent is the one the client waits for. -/
  foreground : dialogue.client.waitingForResponse = true → dialogue.client.writer.held ≠ 0 ∨
    ∃ command, dialogue.client.sent.getLast? = some command ∧ command.background = false
  /-- At most one reply is due. -/
  one : dialogue.due mine (Share.total shares) ≤ dialogue.client.waitingForResponse.toNat

namespace Awaited

variable {dialogue : Dialogue} {mine : Nat} {shares : List Share}

/-- What is due while the client does not wait. -/
theorem due_zero (awaited : dialogue.Awaited mine shares)
    (clear : dialogue.client.waitingForResponse = false) :
    dialogue.due mine (Share.total shares) = 0 := by
  have bound := awaited.one
  rw [clear] at bound
  exact Nat.le_zero.mp bound

/-- No more than one reply is due. -/
theorem due_le (awaited : dialogue.Awaited mine shares) :
    dialogue.due mine (Share.total shares) ≤ 1 :=
  awaited.one.trans (Bool.toNat_le _)

/-- A step of the client that writes and reads nothing. -/
theorem client (awaited : dialogue.Awaited mine shares) {client : ClientThreads}
    (sent : client.sent = dialogue.client.sent)
    (handles : ∀ message, client.reader = .handling message →
      dialogue.client.reader = .handling message)
    (held : client.reader.held ≠ 0 → dialogue.client.reader.held ≠ 0)
    (foreground : client.waitingForResponse = true → client.writer.held ≠ 0 ∨
      ∃ command, dialogue.client.sent.getLast? = some command ∧ command.background = false)
    (one : due { dialogue with client } mine (Share.total shares) ≤
      client.waitingForResponse.toNat) :
    Awaited { dialogue with client } mine shares := by
  refine ⟨sent.trans awaited.sent, awaited.last, awaited.handler, awaited.serves, awaited.children,
    ?_, ?_, fun message here => awaited.handles message (handles message here), ?_, ?_, one⟩
  · intro share member
    show _ ∧ (_ → _ = client.sent.length)
    rw [sent]
    exact awaited.forked share member
  · intro outgoing member clears
    show ∃ command, _ ∧ _ = client.sent.length
    rw [sent]
    exact awaited.answers outgoing member clears
  · intro holds
    show ∃ outgoing, _ ∧ _ ∧ ∃ command, _ ∧ _ = client.sent.length
    rw [sent]
    exact awaited.held (held holds)
  · intro waits
    show _ ∨ ∃ command, client.sent.getLast? = _ ∧ _
    rw [sent]
    exact foreground waits

/-- A command is written. -/
theorem sends (awaited : dialogue.Awaited mine shares) (composed : dialogue.client.Composed)
    {client : ClientThreads} {message : Received} (here : dialogue.client.writer = .sending message)
    (flag : client.waitingForResponse = dialogue.client.waitingForResponse)
    (sent : client.sent = dialogue.client.sent ++ [message])
    (reader : client.reader = dialogue.client.reader) (writer : client.writer.held = 0) :
    Awaited { dialogue with client, commands := dialogue.commands ++ [message] } mine shares := by
  -- nothing else is due
  have bound := awaited.one
  have writes : dialogue.client.writer.held = if message.background then 0 else 1 := by
    rw [here]
    rfl
  have background : message.background = true → dialogue.client.waitingForResponse = false :=
    composed.background message here
  unfold due at bound
  rw [writes] at bound
  have alone : dialogue.commands.countP (!·.background) = 0 ∧ mine = 0 ∧ Share.total shares = 0 ∧
      dialogue.messages.countP (·.message.clearsWait) = 0 ∧ dialogue.client.reader.held = 0 ∧
        dialogue.client.waitingForResponse = !message.background := by
    cases kind : message.background with
    | true =>
      rw [kind, background kind] at bound
      rw [background kind]
      dsimp only [if_true, Bool.toNat_false] at bound
      refine ⟨?_, ?_, ?_, ?_, ?_, rfl⟩ <;> omega
    | false =>
      rw [kind] at bound
      cases waits : dialogue.client.waitingForResponse with
      | false =>
        rw [waits] at bound
        simp only [Bool.false_eq_true, if_false, Bool.toNat_false] at bound
        omega
      | true =>
        rw [waits] at bound
        simp only [Bool.false_eq_true, if_false, Bool.toNat_true] at bound
        refine ⟨?_, ?_, ?_, ?_, ?_, rfl⟩ <;> omega
  obtain ⟨commands, spent, others, messages, held, waits⟩ := alone
  refine ⟨?_, ?_, awaited.handler, ?_, awaited.children, ?_, ?_, ?_, ?_, ?_, ?_⟩
  · show client.sent = dialogue.taken ++ (dialogue.commands ++ [message])
    rw [sent, awaited.sent, List.append_assoc]
  · intro front other back split foreground
    obtain rfl | ⟨back, last, rfl⟩ := back.eq_nil_or_concat'
    · rfl
    · have split : dialogue.commands ++ [message] = front ++ other :: (back ++ [last]) := split
      rw [← List.cons_append, ← List.append_assoc] at split
      obtain ⟨earlier, -⟩ := List.append_inj' split rfl
      have member : other ∈ dialogue.commands := by simp [earlier]
      exact absurd (List.countP_eq_zero.mp commands other member) (by simp [foreground])
  · intro more
    omega
  · intro share member
    refine ⟨(awaited.forked share member).1, fun more => ?_⟩
    rw [Share.budget_eq_zero others member] at more
    exact absurd more (Nat.lt_irrefl 0)
  · intro outgoing member clears
    exact absurd clears (List.countP_eq_zero.mp messages outgoing member)
  · intro other handling
    exact awaited.handles other (reader ▸ handling)
  · intro holds
    exact absurd held (reader ▸ holds)
  · intro waiting
    refine .inr ⟨message, by rw [sent, List.getLast?_concat], ?_⟩
    have set : dialogue.client.waitingForResponse = true := flag ▸ waiting
    simpa [set] using waits
  · unfold due
    dsimp only
    rw [writer, reader, flag, waits, List.countP_append, commands, messages, held, others]
    cases kind : message.background <;> simp [spent, kind]

/-- A message is read. -/
theorem receives (awaited : dialogue.Awaited mine shares) {client : ClientThreads} {first : Outgoing}
    {later : List Outgoing} (messages : dialogue.messages = first :: later)
    (flag : client.waitingForResponse = dialogue.client.waitingForResponse)
    (sent : client.sent = dialogue.client.sent) (idle : dialogue.client.reader.held = 0)
    (reader : client.reader = .handling first.message)
    (writer : client.writer = dialogue.client.writer) :
    Awaited { dialogue with client, messages := later, lastRead := some first } mine shares := by
  have answers : ∀ outgoing ∈ dialogue.messages, outgoing.message.clearsWait = true →
      ∃ command, outgoing.command = some command ∧ command + 1 = client.sent.length := by
    rw [sent]
    exact awaited.answers
  rw [messages] at answers
  have held : client.reader.held = if first.message.clearsWait then 1 else 0 := by
    rw [reader]
    rfl
  refine ⟨sent.trans awaited.sent, awaited.last, awaited.handler, awaited.serves, awaited.children,
    ?_, fun outgoing member => answers outgoing (List.mem_cons_of_mem _ member), ?_, ?_, ?_, ?_⟩
  · intro share member
    show _ ∧ (_ → _ = client.sent.length)
    rw [sent]
    exact awaited.forked share member
  · intro message handling
    rw [reader] at handling
    exact ⟨first, rfl, ReadThreadPhase.handling.inj handling⟩
  · intro holds
    rw [held] at holds
    have clears : first.message.clearsWait = true := by
      by_contra open_
      exact holds (if_neg open_)
    exact ⟨first, rfl, clears, answers first List.mem_cons_self clears⟩
  · intro waits
    show client.writer.held ≠ 0 ∨ ∃ command, client.sent.getLast? = _ ∧ _
    rw [writer, sent]
    exact awaited.foreground (flag ▸ waits)
  · have bound := awaited.one
    unfold due at bound ⊢
    dsimp only
    rw [messages, List.countP_cons, idle] at bound
    rw [writer, flag, held]
    omega

/-- The wait ends. -/
theorem clears (awaited : dialogue.Awaited mine shares) {client : ClientThreads}
    (flag : client.waitingForResponse = false) (sent : client.sent = dialogue.client.sent)
    (held : dialogue.client.reader.held = 1) (reader : client.reader = .unlocking)
    (writer : client.writer = dialogue.client.writer) :
    Awaited { dialogue with client } mine shares := by
  have bound := awaited.due_le
  refine awaited.client sent (by simp [reader]) (by simp [reader, ReadThreadPhase.held])
    (by simp [flag]) ?_
  unfold due at bound ⊢
  dsimp only
  rw [held] at bound
  rw [writer, reader, flag]
  show _ + _ + _ + _ + _ + 0 ≤ 0
  omega

end Awaited

/-- The client reads the first message on its way, or its step does not depend on the messages. -/
theorem clientNext_cases {dialogue after : Dialogue} {step : ClientStep}
    (stepped : dialogue.clientNext step = some after) :
    (∃ first later client, step = .reader (.receive first.message) ∧
        dialogue.messages = first :: later ∧ dialogue.client.next step = some client ∧
        after = { dialogue with client, messages := later, lastRead := some first }) ∨
      (∀ message, step ≠ .reader (.receive message)) ∧
        ∃ client, dialogue.client.next step = some client ∧
          after = { dialogue with
            client
            commands := dialogue.commands ++ (dialogue.client.writes step).toList } := by
  unfold clientNext at stepped
  split at stepped
  · rename_i message
    split at stepped
    · cases stepped
    · rename_i first later messages
      obtain ⟨same, stepped⟩ := Option.ite_none_right_eq_some.mp stepped
      obtain ⟨client, taken, rfl⟩ := Option.map_eq_some_iff.mp stepped
      exact .inl ⟨first, later, client, by rw [same], messages, taken, rfl⟩
  · rename_i other
    obtain ⟨client, taken, rfl⟩ := Option.map_eq_some_iff.mp stepped
    exact .inr ⟨fun message same => other message same, client, taken, rfl⟩

/-- Every step of the client. -/
theorem Awaited.clientNext {dialogue after : Dialogue} {mine : Nat} {shares : List Share}
    {step : ClientStep} (awaited : dialogue.Awaited mine shares) (patient : dialogue.client.Patient)
    (composed : dialogue.client.Composed) (stepped : dialogue.clientNext step = some after) :
    after.Awaited mine shares := by
  obtain ⟨first, later, client, rfl, messages, taken, rfl⟩ | ⟨other, client, taken, rfl⟩ :=
    clientNext_cases stepped
  · cases ClientThreads.effect_next patient taken with
    | receives flag sent idle reader writer =>
      exact awaited.receives messages flag sent idle reader writer
    | quiet _ _ _ _ _ _ reads => exact absurd rfl (reads _)
  · cases ClientThreads.effect_next patient taken with
    | quiet flag sent reader writer handles silent =>
      have unwritten : dialogue.commands ++ (dialogue.client.writes step).toList =
          dialogue.commands := by
        rw [silent]
        exact List.append_nil _
      rw [unwritten]
      refine awaited.client sent handles (by rw [reader]; exact id) ?_ ?_
      · rw [flag, writer]
        exact awaited.foreground
      · have bound := awaited.one
        unfold due at bound ⊢
        dsimp only
        rw [flag, writer, reader]
        exact bound
    | @marks message clear flag sent reader writer silent =>
      have unwritten : dialogue.commands ++ (dialogue.client.writes (.writer .advance)).toList =
          dialogue.commands := by
        rw [silent]
        exact List.append_nil _
      rw [unwritten]
      have held : client.writer.held = if message.background then 0 else 1 := by
        rw [writer]
        rfl
      refine awaited.client sent (by rw [reader]; exact fun _ => id) (by rw [reader]; exact id) ?_ ?_
      · rw [flag, held]
        intro foreground
        rw [Bool.not_eq_true'] at foreground
        exact .inl (by simp [foreground])
      · have none := awaited.due_zero clear
        unfold due at none ⊢
        dsimp only
        rw [flag, held, reader]
        cases message.background with
        | true =>
          show 0 + _ + _ + _ + _ + _ ≤ 0
          omega
        | false =>
          show 1 + _ + _ + _ + _ + _ ≤ 1
          omega
    | @sends message here flag sent reader writer =>
      have written : dialogue.client.writes (.writer .advance) = some message := by
        unfold ClientThreads.writes
        rw [here]
      rw [written]
      exact awaited.sends composed here flag sent reader writer
    | receives => exact absurd rfl (other _)
    | clears flag sent held reader writer =>
      have unwritten : dialogue.commands ++
          (dialogue.client.writes (.reader .advance)).toList = dialogue.commands :=
        List.append_nil _
      rw [unwritten]
      exact awaited.clears flag sent held reader writer

/-- What a call sends is no more than it costs. -/
theorem countP_sends (answer : CallAnswer) (command : Option Nat) :
    (answer.sends command).countP (·.message.clearsWait) ≤ replyMeter.cost answer.event.1 ∧
      ∀ outgoing ∈ answer.sends command, outgoing.message.clearsWait = true →
        outgoing.command = command ∧ 0 < replyMeter.cost answer.event.1 := by
  unfold CallAnswer.sends
  split
  · cases sent : answer.event.1.message answer.padding with
    | none => simp
    | some message =>
      have cost : message.clearsWait = true → replyMeter.cost answer.event.1 = 1 := fun clears =>
        if_pos ((clearsWait_message sent).mp clears)
      rw [Option.map_some, Option.toList_some]
      constructor
      · rw [List.countP_singleton]
        split
        · rename_i clears
          exact (cost clears).ge
        · exact Nat.zero_le _
      · intro outgoing member clears
        obtain rfl := List.mem_singleton.mp member
        exact ⟨rfl, by rw [cost clears]; exact Nat.one_pos⟩
  · simp

/-- A process of the server goes on: what it has spent is on its way to the client. -/
theorem Awaited.server {dialogue : Dialogue} {mine left : Nat} {shares others : List Share}
    (awaited : dialogue.Awaited mine shares) {handler : HandlerPlace} {children : List TransferChild}
    {new : List Outgoing} (within : handler.Within left) (serves : 0 < left → 0 < mine)
    (same : others.map Share.child = children)
    (forked : ∀ share ∈ others, share.child.script.Within replyMeter share.budget ∧
      (0 < share.budget → share.child.command + 1 = dialogue.client.sent.length))
    (answers : ∀ outgoing ∈ new, outgoing.message.clearsWait = true → dialogue.Answers outgoing)
    (cost : left + Share.total others + new.countP (·.message.clearsWait) ≤
      mine + Share.total shares) :
    Awaited { dialogue with handler, children, messages := dialogue.messages ++ new } left others := by
  refine ⟨awaited.sent, awaited.last, within, fun more => awaited.serves (serves more), same, forked,
    fun outgoing member => ?_, awaited.handles, awaited.held, awaited.foreground, ?_⟩
  · rcases List.mem_append.mp member with earlier | last
    · exact awaited.answers outgoing earlier
    · exact answers outgoing last
  · have bound := awaited.one
    unfold due at bound ⊢
    dsimp only
    rw [List.countP_append]
    omega

/-- A call of the handler. -/
theorem Awaited.handlerNext {dialogue after : Dialogue} {mine : Nat} {shares : List Share}
    {answer : CallAnswer} (awaited : dialogue.Awaited mine shares)
    (stepped : dialogue.handlerNext answer = some after) :
    ∃ mine shares, after.Awaited mine shares := by
  have within := awaited.handler
  unfold Dialogue.handlerNext at stepped
  cases handler : dialogue.handler with
  | noticing state script =>
    rw [handler] at stepped within
    obtain ⟨rest, resumed, rfl⟩ := Option.map_eq_some_iff.mp stepped
    obtain ⟨within, rfl⟩ := within
    obtain ⟨left, theirs, spent, goes, -⟩ := within.resume resumed
    obtain ⟨sent, answers⟩ := countP_sends answer none
    have bound : replyMeter.cost answer.event.1 + (left + theirs) ≤ 0 := spent
    refine ⟨0, shares, awaited.server ⟨goes.mono (by omega), rfl⟩ id awaited.children awaited.forked
      (fun outgoing member clears => ?_) (by omega)⟩
    have cost := (answers outgoing member clears).2
    omega
  | serving script =>
    rw [handler] at stepped within
    obtain ⟨-, stepped⟩ := Option.ite_none_right_eq_some.mp stepped
    obtain ⟨rest, resumed, rfl⟩ := Option.map_eq_some_iff.mp stepped
    obtain ⟨left, theirs, spent, goes, copies⟩ := Script.Within.resume within resumed
    have bound : replyMeter.cost answer.event.1 + (left + theirs) ≤ mine := spent
    obtain ⟨sent, answers⟩ := countP_sends answer (some (dialogue.taken.length - 1))
    have latest : 0 < mine → dialogue.taken.length - 1 + 1 = dialogue.client.sent.length := by
      intro more
      obtain ⟨read, some_⟩ := awaited.serves more
      have positive := List.length_pos_iff.mpr some_
      rw [awaited.sent, read, List.append_nil]
      omega
    have answering : ∀ outgoing ∈ answer.sends (some (dialogue.taken.length - 1)),
        outgoing.message.clearsWait = true → dialogue.Answers outgoing := by
      intro outgoing member clears
      obtain ⟨same, cost⟩ := answers outgoing member clears
      exact ⟨_, same, latest (by omega)⟩
    dsimp only
    cases copied : (forkCopy answer.event.1 answer.event.2).bind fun other =>
        script.resume ⟨answer.event.1, other⟩ with
    | none =>
      refine ⟨left, shares, awaited.server goes (fun _ => by omega) ?_ awaited.forked answering
        (by omega)⟩
      exact awaited.children.trans (List.append_nil _).symm
    | some copy =>
      obtain ⟨other, splits, resumed⟩ := Option.bind_eq_some_iff.mp copied
      let share : Share := ⟨⟨dialogue.taken.length - 1, copy⟩, theirs⟩
      refine ⟨left, shares ++ [share], awaited.server goes (fun _ => by omega) ?_ ?_ answering ?_⟩
      · rw [List.map_append, awaited.children]
        rfl
      · intro known member
        rcases List.mem_append.mp member with earlier | last
        · exact awaited.forked known earlier
        · obtain rfl := List.mem_singleton.mp last
          refine ⟨copies other copy splits resumed, fun more => latest ?_⟩
          have more : 0 < theirs := more
          omega
      · have total : Share.total (shares ++ [share]) = Share.total shares + theirs := by
          unfold Share.total
          rw [List.map_append, List.sum_append]
          rfl
        omega

/-- A call of a process that the handler has forked. -/
theorem Awaited.childNext {dialogue after : Dialogue} {mine index : Nat} {shares : List Share}
    {answer : CallAnswer} (awaited : dialogue.Awaited mine shares)
    (stepped : dialogue.childNext index answer = some after) :
    ∃ mine shares, after.Awaited mine shares := by
  obtain ⟨child, found, stepped⟩ := Option.bind_eq_some_iff.mp stepped
  obtain ⟨rest, resumed, rfl⟩ := Option.map_eq_some_iff.mp stepped
  rw [← awaited.children, List.getElem?_map] at found
  obtain ⟨share, held, rfl⟩ := Option.map_eq_some_iff.mp found
  obtain ⟨within, latest⟩ := awaited.forked share (List.mem_of_getElem? held)
  obtain ⟨left, theirs, spent, goes, -⟩ := within.resume resumed
  have bound : replyMeter.cost answer.event.1 + (left + theirs) ≤ share.budget := spent
  obtain ⟨sent, answers⟩ := countP_sends answer (some share.child.command)
  let after : Share := ⟨{ share.child with script := rest }, left⟩
  have total := Share.total_set held after
  refine ⟨mine, shares.set index after, awaited.server awaited.handler id ?_ ?_ ?_ ?_⟩
  · rw [List.map_set, awaited.children]
  · intro known member
    rcases List.mem_or_eq_of_mem_set member with earlier | rfl
    · exact awaited.forked known earlier
    · refine ⟨goes, fun more => latest ?_⟩
      have more : 0 < left := more
      omega
  · intro outgoing member clears
    obtain ⟨same, cost⟩ := answers outgoing member clears
    exact ⟨_, same, latest (by omega)⟩
  · have left : after.budget = left := rfl
    omega

/-- Before the handler reads a command that the client runs in the background: the server does so,
too. -/
def Understood (dialogue : Dialogue) (step : DialogueStep) : Prop :=
  step = .read → ∀ (line : CommandLine) (message : Received) (later : List Received)
    (state : HandlerState), dialogue.commands = message :: later → line.Makes message →
      dialogue.handler = .noticing state (.pure ()) → str " -b" <:+: line.text →
        line.RunsBehind state.session

/-- The words that the handler finds in a message made of a line. -/
theorem args_of_makes {line : CommandLine} {message : Received} (makes : line.Makes message)
    {saved : Option Cursor} {argv : List Token} {final : Cursor}
    (split : tokenizeCommand (payload message) saved = some (argv, final)) :
    argv.map Token.text = line.arguments := by
  have words := tokenizeLoop_words maxArgs ⟨message.2 ++ [0], 0⟩
  unfold payload at split
  rw [if_neg makes.filled] at split
  have found : tokenizeLoop maxArgs (strtok 32 ⟨message.2 ++ [0], 0⟩) = (argv, final) :=
    Option.some.inj split
  rw [found] at words
  rw [words]
  unfold Cursor.text CommandLine.arguments
  rw [List.drop_zero, cString_append_zero, makes.parts.1]

/-- `readAll` of the handler returns only where the handler waits for it. -/
theorem input_eq_some {dialogue after : Dialogue} {pid : UInt32} {brought : ClientInput} :
    dialogue.input pid brought = some after ↔ ∃ state, dialogue.handler = .noticing state (.pure ()) ∧
      after = { dialogue with handler := .serving (handleInput pid state brought) } := by
  unfold input
  constructor
  · intro stepped
    split at stepped
    · rename_i state value here
      exact ⟨state, here, (Option.some.inj stepped).symm⟩
    · cases stepped
  · rintro ⟨state, here, rfl⟩
    rw [here]

/-- The handler goes on with something that costs nothing. -/
theorem Awaited.place {dialogue : Dialogue} {mine : Nat} {shares : List Share}
    (awaited : dialogue.Awaited mine shares) {handler : HandlerPlace} (within : handler.Within 0) :
    Awaited { dialogue with handler } 0 shares := by
  have goes : Awaited { dialogue with
      handler
      children := dialogue.children
      messages := dialogue.messages ++ [] } 0 shares :=
    awaited.server within (by simp) awaited.children awaited.forked (by simp) (by simp)
  rwa [List.append_nil] at goes

/-- The handler reads a command. -/
theorem Awaited.read {dialogue after : Dialogue} {mine : Nat} {shares : List Share} {pid : UInt32}
    (awaited : dialogue.Awaited mine shares) (composed : dialogue.client.Composed)
    {message : Received} {later : List Received} (commands : dialogue.commands = message :: later)
    (understood : dialogue.Understood .read) (announced : message.Announced)
    (stepped : Dialogue.input pid { dialogue with
      commands := later
      taken := dialogue.taken ++ [message] } (.message message announced) = some after) :
    ∃ mine shares, after.Awaited mine shares := by
  obtain ⟨state, handler, rfl⟩ := input_eq_some.mp stepped
  have handler : dialogue.handler = .noticing state (.pure ()) := handler
  have read : dialogue.client.sent = dialogue.taken ++ message :: later := by
    rw [awaited.sent, commands]
  obtain ⟨line, makes⟩ := composed.sent message (by rw [read]; simp)
  have within := awaited.handler
  rw [handler] at within
  obtain ⟨-, rfl⟩ := within
  have bound := awaited.one
  unfold due at bound
  rw [commands, List.countP_cons] at bound
  refine ⟨if message.background then 0 else 1, shares, ?_, ?_, ?_, ?_, awaited.children,
    awaited.forked, awaited.answers, awaited.handles, awaited.held, awaited.foreground, ?_⟩
  · show dialogue.client.sent = dialogue.taken ++ [message] ++ later
    rw [read, List.append_assoc]
    rfl
  · intro front other back split foreground
    refine awaited.last (message :: front) other back ?_ foreground
    rw [commands, List.cons_append]
    exact congrArg _ split
  · refine within_handleInput pid state message announced fun call session found => ?_
    cases kind : message.background with
    | false => exact .inr (Nat.le_refl 1)
    | true =>
      obtain ⟨final, split⟩ := found
      refine .inl ((inBackground_iff (args_of_makes makes split)).mpr ?_)
      rw [session]
      exact understood rfl line message later state commands makes handler (makes.parts.2.mp kind)
  · intro foreground
    have kind : message.background = false := by
      by_contra marked
      rw [if_pos (by simpa using marked)] at foreground
      exact absurd foreground (Nat.lt_irrefl 0)
    exact ⟨awaited.last [] message later commands kind, by simp⟩
  · unfold due
    dsimp only
    cases kind : message.background with
    | false =>
      rw [kind] at bound
      simp only [Bool.not_false, if_true, Bool.false_eq_true, if_false] at bound ⊢
      omega
    | true =>
      rw [kind] at bound
      simp only [Bool.not_true, Bool.false_eq_true, if_false, if_true] at bound ⊢
      omega

/-- The invariant of a dialogue in which every command is understood. -/
structure Sound (dialogue : Dialogue) : Prop where
  /-- The lock of the client. -/
  locked : dialogue.client.Locked
  /-- Its wait. -/
  patient : dialogue.client.Patient
  /-- Its commands. -/
  composed : dialogue.client.Composed
  /-- What is due. -/
  awaited : ∃ mine shares, dialogue.Awaited mine shares

/-- At the start nothing is due. -/
theorem sound_start (behind : Nat → UInt8) : (start behind).Sound where
  locked := ClientThreads.locked_start
  patient := ClientThreads.patient_start
  composed := ClientThreads.composed_start
  awaited := by
    refine ⟨0, [], rfl, ?_, ⟨within_noticeSignal _ _, rfl⟩, by simp, rfl, by simp, ?_, ?_, ?_, ?_, ?_⟩
    · intro front message back split
      cases front <;> cases split
    · intro outgoing member
      cases member
    · intro message handling
      cases handling
    · intro holds
      exact absurd rfl holds
    · intro waits
      cases waits
    · exact Nat.le_refl 0

/-- A step of the client is one of the threads' own. -/
theorem client_clientNext {dialogue after : Dialogue} {step : ClientStep}
    (stepped : dialogue.clientNext step = some after) :
    dialogue.client.next step = some after.client := by
  obtain ⟨-, -, client, -, -, taken, rfl⟩ | ⟨-, client, taken, rfl⟩ := clientNext_cases stepped
  · exact taken
  · exact taken

/-- A call of the handler leaves the client alone. -/
theorem client_handlerNext {dialogue after : Dialogue} {answer : CallAnswer}
    (stepped : dialogue.handlerNext answer = some after) : after.client = dialogue.client := by
  unfold handlerNext at stepped
  split at stepped
  · obtain ⟨rest, -, rfl⟩ := Option.map_eq_some_iff.mp stepped
    rfl
  · obtain ⟨-, stepped⟩ := Option.ite_none_right_eq_some.mp stepped
    obtain ⟨rest, -, rfl⟩ := Option.map_eq_some_iff.mp stepped
    rfl

/-- So does a call of a process that it has forked. -/
theorem client_childNext {dialogue after : Dialogue} {index : Nat} {answer : CallAnswer}
    (stepped : dialogue.childNext index answer = some after) : after.client = dialogue.client := by
  obtain ⟨child, -, stepped⟩ := Option.bind_eq_some_iff.mp stepped
  obtain ⟨rest, -, rfl⟩ := Option.map_eq_some_iff.mp stepped
  rfl

/-- The client makes a step of its own, or the server leaves it alone. -/
theorem client_next {dialogue after : Dialogue} {pid : UInt32} {step : DialogueStep}
    (stepped : dialogue.next pid step = some after) :
    (∃ own, step = .client own ∧ dialogue.client.next own = some after.client) ∨
      after.client = dialogue.client := by
  cases step with
  | client own => exact .inl ⟨own, rfl, client_clientNext stepped⟩
  | read =>
    unfold Dialogue.next at stepped
    dsimp only at stepped
    split at stepped
    · cases stepped
    · split at stepped
      · obtain ⟨state, -, rfl⟩ := input_eq_some.mp stepped
        exact .inr rfl
      · cases stepped
  | interrupt | close =>
    obtain ⟨state, -, rfl⟩ := input_eq_some.mp stepped
    exact .inr rfl
  | loop =>
    unfold Dialogue.next at stepped
    dsimp only at stepped
    split at stepped
    · obtain rfl := Option.some.inj stepped
      exact .inr rfl
    · cases stepped
  | call answer => exact .inr (client_handlerNext stepped)
  | childCall index answer => exact .inr (client_childNext stepped)

/-- Every step leaves at most one reply due. -/
theorem Awaited.next {dialogue after : Dialogue} {mine : Nat} {shares : List Share} {pid : UInt32}
    {step : DialogueStep} (awaited : dialogue.Awaited mine shares)
    (patient : dialogue.client.Patient) (composed : dialogue.client.Composed)
    (understood : dialogue.Understood step) (stepped : dialogue.next pid step = some after) :
    ∃ mine shares, after.Awaited mine shares := by
  cases step with
  | client step => exact ⟨mine, shares, awaited.clientNext patient composed stepped⟩
  | read =>
    unfold Dialogue.next at stepped
    dsimp only at stepped
    split at stepped
    · cases stepped
    · rename_i message later commands
      split at stepped
      · rename_i announced
        exact awaited.read composed commands understood announced stepped
      · cases stepped
  | interrupt =>
    obtain ⟨state, handler, rfl⟩ := input_eq_some.mp stepped
    exact ⟨0, shares, awaited.place (within_handleInput_none pid state 0).1⟩
  | close =>
    obtain ⟨state, handler, rfl⟩ := input_eq_some.mp stepped
    exact ⟨0, shares, awaited.place (within_handleInput_none pid state 0).2⟩
  | loop =>
    unfold Dialogue.next at stepped
    dsimp only at stepped
    split at stepped
    · obtain rfl := Option.some.inj stepped
      exact ⟨0, shares, awaited.place ⟨within_noticeSignal _ _, rfl⟩⟩
    · cases stepped
  | call answer => exact awaited.handlerNext stepped
  | childCall index answer => exact awaited.childNext stepped

/-- Every step keeps the invariant. -/
theorem Sound.next {dialogue after : Dialogue} {pid : UInt32} {step : DialogueStep}
    (sound : dialogue.Sound) (understood : dialogue.Understood step)
    (stepped : dialogue.next pid step = some after) : after.Sound := by
  obtain ⟨mine, shares, awaited⟩ := sound.awaited
  have due := awaited.next sound.patient sound.composed understood stepped
  rcases client_next stepped with ⟨own, -, taken⟩ | same
  · exact ⟨sound.locked.next taken, sound.patient.next sound.locked taken,
      sound.composed.next sound.patient taken, due⟩
  · exact ⟨same ▸ sound.locked, same ▸ sound.patient, same ▸ sound.composed, due⟩

/-- The invariant holds in every run in which every command is understood. -/
theorem sound_run {pid : UInt32} {behind : Nat → UInt8} {schedule : List DialogueStep}
    {dialogue : Dialogue} (understood : StepsMeet (next pid) Understood (start behind) schedule)
    (run : runFrom (next pid) (start behind) schedule = some dialogue) : dialogue.Sound :=
  run_invariant_of_meets Sound (fun _ _ _ sound understood stepped => sound.next understood stepped)
    (sound_start behind) understood run

/-- In every run in which the server runs in the background what the client does, whatever the threads
and processes do in whatever order, the client's wait is ended only by a reply to the last command sent,
one in the foreground, which is the only such reply: none other is on its way. Messages and commands
pass whole and in order here, as they do on a socket on which no sends overlap and no read is cut off. -/
theorem reply_ends_wait (pid : UInt32) (behind : Nat → UInt8) (schedule : List DialogueStep)
    (dialogue : Dialogue) (understood : StepsMeet (next pid) Understood (start behind) schedule)
    (run : runFrom (next pid) (start behind) schedule = some dialogue) :
    ∀ step after, dialogue.next pid step = some after →
      dialogue.client.waitingForResponse = true → after.client.waitingForResponse = false →
        ∃ reply number command, dialogue.lastRead = some reply ∧ reply.command = some number ∧
          reply.message.clearsWait = true ∧ dialogue.client.sent[number]? = some command ∧
          command.background = false ∧ number + 1 = dialogue.client.sent.length ∧
          ∀ other ∈ dialogue.messages, other.message.clearsWait = false := by
  have sound := sound_run understood run
  obtain ⟨mine, shares, awaited⟩ := sound.awaited
  intro step after stepped set clear
  have bound := awaited.due_le
  have held : dialogue.client.reader.held = 1 := by
    rcases client_next stepped with ⟨own, -, taken⟩ | same
    · cases ClientThreads.effect_next sound.patient taken with
      | clears _ _ held => exact held
      | quiet flag | sends _ flag | receives flag =>
        rw [set, clear] at flag
        cases flag
      | marks unset =>
        rw [set] at unset
        cases unset
    · rw [same, set] at clear
      cases clear
  obtain ⟨reply, read, clears, number, answers, latest⟩ := awaited.held (by omega)
  unfold due at bound
  rw [held] at bound
  obtain ⟨command, last, foreground⟩ :=
    (awaited.foreground set).resolve_left (fun writes => writes (by omega))
  refine ⟨reply, number, command, read, answers, clears, ?_, foreground, latest, ?_⟩
  · rw [List.getLast?_eq_getElem?] at last
    rw [← last]
    congr 1
    omega
  · intro other member
    have none : dialogue.messages.countP (·.message.clearsWait) = 0 := by omega
    simpa using List.countP_eq_zero.mp none other member

/-- The command read next is one of the foreground. -/
def readsForeground (dialogue : Dialogue) : DialogueStep → Bool
  | .read => dialogue.commands.head?.all (!·.background)
  | _ => true

/-- A call that is answered, with its message written. -/
def answered (op : HandlerOp) (answer : op.Answer) : CallAnswer := ⟨⟨op, answer⟩, true, .zero 3⟩

/-- The client sends a command, which the handler reads and refuses; the client reads the refusal. -/
def refusedRun : List DialogueStep :=
  List.replicate 4 (.client (.writer .advance)) ++
    [.client (.writer (.type (some ClientThreads.lsLine) (.zero 3))),
      .client (.writer .advance), .client (.writer .advance),
      .call (answered .signalReceived false), .read,
      .call (answered (.malloc 6) (some fun _ => 0)),
      .call (answered (.sendProtocolMsg .text (-1) (str "Log in first")) ()),
      .client (.reader .advance),
      .client (.reader (.receive (textMessage .text (-1) (str "Log in first") 0 (.zero 3)))),
      .client (.reader (.handle true)), .client (.reader .advance)]

/-- The refusal ends the wait. -/
theorem reply_ends_wait_refused : ∃ dialogue reply,
    runFrom (next 7) (start fun _ => 0) refusedRun = some dialogue ∧
      dialogue.lastRead = some reply ∧ reply.command = some 0 ∧
        dialogue.client.sent.length = 1 := by
  have done : (runFrom (next 7) (start fun _ => 0) refusedRun).isSome = true := by decide +kernel
  have run : runFrom (next 7) (start fun _ => 0) refusedRun =
      some ((runFrom (next 7) (start fun _ => 0) refusedRun).get done) := by simp
  have calm : StepsMeet (next 7) (fun dialogue step => readsForeground dialogue step = true)
      (start fun _ => 0) refusedRun := by decide +kernel
  have understood : StepsMeet (next 7) Understood (start fun _ => 0) refusedRun := by
    refine calm.of_invariant (fun _ => True) (fun _ _ _ _ _ _ => trivial)
      (fun dialogue step _ foreground => ?_) trivial
    rintro rfl line message later state commands makes - marked
    unfold readsForeground at foreground
    rw [commands] at foreground
    simp [makes.parts.2.mpr marked] at foreground
  let dialogue := (runFrom (next 7) (start fun _ => 0) refusedRun).get done
  have goes : (dialogue.next 7 (.client (.reader .advance))).isSome = true := rfl
  have stepped : dialogue.next 7 (.client (.reader .advance)) =
      some ((dialogue.next 7 (.client (.reader .advance))).get goes) := by simp
  have one : dialogue.client.sent.length = 1 := rfl
  obtain ⟨reply, number, command, read, answers, -, -, -, latest, -⟩ :=
    reply_ends_wait 7 (fun _ => 0) refusedRun dialogue understood run _ _ stepped rfl rfl
  have first : number = 0 := by omega
  exact ⟨dialogue, reply, run, read, first ▸ answers, one⟩

end Dialogue

end FileServer
