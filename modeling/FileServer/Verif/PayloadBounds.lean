import FileServer.Model.HandleClient
import FileServer.Verif.Tokenize

/-!
# Bounds of a payload

A message whose length wraps the size of its block, a write command that starts with a space,
or one whose last argument ends with the payload makes the handler leave its payload. Every
other message is handled inside the bytes received.
-/
namespace FileServer

open FileServer.Lib

/-- What the handler of a session reads and writes for a message lies in the payload: its block
has room for the terminator, the arguments end in the block, and the data of a write command
are bytes received. -/
def InBounds (session : ClientSession) (message : Received) : Prop :=
  message.1.payloadLength.toNat < (payloadSize message.1).toNat ∧
    ∀ before argv saved,
      tokenizeCommand (some ⟨message.2 ++ [0], 0⟩) before = some (argv, saved) →
        (∀ token ∈ argv, token.finish ≤ message.1.payloadLength.toNat ∧
          cString (saved.memory.drop token.start) = token.text) ∧
        (session.state = .loggedIn → (argv.map Token.text).head? = some (str "write") →
          cmdEnd argv - (argv.head?.map Token.start).getD 0 ≤ message.1.payloadLength.toNat ∧
            cmdEnd argv + (dataLen message.1.payloadLength argv).toNat ≤
              message.1.payloadLength.toNat)

/-- The payload starts with a word, and something follows its last argument. -/
def WriteFits (payload : List UInt8) : Prop :=
  payload.head? ≠ some 32 ∧
    (0 ∈ payload ∨ payload.getLast? = some 32 ∨ maxArgs < (words 32 payload).length)

/-- The block of a payload has room for the terminator unless its size wraps. -/
theorem payloadLength_lt_payloadSize (hdr : MsgHeader) :
    hdr.payloadLength.toNat < (payloadSize hdr).toNat ↔ hdr.payloadLength.toNat < 2 ^ 32 - 1 := by
  have bound := hdr.payloadLength.toNat_lt
  rw [payloadSize, UInt32.toNat_add, UInt32.toNat_one]
  omega

/-- The data of a write command are bytes received exactly when the first argument starts the
payload and the last one ends before it. -/
theorem data_inBounds_iff {length : UInt32} {argv : List Token} {first last : Token}
    (head : argv.head? = some first) (end_ : argv.getLast? = some last)
    (order : first.start ≤ last.finish) (inside : last.finish ≤ length.toNat)
    (fits : length.toNat < 2 ^ 32 - 1) :
    (cmdEnd argv - (argv.head?.map Token.start).getD 0 ≤ length.toNat ∧
        cmdEnd argv + (dataLen length argv).toNat ≤ length.toNat) ↔
      first.start = 0 ∧ last.finish < length.toNat := by
  have size : (UInt32.ofNat (last.finish + 1 - first.start)).toNat =
      last.finish + 1 - first.start := by
    rw [UInt32.toNat_ofNat']
    omega
  have cut : (length - UInt32.ofNat (last.finish + 1 - first.start)).toNat =
      (2 ^ 32 - (last.finish + 1 - first.start) + length.toNat) % 2 ^ 32 := by
    rw [UInt32.toNat_sub, size]
  simp only [cmdEnd, dataLen, head, end_, Option.map_some, Option.getD_some, cut]
  omega

/-- The last argument of a payload ends before the payload does exactly when something follows
it. -/
theorem finish_lt_iff {payload : List UInt8} {last : Token}
    (ends : (tokenizeLoop maxArgs (strtok 32 ⟨payload ++ [0], 0⟩)).1.getLast? = some last) :
    last.finish < payload.length ↔
      0 ∈ payload ∨ payload.getLast? = some 32 ∨ maxArgs < (words 32 payload).length := by
  have text : Cursor.text ⟨payload ++ [0], 0⟩ = cString payload := cString_append_zero payload
  have whole := tokenizeLoop_last ends
  have inside := (tokenizeLoop_token (List.mem_of_getLast? ends)).2.1
  simp only [Cursor.terminator, text, Nat.zero_add] at whole inside
  have short := length_cString_le payload
  by_cases ended : (0 : UInt8) ∈ payload
  · have cut : (cString payload).length ≠ payload.length := fun same =>
      length_cString_eq.mp same ended
    exact iff_of_true (by omega) (.inl ended)
  · rw [cString_of_nulFree ended] at whole inside
    constructor
    · intro before
      by_contra none
      simp only [not_or, not_lt] at none
      exact absurd (whole.mpr none.2) (by omega)
    · intro follows
      refine lt_of_le_of_ne inside fun same => ?_
      obtain ⟨open_, room⟩ := whole.mp same
      rcases follows with absurd_ | space | more
      · exact ended absurd_
      · exact open_ space
      · omega

/-- The data of a write command are bytes received exactly when the payload starts with the
command and something follows the last argument. -/
theorem write_inBounds_iff {payload : List UInt8} {length : UInt32}
    (fits : length.toNat < 2 ^ 32 - 1) (announced : length.toNat = payload.length)
    (write : (words 32 (cString payload)).head? = some (str "write")) :
    (cmdEnd (tokenizeLoop maxArgs (strtok 32 ⟨payload ++ [0], 0⟩)).1 -
          ((tokenizeLoop maxArgs (strtok 32 ⟨payload ++ [0], 0⟩)).1.head?.map Token.start).getD 0 ≤
            length.toNat ∧
        cmdEnd (tokenizeLoop maxArgs (strtok 32 ⟨payload ++ [0], 0⟩)).1 +
          (dataLen length (tokenizeLoop maxArgs (strtok 32 ⟨payload ++ [0], 0⟩)).1).toNat ≤
            length.toNat) ↔ WriteFits payload := by
  have text : Cursor.text ⟨payload ++ [0], 0⟩ = cString payload := cString_append_zero payload
  have texts := tokenizeLoop_words maxArgs ⟨payload ++ [0], 0⟩
  rw [text] at texts
  have start : (cString payload).head? = payload.head? := by
    cases payload with
    | nil => rfl
    | cons byte rest =>
      by_cases zero : byte = 0
      · simp [cString, zero] at write
      · simp [cString, zero]
  cases tokens : (tokenizeLoop maxArgs (strtok 32 ⟨payload ++ [0], 0⟩)).1 with
  | nil =>
    rw [tokens, List.map_nil, eq_comm, List.take_eq_nil_iff] at texts
    rw [texts.resolve_left (by decide)] at write
    cases write
  | cons first later =>
    obtain ⟨order, zero⟩ := tokenizeLoop_first tokens
    obtain ⟨last, ends⟩ : ∃ last, (first :: later).getLast? = some last :=
      ⟨_, List.getLast?_eq_some_getLast (List.cons_ne_nil _ _)⟩
    have finish := finish_lt_iff (tokens.symm ▸ ends)
    have inside := (tokenizeLoop_token (tokens.symm ▸ List.mem_of_getLast? ends)).2.1
    have short := length_cString_le payload
    simp only [Cursor.terminator, text, start] at zero inside
    rw [data_inBounds_iff rfl ends (order last (List.mem_of_getLast? ends)) (by omega) fits, zero,
      announced, finish, WriteFits]

/-- A message stays in its payload exactly when its length leaves room for the terminator and,
for a write command of a session logged in, the payload starts with the command and something
follows the last argument. -/
theorem inBounds_iff (session : ClientSession) (message : Received)
    (announced : message.Announced) :
    InBounds session message ↔ message.1.payloadLength.toNat < 2 ^ 32 - 1 ∧
      (session.state = .loggedIn →
        (words 32 (cString message.2)).head? = some (str "write") → WriteFits message.2) := by
  obtain ⟨hdr, payload⟩ := message
  simp only [Received.Announced] at announced
  rw [InBounds, payloadLength_lt_payloadSize]
  refine and_congr_right fun fits => ?_
  have text : Cursor.text ⟨payload ++ [0], 0⟩ = cString payload := cString_append_zero payload
  have texts := tokenizeLoop_words maxArgs ⟨payload ++ [0], 0⟩
  rw [text] at texts
  -- the arguments do not depend on what an earlier call has left
  have split : ∀ before, tokenizeCommand (some ⟨payload ++ [0], 0⟩) before =
      some (tokenizeLoop maxArgs (strtok 32 ⟨payload ++ [0], 0⟩)) := fun _ => rfl
  have inside : ∀ token ∈ (tokenizeLoop maxArgs (strtok 32 ⟨payload ++ [0], 0⟩)).1,
      token.finish ≤ hdr.payloadLength.toNat ∧
        cString ((tokenizeLoop maxArgs (strtok 32 ⟨payload ++ [0], 0⟩)).2.memory.drop
          token.start) = token.text := by
    intro token member
    obtain ⟨-, finish, -, -, read⟩ := tokenizeLoop_token member
    refine ⟨?_, read⟩
    have short := length_cString_le payload
    simp only [Cursor.terminator, text] at finish
    omega
  have command : ((tokenizeLoop maxArgs (strtok 32 ⟨payload ++ [0], 0⟩)).1.map Token.text).head? =
      (words 32 (cString payload)).head? := by
    rw [texts]
    cases words 32 (cString payload) <;> rfl
  have bounds := write_inBounds_iff fits announced
  constructor
  · intro all loggedIn write
    exact (bounds write).mp ((all none _ _ (split none)).2 loggedIn (command.trans write))
  · intro follows before argv saved same
    have result := Option.some.inj ((split before).symm.trans same)
    rw [result] at inside bounds command
    exact ⟨inside, fun loggedIn write =>
      (bounds (command.symm.trans write)).mpr (follows loggedIn (command.symm.trans write))⟩

/-- A session logged in. -/
def loggedInSession : ClientSession := { ClientSession.zero with state := .loggedIn }

/-- A write command as the client sends it, with five bytes of data. -/
def writeCommand : Received :=
  (⟨.writecmd, 0, 13, 0, .zero 3⟩, str "write f" ++ [0] ++ str "hello")

/-- The command of the client stays in its payload. -/
theorem inBounds_writeCommand : InBounds loggedInSession writeCommand :=
  (inBounds_iff loggedInSession writeCommand (by decide)).mpr ⟨by decide, fun _ _ => by
    constructor <;> decide +kernel⟩

/-- A write command without a terminator. -/
def unterminatedWrite : Received := (⟨.writecmd, 0, 7, 0, .zero 3⟩, str "write f")

/-- The data of a write command without a terminator start behind the payload. -/
theorem not_inBounds_unterminatedWrite : ¬ InBounds loggedInSession unterminatedWrite := by
  rintro ⟨-, inside⟩
  have data := (inside none _ _ rfl).2 rfl (by decide +kernel)
  revert data
  decide +kernel

end FileServer
