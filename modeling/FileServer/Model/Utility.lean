import FileServer.Lib.CString
import FileServer.Lib.Channel
import Mathlib.Tactic.IntervalCases

/-!
# Declarations shared by client and server

The constants, the message header and the message loops of `common/utility.h` and
`common/utility.c`. `readAll` reads a block of exact size with as many `read` calls as it
takes, so a loop over `readAll` is a reader; the loops of both programs read a header and
then, when it announces one, a payload. At the end the check of user names of `server/utils/utils.c`.
-/
namespace FileServer

open FileServer.Lib

/-- `ABS_PATH`. -/
abbrev absPath : Nat := 1024
/-- `MAXARGS`. -/
abbrev maxArgs : Nat := 5
/-- `MAX_USERNAME_LEN`. -/
abbrev maxUsernameLen : Nat := 20
/-- `MAX_USERS`. -/
abbrev maxUsers : Nat := 20
/-- `MAX_TRANSFERS`. -/
abbrev maxTransfers : Nat := 20
/-- `FILENAME_SIZE`. -/
abbrev filenameSize : Nat := 256

/-- `msg_type`. An object of the type can hold any word a peer has sent. -/
inductive MsgType
  | text
  | lsres
  | cmdreq
  | readcmd
  | writecmd
  | background
  | downloadRes
  | uploadRes
  /-- A word that is the value of no enumerator. -/
  | other (word : { word : UInt32 // 8 ≤ word.toNat })
deriving DecidableEq

namespace MsgType

/-- The stored word. -/
def toWord : MsgType → UInt32
  | text => 0
  | lsres => 1
  | cmdreq => 2
  | readcmd => 3
  | writecmd => 4
  | background => 5
  | downloadRes => 6
  | uploadRes => 7
  | other word => word.val

/-- The value of a stored word. -/
def ofWord (word : UInt32) : MsgType :=
  if large : 8 ≤ word.toNat then .other ⟨word, large⟩
  else match word.toNat with
    | 0 => text
    | 1 => lsres
    | 2 => cmdreq
    | 3 => readcmd
    | 4 => writecmd
    | 5 => background
    | 6 => downloadRes
    | _ => uploadRes

/-- A stored value is read back. -/
theorem ofWord_toWord (type : MsgType) : ofWord type.toWord = type := by
  cases type with
  | other word => simp [toWord, ofWord, word.property]
  | _ => rfl

/-- A word read as a value is stored as the same word. -/
theorem toWord_ofWord (word : UInt32) : (ofWord word).toWord = word := by
  by_cases large : 8 ≤ word.toNat
  · simp [ofWord, large, toWord]
  · obtain ⟨value, bound, rfl⟩ : ∃ value, value < 8 ∧ UInt32.ofNat value = word :=
      ⟨word.toNat, by omega, UInt32.ofNat_toNat⟩
    interval_cases value <;> rfl

/-- Memory image of the enumeration. -/
def layout : Layout MsgType := Layout.word32.map ofWord toWord ofWord_toWord toWord_ofWord

end MsgType

/-- `msg_header`, with the three bytes that align its end. -/
structure MsgHeader where
  /-- Kind of message. -/
  type : MsgType
  /-- Zero on success; error codes are negative numbers stored as words. -/
  status : UInt32
  /-- Number of payload bytes that follow. -/
  payloadLength : UInt32
  /-- Whether the message belongs to a background operation. -/
  isBackground : UInt8
  /-- Indeterminate bytes. -/
  padding : CharArray 3
deriving DecidableEq

namespace MsgHeader

/-- Memory image of the structure. -/
def layout : Layout MsgHeader :=
  (MsgType.layout.pair (Layout.word32.pair (Layout.word32.pair
    (Layout.byte.pair (CharArray.layout 3))))).map
    (fun fields => ⟨fields.1, fields.2.1, fields.2.2.1, fields.2.2.2.1, fields.2.2.2.2⟩)
    (fun header => (header.type, header.status, header.payloadLength, header.isBackground,
      header.padding))
    (fun _ => rfl) (fun _ => rfl)

/-- `sizeof(msg_header)`. -/
theorem size_layout : layout.size = 16 := rfl

end MsgHeader

/-- `FileEntry`, with the five bytes that align its last field. -/
structure FileEntry where
  /-- Name of the entry. -/
  name : CharArray 56
  /-- Type and permissions as text. -/
  perms : CharArray 11
  /-- Bytes cleared by `memset`. -/
  padding : CharArray 5
  /-- Size of the file. -/
  size : UInt64
deriving DecidableEq

/-- Memory image of the structure. -/
def FileEntry.layout : Layout FileEntry :=
  ((CharArray.layout 56).pair ((CharArray.layout 11).pair ((CharArray.layout 5).pair
    Layout.word64))).map
    (fun fields => ⟨fields.1, fields.2.1, fields.2.2.1, fields.2.2.2⟩)
    (fun entry => (entry.name, entry.perms, entry.padding, entry.size))
    (fun _ => rfl) (fun _ => rfl)

/-- `sizeof(FileEntry)`. -/
theorem FileEntry.size_layout : FileEntry.layout.size = 80 := rfl

/-- `writeAll`, as the buffers it writes: an empty one takes no `write` call. -/
def writeAll (buffer : List UInt8) : List (List UInt8) := if buffer = [] then [] else [buffer]

@[simp]
theorem flatten_writeAll (buffer : List UInt8) : (writeAll buffer).flatten = buffer := by
  by_cases empty : buffer = [] <;> simp [writeAll, empty]

/-- An empty buffer is not written. -/
@[simp]
theorem nil_not_mem_writeAll (buffer : List UInt8) : [] ∉ writeAll buffer := by
  by_cases empty : buffer = []
  · simp [writeAll, empty]
  · simp [writeAll, empty, Ne.symm empty]

/-- What the message loops pass on: a header and the payload it announced. -/
abbrev Received := MsgHeader × List UInt8

/-- Bytes of a message on the socket. -/
def Received.bytes (message : Received) : List UInt8 :=
  MsgHeader.layout.encode message.1 ++ message.2

/-- The header announces exactly the payload. -/
def Received.Announced (message : Received) : Prop :=
  message.1.payloadLength.toNat = message.2.length

instance (message : Received) : Decidable message.Announced := inferInstanceAs (Decidable (_ = _))

/-- Where a message loop stands: it reads a header, or the payload of a header that announces
one. -/
inductive MessagePosition
  /-- In `readAll` of the header. -/
  | header
  /-- In `readAll` of the payload. -/
  | payload (header : MsgHeader) (announced : 0 < header.payloadLength.toNat)
deriving DecidableEq

/-- A message loop and the messages it has passed on. -/
structure MessageLoop where
  /-- The `readAll` call in progress. -/
  position : MessagePosition
  /-- Complete messages, oldest first. -/
  delivered : List Received

/-- The loop of `handleClient` and of `readThreadFunc`: a header, and a payload unless its
length is zero. -/
def messageReader : Reader MessageLoop where
  want loop := match loop.position with
    | .header => MsgHeader.layout.size
    | .payload header _ => header.payloadLength.toNat
  want_pos loop := by
    obtain ⟨_ | ⟨header, announced⟩, delivered⟩ := loop
    · exact Nat.zero_lt_succ _
    · exact announced
  accept loop block := match loop.position with
    | .header =>
      let header := MsgHeader.layout.decode block
      if announced : 0 < header.payloadLength.toNat then
        { loop with position := .payload header announced }
      else { loop with delivered := loop.delivered ++ [(header, [])] }
    | .payload header _ =>
      { position := .header, delivered := loop.delivered ++ [(header, block)] }

/-- A message loop between messages. -/
def betweenMessages (delivered : List Received) : Reading MessageLoop :=
  ⟨⟨.header, delivered⟩, []⟩

/-- A message loop waits between messages. -/
theorem betweenMessages_waiting (delivered : List Received) :
    messageReader.Waiting (betweenMessages delivered) := messageReader.want_pos _

/-- A whole header that announces a payload takes the loop to the payload. -/
theorem feed_header (delivered : List Received) (header : MsgHeader)
    (announced : 0 < header.payloadLength.toNat) :
    messageReader.feed (betweenMessages delivered) (MsgHeader.layout.encode header) =
      ⟨⟨.payload header announced, delivered⟩, []⟩ := by
  rw [betweenMessages, messageReader.feed_block (MsgHeader.layout.length_encode header)]
  simp only [messageReader, Layout.decode_encode_self, announced, ↓reduceDIte]

/-- A whole message is passed on and leaves the loop between messages. -/
theorem feed_message (delivered : List Received) {message : Received}
    (announced : message.Announced) :
    messageReader.feed (betweenMessages delivered) message.bytes =
      betweenMessages (delivered ++ [message]) := by
  obtain ⟨header, payload⟩ := message
  simp only [Received.Announced] at announced
  rw [Received.bytes, Reader.feed_append]
  by_cases filled : 0 < header.payloadLength.toNat
  · rw [feed_header delivered header filled, messageReader.feed_block announced.symm]
    rfl
  · have empty : payload = [] := List.length_eq_zero_iff.mp (by omega)
    subst empty
    rw [betweenMessages, messageReader.feed_block (MsgHeader.layout.length_encode header)]
    simp only [messageReader, Layout.decode_encode_self, filled, ↓reduceDIte]
    rfl

/-- Whole messages are passed on in order. -/
theorem feed_messages (delivered : List Received) {messages : List Received}
    (announced : ∀ message ∈ messages, message.Announced) :
    messageReader.feed (betweenMessages delivered) (messages.flatMap Received.bytes) =
      betweenMessages (delivered ++ messages) := by
  induction messages generalizing delivered with
  | nil => simp
  | cons message rest ih =>
    rw [List.flatMap_cons, Reader.feed_append, feed_message delivered (announced message (by simp)),
      ih _ fun later member => announced later (by simp [member]), List.append_assoc]
    rfl

/-- A message that has not arrived whole is not passed on. -/
theorem feed_unfinished (delivered : List Received) {message : Received} {front back : List UInt8}
    (announced : message.Announced) (whole : front ++ back = message.bytes) (cut : back ≠ []) :
    (messageReader.feed (betweenMessages delivered) front).control.delivered = delivered := by
  obtain ⟨header, payload⟩ := message
  simp only [Received.Announced] at announced
  simp only [Received.bytes] at whole
  have size := MsgHeader.layout.length_encode header
  by_cases short : front.length < MsgHeader.layout.size
  · by_cases empty : front = []
    · subst empty
      rfl
    · rw [← messageReader.receive_eq_feed empty (by
        simpa [Reader.missing, betweenMessages, messageReader] using short.le)]
      have more : ([] ++ front).length < messageReader.want ⟨.header, delivered⟩ := short
      simp only [Reader.receive, betweenMessages, more, ↓reduceIte]
  · -- the header has arrived, so what is missing is the end of the payload
    obtain ⟨rest, rfl⟩ : ∃ rest, front = MsgHeader.layout.encode header ++ rest :=
      ⟨front.drop MsgHeader.layout.size, by
        have same := congrArg (List.take MsgHeader.layout.size) whole
        rw [List.take_append_of_le_length (by omega), Layout.take_encode] at same
        rw [← same, List.take_append_drop]⟩
    rw [List.append_assoc, List.append_cancel_left_eq] at whole
    have missing : rest.length < header.payloadLength.toNat := by
      have := congrArg List.length whole
      have := List.length_pos_iff.mpr cut
      rw [List.length_append] at *
      omega
    have filled : 0 < header.payloadLength.toNat := by omega
    rw [Reader.feed_append, feed_header delivered header filled]
    by_cases empty : rest = []
    · subst empty
      rfl
    · rw [← messageReader.receive_eq_feed empty (by
        simpa [Reader.missing, messageReader] using missing.le)]
      have more : ([] ++ rest).length <
          messageReader.want ⟨.payload header filled, delivered⟩ := missing
      simp only [Reader.receive, more, ↓reduceIte]

/-- `isUsernameValid`; no argument stands for a null pointer. -/
def isUsernameValid : Option (List UInt8) → Bool
  | none => false
  | some username =>
    if username.length = 0 ∨ username.length > maxUsernameLen then false
    else username.all isAlpha

/-- A valid user name that leaves room for a terminator in its field. -/
structure UserName where
  /-- The letters of the name. -/
  text : List UInt8
  /-- The server accepts the name. -/
  valid : isUsernameValid (some text) = true
  /-- The name is shorter than its fields. -/
  short : text.length < maxUsernameLen

/-- A valid name has between one and twenty letters. -/
theorem isUsernameValid_iff {username : List UInt8} :
    isUsernameValid (some username) = true ↔
      username ≠ [] ∧ username.length ≤ maxUsernameLen ∧ ∀ byte ∈ username, isAlpha byte := by
  simp only [isUsernameValid]
  split
  · rename_i refused
    constructor
    · intro absurd_
      simp at absurd_
    · rintro ⟨filled, short, -⟩
      rcases refused with empty | long
      · exact absurd (List.length_eq_zero_iff.mp empty) filled
      · omega
  · rename_i accepted
    rw [not_or, Nat.not_lt] at accepted
    simp only [List.all_eq_true]
    constructor
    · intro letters
      exact ⟨fun empty => accepted.1 (by simp [empty]), accepted.2, letters⟩
    · exact fun whole => whole.2.2

/-- A valid name holds no terminator. -/
theorem nulFree_of_isUsernameValid {username : List UInt8}
    (valid : isUsernameValid (some username) = true) : NulFree username := by
  intro member
  exact absurd ((isUsernameValid_iff.mp valid).2.2 0 member) (by decide)

end FileServer
