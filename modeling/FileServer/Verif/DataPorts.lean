import FileServer.Model.Worker
import FileServer.Verif.Handlers
import FileServer.Verif.Login
import FileServer.Verif.Tokenize

/-!
# The path in the message of a data port

The server tells the client the port of a transfer and the client's own path in one text of an array of
64 bytes, and the client scans both from it. The path arrives as it was named exactly if it fits what
the digits of the port leave of the array and holds no white space, which a word of a command may.
-/
namespace FileServer

open FileServer.Lib

/-- A decimal digit as a byte. -/
theorem digit_of_isDigit {char : Char} (decimal : char.isDigit = true) :
    48 ≤ UInt8.ofNat char.toNat ∧ UInt8.ofNat char.toNat ≤ 57 ∧
      digitValue (UInt8.ofNat char.toNat) = char.toNat - 48 := by
  simp only [Char.isDigit, Bool.and_eq_true, decide_eq_true_eq] at decimal
  have low : 48 ≤ char.toNat := UInt32.le_iff_toNat_le.mp decimal.1
  have high : char.toNat ≤ 57 := UInt32.le_iff_toNat_le.mp decimal.2
  have same : (UInt8.ofNat char.toNat).toNat = char.toNat := by
    rw [UInt8.toNat_ofNat']
    omega
  have from_ : 48 ≤ UInt8.ofNat char.toNat := by
    rw [UInt8.le_iff_toNat_le, same]
    exact low
  have upTo : UInt8.ofNat char.toNat ≤ 57 := by
    rw [UInt8.le_iff_toNat_le, same]
    exact high
  refine ⟨from_, upTo, ?_⟩
  unfold digitValue
  rw [if_pos ⟨from_, upTo⟩, same]

/-- The digits of a natural number. -/
theorem formatInt_natCast (number : Nat) :
    formatInt number = (Nat.toDigits 10 number).map fun char => UInt8.ofNat char.toNat := by
  show (Nat.repr number).toList.map _ = _
  rw [Nat.toList_repr]

/-- They are decimal. -/
theorem decimal_formatInt (number : Nat) :
    ∀ digit ∈ formatInt number, 48 ≤ digit ∧ digit ≤ 57 := by
  intro digit member
  rw [formatInt_natCast] at member
  obtain ⟨char, inside, rfl⟩ := List.mem_map.mp member
  have decimal := digit_of_isDigit (Nat.isDigit_of_mem_toDigits (by decide) (by decide) inside)
  exact ⟨decimal.1, decimal.2.1⟩

/-- There is at least one. -/
theorem formatInt_ne_nil (number : Nat) : formatInt number ≠ [] := by
  rw [formatInt_natCast]
  exact fun none => Nat.toDigits_ne_nil (List.map_eq_nil_iff.mp none)

/-- A port has at most five. -/
theorem length_formatInt_port (port : UInt16) : (formatInt port.toNat).length ≤ 5 := by
  rw [formatInt_natCast, List.length_map, Nat.length_toDigits_le_iff (by decide) (by decide)]
  have bound := port.toNat_lt
  omega

/-- Their value is the number. -/
theorem digitsValue_formatInt (number : Nat) : digitsValue 10 (formatInt number) = number := by
  have whole : ∀ (chars : List Char) (start : Nat), (∀ char ∈ chars, char.isDigit = true) →
      (chars.map fun char => UInt8.ofNat char.toNat).foldl
        (fun value digit => value * 10 + digitValue digit) start =
          Nat.ofDigitChars 10 chars start := by
    intro chars
    induction chars with
    | nil => exact fun _ _ => rfl
    | cons char later ih =>
      intro start decimal
      obtain ⟨-, -, value⟩ := digit_of_isDigit (decimal char List.mem_cons_self)
      rw [Nat.ofDigitChars_cons, List.map_cons, List.foldl_cons,
        ih _ fun other member => decimal other (List.mem_cons_of_mem _ member), value, Nat.mul_comm]
      rfl
  rw [formatInt_natCast, digitsValue, whole _ _ fun char member =>
    Nat.isDigit_of_mem_toDigits (by decide) (by decide) member, Nat.ofDigitChars_ten_toDigits]

/-- The text of the message. -/
def portInfo (port : UInt16) (path : List UInt8) : List UInt8 :=
  formatted 64 (str "DATA_PORT " ++ formatInt port.toNat ++ str " " ++ path)

/-- The path fits the array behind the port, and holds no white space. -/
def FitsPortInfo (port : UInt16) (path : List UInt8) : Prop :=
  path.length + (formatInt port.toNat).length ≤ 52 ∧ ∀ byte ∈ path, isSpace byte = false

/-- What the client reads of the port and the path. -/
theorem transferArgs_portInfo (port : UInt16) {path : List UInt8} (clean : NulFree path)
    (isBackground : Bool) :
    transferArgs isBackground (portInfo port path) =
      (scanWord ((path.take (52 - (formatInt port.toNat).length)).dropWhile isSpace)).map
        fun word => ⟨Int32.ofInt port.toNat, word.1, isBackground⟩ := by
  have short := length_formatInt_port port
  let digits := formatInt port.toNat
  let cut := path.take (52 - digits.length)
  have few : digits.length ≤ 5 := short
  have kept : portInfo port path = str "DATA_PORT" ++ (32 :: (digits ++ 32 :: cut)) := by
    have lead : str "DATA_PORT " ++ digits ++ str " " ++ path =
        (str "DATA_PORT" ++ 32 :: (digits ++ [32])) ++ path := by
      rw [show str "DATA_PORT " = str "DATA_PORT" ++ [32] from rfl, show str " " = [32] from rfl]
      simp
    have size : (str "DATA_PORT" ++ 32 :: (digits ++ [32])).length = 11 + digits.length := by
      have word : (str "DATA_PORT").length = 9 := rfl
      simp only [List.length_append, List.length_cons, List.length_nil]
      omega
    have room : 63 - (11 + digits.length) = 52 - digits.length := by omega
    show (str "DATA_PORT " ++ digits ++ str " " ++ path).take 63 = _
    rw [lead, List.take_append, List.take_of_length_le (by omega), size, room]
    simp [cut]
  have nulFree : NulFree (portInfo port path) := by
    rw [kept]
    intro zero
    rcases List.mem_append.mp zero with word | zero
    · exact absurd word (by decide)
    · rcases List.mem_append.mp ((List.mem_cons.mp zero).resolve_left (by decide)) with digit | zero
      · exact absurd (decimal_formatInt _ _ digit).1 (by decide)
      · exact clean (List.mem_of_mem_take ((List.mem_cons.mp zero).resolve_left (by decide)))
  have parts : dataPortFormat = (str "DATA_PORT").map .byte ++ [.space, .int, .space, .string] := by
    decide
  have solid : (32 :: (digits ++ 32 :: cut)).dropWhile isSpace = digits ++ 32 :: cut := by
    obtain ⟨first, later, same⟩ := List.exists_cons_of_ne_nil (formatInt_ne_nil port.toNat)
    have decimal := (decimal_formatInt port.toNat first (same ▸ List.mem_cons_self)).1
    rw [List.dropWhile_cons_of_pos (show isSpace 32 = true by decide),
      show digits = first :: later from same]
    simp [isSpace_digit decimal]
  have number : scanInt (digits ++ 32 :: cut) = some (Int32.ofInt port.toNat, 32 :: cut) := by
    have read := scanInt_digits (formatInt_ne_nil port.toNat) (decimal_formatInt port.toNat)
      (show leadingDigits 10 (32 :: cut) = [] from rfl)
      (by rw [digitsValue_formatInt]; have := port.toNat_lt; omega)
    rw [digitsValue_formatInt] at read
    exact read
  unfold transferArgs
  rw [cString_of_nulFree nulFree, kept, parts, sscanf_bytes]
  have scanned : sscanf [.space, .int, .space, .string] (32 :: (digits ++ 32 :: cut)) =
      .int (Int32.ofInt port.toNat) ::
        (scanWord (cut.dropWhile isSpace)).elim [] fun word => [.string word.1] := by
    rewrite [sscanf_space, solid, sscanf_int number, sscanf_space, sscanf_string,
      List.dropWhile_cons_of_pos (show isSpace 32 = true by decide)]
    cases scanWord (cut.dropWhile isSpace) <;> rfl
  rw [scanned]
  cases scanWord (cut.dropWhile isSpace) with
  | none => rfl
  | some word => rfl

/-- The client reads the path as it is exactly if it fits. -/
theorem transferArgs_portInfo_iff {port : UInt16} {path : List UInt8} (clean : NulFree path)
    (filled : path ≠ []) (isBackground : Bool) :
    transferArgs isBackground (portInfo port path) =
        some ⟨Int32.ofInt port.toNat, path, isBackground⟩ ↔ FitsPortInfo port path := by
  have short := length_formatInt_port port
  rw [transferArgs_portInfo port clean]
  constructor
  · intro read
    obtain ⟨⟨word, rest⟩, scanned, same⟩ := Option.map_eq_some_iff.mp read
    obtain rfl : word = path := congrArg BgDownloadArgs.destPath same
    refine ⟨?_, (scanWord_eq_some scanned).2⟩
    have taken := length_of_scanWord scanned
    have dropped := (List.dropWhile_sublist isSpace
      (l := word.take (52 - (formatInt port.toNat).length))).length_le
    rw [List.length_take] at dropped
    omega
  · rintro ⟨fits, solid⟩
    rw [List.take_of_length_le (by omega), dropWhile_solid solid, scanWord_solid filled solid]
    rfl

/-- The words of an upload or a download that the server serves, with the type of its message and the
path on the client. -/
inductive TransferLine : List (List UInt8) → MsgType → List UInt8 → Prop
  /-- `download <server_path> <client_path> [-b]`. -/
  | download {serverPath path : List UInt8} {options : List (List UInt8)}
    (known : options = [] ∨ options = [str "-b"]) :
    TransferLine (str "download" :: serverPath :: path :: options) .downloadRes path
  /-- `upload <client_path> <server_path> [-b]`, with any word in the last place. -/
  | upload {serverPath path : List UInt8} {options : List (List UInt8)}
    (few : options = [] ∨ ∃ option, options = [option]) :
    TransferLine (str "upload" :: path :: serverPath :: options) .uploadRes path

/-- The arguments are the tokens of some payload. -/
def HandlerCall.Tokenized (call : HandlerCall) : Prop :=
  ∃ input saved final, tokenizeCommand input saved = some (call.argv, final)

/-- In every run of the command in which the data port is bound to the port, the client reads from the
message about it the port and the path. -/
def PathSurvives (call : HandlerCall) (type : MsgType) (path : List UInt8) (port : UInt16) : Prop :=
  (dispatchCommands call).Every fun events _ => ⟨.bindDataPort, some port⟩ ∈ events →
    ∀ text isBg, ⟨.sendProtocolMsgLocked type 0 text isBg, ()⟩ ∈ events →
      transferArgs isBg text = some ⟨Int32.ofInt port.toNat, path, isBg⟩

/-- The call sends the client nothing but text. -/
def HandlerOp.sendsText : HandlerOp → Bool
  | .sendProtocolMsgLocked type .. => type = .text
  | _ => true

/-- The copying loops send nothing to the client. -/
theorem sendsText_copies (left : Nat)
    (blocks : List { bytes : List UInt8 // 0 < bytes.length ∧ bytes.length ≤ bufferSize }) :
    (copyDownload left).Only (·.sendsText = true) ∧ (copyUpload blocks).Only (·.sendsText = true) := by
  constructor
  · induction left using Nat.strong_induction_on with
    | _ left ih =>
      rw [copyDownload]
      split
      · trivial
      · rename_i more
        refine .call rfl fun part => ?_
        cases part with
        | none => trivial
        | some part =>
          obtain ⟨bytes, bounds⟩ := part
          refine .call rfl fun written => ?_
          cases written with
          | true => exact ih (left - bytes.length) (by omega)
          | false => trivial
  · induction blocks with
    | nil => trivial
    | cons bytes later ih =>
      refine .call rfl fun written => ?_
      cases written with
      | true => exact ih
      | false => trivial

/-- The process behind a transfer sends text. -/
theorem sendsText_children (call : HandlerCall) (first second : List UInt8) (isBg : Bool) :
    (downloadChild call first second isBg).Only (·.sendsText = true) ∧
      (uploadChild call first second isBg).Only (·.sendsText = true) := by
  constructor
  · refine .call rfl fun _ => .call rfl fun accepted => ?_
    cases accepted with
    | false => trivial
    | true =>
      refine .call rfl fun _ => .call rfl fun answer => ?_
      split
      · exact .bind (sendsText_copies _ []).1 fun _ => .call rfl fun _ => .call rfl fun _ => trivial
      · exact .call rfl fun _ => .call rfl fun _ => trivial
  · refine .call rfl fun _ => .call rfl fun accepted => ?_
    cases accepted with
    | false => trivial
    | true =>
      refine .call rfl fun _ => .call rfl fun answer => ?_
      split
      · exact .call rfl fun blocks => .bind (sendsText_copies 0 blocks).2 fun _ =>
          .call rfl fun _ => .call rfl fun _ => trivial
      · exact .call rfl fun _ => .call rfl fun _ => trivial

/-- A command that the server serves starts a process for the transfer. -/
theorem dispatchCommands_transfer {call : HandlerCall} {type : MsgType} {path : List UInt8}
    (line : TransferLine call.args type path) (loggedIn : call.session.state = .loggedIn) :
    ∃ child isBg, dispatchCommands call = forkTransfer call type path isBg child ∧
      child.Only (·.sendsText = true) := by
  generalize words : call.args = args at line
  cases line with
  | @download serverPath path options known =>
    have selected : dispatchCommands call = handleDownload call := by
      rw [dispatchCommands, words]
      rfl
    refine ⟨downloadChild call serverPath path (isBackground call.args), isBackground call.args, ?_,
      (sendsText_children call _ _ _).1⟩
    rw [selected]
    unfold handleDownload
    rcases known with rfl | rfl
    · rw [words, if_neg (by simp), if_neg (by simp [loggedIn])]
    · rw [words, if_neg (by simp [isBackground]), if_neg (by simp [loggedIn])]
  | @upload serverPath path options few =>
    have selected : dispatchCommands call = handleUpload call := by
      rw [dispatchCommands, words]
      rfl
    refine ⟨uploadChild call path serverPath (isBackground call.args), isBackground call.args, ?_,
      (sendsText_children call _ _ _).2⟩
    rw [selected]
    unfold handleUpload
    rcases few with rfl | ⟨option, rfl⟩
    · rw [words, if_neg (by simp [loggedIn])]
    · rw [words, if_neg (by simp [loggedIn])]

/-- A path of a command is a string, and not empty. -/
theorem clean_of_tokenized {call : HandlerCall} (tokens : call.Tokenized) {word : List UInt8}
    (member : word ∈ call.args) : NulFree word ∧ word ≠ [] := by
  obtain ⟨input, saved, final, produced⟩ := tokens
  obtain ⟨cursor, -, found⟩ := Option.map_eq_some_iff.mp produced
  obtain ⟨token, inside, rfl⟩ := List.mem_map.mp member
  rw [show call.argv = (tokenizeLoop maxArgs (strtok 32 cursor)).1 from
    (congrArg Prod.fst found).symm] at inside
  obtain ⟨-, -, clean, filled, -⟩ := tokenizeLoop_token inside
  exact ⟨clean, filled⟩

/-- The path is one of the words. -/
theorem TransferLine.mem {args : List (List UInt8)} {type : MsgType} {path : List UInt8}
    (line : TransferLine args type path) : path ∈ args := by
  cases line <;> simp

/-- The type of the message is not that of a text. -/
theorem TransferLine.ne_text {args : List (List UInt8)} {type : MsgType} {path : List UInt8}
    (line : TransferLine args type path) : type ≠ .text := by
  cases line <;> decide

/-- The arguments of a message are tokens. -/
theorem tokenized_messageCall (pid : UInt32) (session : ClientSession) (behind : Nat → UInt8)
    (message : Received) : (messageCall pid session behind message).Tokenized :=
  ⟨some ⟨message.2 ++ [0], 0⟩, none, _, rfl⟩

/-- A path that survives fits. -/
theorem fits_of_pathSurvives {call : HandlerCall} (tokens : call.Tokenized) {type : MsgType}
    {path : List UInt8} (line : TransferLine call.args type path)
    (loggedIn : call.session.state = .loggedIn) {port : UInt16}
    (survives : PathSurvives call type path port) : FitsPortInfo port path := by
  obtain ⟨clean, filled⟩ := clean_of_tokenized tokens line.mem
  obtain ⟨child, isBg, same, -⟩ := dispatchCommands_transfer line loggedIn
  unfold PathSurvives at survives
  rw [same] at survives
  have told := survives (some port) .parent () (by simp) (portInfo port path) false
    (by simp [portInfo])
  exact (transferArgs_portInfo_iff clean filled false).mp told

/-- A path that fits survives. -/
theorem pathSurvives_of_fits {call : HandlerCall} (tokens : call.Tokenized) {type : MsgType}
    {path : List UInt8} (line : TransferLine call.args type path)
    (loggedIn : call.session.state = .loggedIn) {port : UInt16} (fits : FitsPortInfo port path) :
    PathSurvives call type path port := by
  obtain ⟨clean, filled⟩ := clean_of_tokenized tokens line.mem
  obtain ⟨child, isBg, same, texts⟩ := dispatchCommands_transfer line loggedIn
  have quiet : ∀ text isBg, HandlerOp.sendsText (.sendProtocolMsgLocked type 0 text isBg) = false :=
    fun _ _ => decide_eq_false line.ne_text
  unfold PathSurvives
  rw [same]
  intro bound
  cases bound with
  | none =>
    intro _ member
    simp at member
  | some other =>
    intro forked
    cases forked with
    | failed =>
      intro _ _ text isBg told
      have sent : type = .text := by simp_all
      exact absurd sent line.ne_text
    | parent =>
      intro _ member text isBg told
      obtain rfl : port = other := by simpa using member
      obtain ⟨rfl, rfl⟩ : text = portInfo port path ∧ isBg = false := by simpa [portInfo] using told
      exact (transferArgs_portInfo_iff clean filled false).mpr fits
    | child =>
      refine texts.every.weaken fun events _ only _ text isBg told => ?_
      have sent : ⟨.sendProtocolMsgLocked type 0 text isBg, ()⟩ ∈ events := by simpa using told
      exact absurd ((quiet text isBg).symm.trans (only _ sent)) Bool.false_ne_true

/-- For a command that the server serves and any port, the path survives exactly if it fits behind the
port and has no white space. -/
theorem pathSurvives_iff (call : HandlerCall) (tokens : call.Tokenized) {type : MsgType}
    {path : List UInt8} (line : TransferLine call.args type path)
    (loggedIn : call.session.state = .loggedIn) (port : UInt16) :
    PathSurvives call type path port ↔ FitsPortInfo port path :=
  ⟨fits_of_pathSurvives tokens line loggedIn, pathSurvives_of_fits tokens line loggedIn⟩

/-- A short path survives. -/
theorem pathSurvives_iff_notes :
    PathSurvives (commandCall 7 bobSession (str "upload notes/today docs")) .uploadRes
      (str "notes/today") 40000 := by
  have args : (commandCall 7 bobSession (str "upload notes/today docs")).args =
      [str "upload", str "notes/today", str "docs"] := by decide +kernel
  have line : TransferLine (commandCall 7 bobSession (str "upload notes/today docs")).args .uploadRes
      (str "notes/today") := by
    rw [args]
    exact .upload (.inl rfl)
  have short := length_formatInt_port 40000
  have size : (str "notes/today").length = 11 := rfl
  have solid : (str "notes/today").all (fun byte => isSpace byte = false) = true := by decide
  exact (pathSurvives_iff _ (tokenized_messageCall _ _ _ _) line (by decide) 40000).mpr
    ⟨by omega, by simpa using solid⟩

/-- A path of 48 letters loses one behind a port of five digits. -/
theorem not_pathSurvives_long :
    ¬ ∀ port, PathSurvives (commandCall 7 bobSession
      (str "upload " ++ List.replicate 48 97 ++ str " docs")) .uploadRes (List.replicate 48 97)
        port := by
  intro survives
  have args : (commandCall 7 bobSession
      (str "upload " ++ List.replicate 48 97 ++ str " docs")).args =
        [str "upload", List.replicate 48 97, str "docs"] := by decide +kernel
  have line : TransferLine (commandCall 7 bobSession
      (str "upload " ++ List.replicate 48 97 ++ str " docs")).args .uploadRes
        (List.replicate 48 97) := by
    rw [args]
    exact .upload (.inl rfl)
  have fits := (fits_of_pathSurvives (tokenized_messageCall _ _ _ _) line (by decide)
    (survives 40000)).1
  revert fits
  decide +kernel

end FileServer
