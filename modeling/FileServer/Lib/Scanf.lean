import FileServer.Lib.CString

/-!
# Formatted input

`sscanf` for the conversions `%d` and `%s`. A format is a row of directives; the conversions are
returned up to the first directive that does not match. What is printed under a format is not always
read back under it: white space in a format matches any amount of it, and `%s` stops at white space.
-/
namespace FileServer.Lib

/-- A directive of a format. -/
inductive Directive
  /-- A byte that is no white space. -/
  | byte (byte : UInt8)
  /-- White space. -/
  | space
  /-- `%d`. -/
  | int
  /-- `%s`. -/
  | string
deriving DecidableEq

/-- The directives of a format string. -/
def directives : List UInt8 → List Directive
  | 37 :: 100 :: rest => .int :: directives rest
  | 37 :: 115 :: rest => .string :: directives rest
  | byte :: rest => (if isSpace byte then .space else .byte byte) :: directives rest
  | [] => []

/-- What a conversion stores. -/
inductive Converted
  /-- An integer. -/
  | int (value : Int32)
  /-- A string. -/
  | string (text : List UInt8)
deriving DecidableEq

/-- The digits at the start of a text, behind a sign. -/
def signedDigits : List UInt8 → List UInt8 × List UInt8
  | 45 :: rest | 43 :: rest => (leadingDigits 10 rest, rest)
  | rest => (leadingDigits 10 rest, rest)

/-- `%d`: the value, and the text behind it. -/
def scanInt (text : List UInt8) : Option (Int32 × List UInt8) :=
  let start := text.dropWhile isSpace
  let (digits, unsigned) := signedDigits start
  if digits = [] then none else some (atoi start, unsigned.drop digits.length)

/-- `%s`: the bytes up to white space, and the text behind them. -/
def scanWord (text : List UInt8) : Option (List UInt8 × List UInt8) :=
  let start := text.dropWhile isSpace
  let word := start.takeWhile (!isSpace ·)
  if word = [] then none else some (word, start.drop word.length)

/-- `sscanf`: the conversions that are made. -/
def sscanf : List Directive → List UInt8 → List Converted
  | [], _ => []
  | .byte byte :: later, text => if text.head? = some byte then sscanf later text.tail else []
  | .space :: later, text => sscanf later (text.dropWhile isSpace)
  | .int :: later, text =>
    match scanInt text with
    | none => []
    | some (value, rest) => .int value :: sscanf later rest
  | .string :: later, text =>
    match scanWord text with
    | none => []
    | some (word, rest) => .string word :: sscanf later rest

/-- The bytes of a format match themselves. -/
theorem sscanf_bytes (bytes : List UInt8) (later : List Directive) (text : List UInt8) :
    sscanf (bytes.map .byte ++ later) (bytes ++ text) = sscanf later text := by
  induction bytes with
  | nil => rfl
  | cons byte rest ih =>
    show (if (byte :: (rest ++ text)).head? = some byte then _ else _) = _
    rw [if_pos (show (byte :: (rest ++ text)).head? = some byte from rfl)]
    exact ih

/-- White space in a format skips that of the text. -/
theorem sscanf_space (later : List Directive) (text : List UInt8) :
    sscanf (.space :: later) text = sscanf later (text.dropWhile isSpace) := rfl

/-- An integer is converted if there is one. -/
theorem sscanf_int {text rest : List UInt8} {value : Int32} (read : scanInt text = some (value, rest))
    (later : List Directive) : sscanf (.int :: later) text = .int value :: sscanf later rest := by
  show (match scanInt text with | none => [] | some (value, rest) => _) = _
  rw [read]

/-- A last word is converted if there is one. -/
theorem sscanf_string (text : List UInt8) :
    sscanf [.string] text = match scanWord text with
      | none => []
      | some (word, _) => [.string word] := by
  show (match scanWord text with | none => [] | some (word, rest) => _) = _
  cases scanWord text <;> rfl

/-- Where the digits of a text end. -/
theorem leadingDigits_append {digits rest : List UInt8}
    (decimal : ∀ digit ∈ digits, 48 ≤ digit ∧ digit ≤ 57)
    (ended : leadingDigits 10 rest = []) : leadingDigits 10 (digits ++ rest) = digits := by
  unfold leadingDigits at ended ⊢
  rw [List.takeWhile_append_of_pos, ended, List.append_nil]
  exact List.takeWhile_eq_self_iff.mp (leadingDigits_digits decimal)

/-- Digits that something else follows are read as their value. -/
theorem scanInt_digits {digits rest : List UInt8} (filled : digits ≠ [])
    (decimal : ∀ digit ∈ digits, 48 ≤ digit ∧ digit ≤ 57) (ended : leadingDigits 10 rest = [])
    (small : digitsValue 10 digits < 2 ^ 31) :
    scanInt (digits ++ rest) = some (Int32.ofInt (digitsValue 10 digits), rest) := by
  have taken := leadingDigits_append decimal ended
  obtain ⟨first, others, rfl⟩ := List.exists_cons_of_ne_nil filled
  have from_ := (decimal first List.mem_cons_self).1
  have stay : (first :: others ++ rest).dropWhile isSpace = first :: others ++ rest := by
    simp [isSpace_digit from_]
  have plain : signedDigits (first :: others ++ rest) = (first :: others, first :: others ++ rest) := by
    unfold signedDigits
    split
    · rename_i sign
      cases sign
      exact absurd from_ (by decide)
    · rename_i sign
      cases sign
      exact absurd from_ (by decide)
    · rw [taken]
  have value : strtol 10 (first :: others ++ rest) = digitsValue 10 (first :: others) := by
    unfold strtol
    rw [stay]
    split
    · rename_i sign
      cases sign
      exact absurd from_ (by decide)
    · rename_i sign
      cases sign
      exact absurd from_ (by decide)
    · rw [taken]
      omega
  unfold scanInt
  rw [stay]
  simp only [plain]
  rw [if_neg filled, atoi, value, List.drop_left]

/-- A word ends where white space begins. -/
theorem scanWord_eq_some {text word rest : List UInt8} (read : scanWord text = some (word, rest)) :
    word ≠ [] ∧ ∀ byte ∈ word, isSpace byte = false := by
  unfold scanWord at read
  dsimp only at read
  split at read
  · cases read
  · rename_i filled
    cases read
    refine ⟨filled, fun byte member => ?_⟩
    simpa using List.mem_takeWhile_imp member

/-- A word is no longer than the text. -/
theorem length_of_scanWord {text word rest : List UInt8} (read : scanWord text = some (word, rest)) :
    word.length ≤ text.length := by
  unfold scanWord at read
  dsimp only at read
  split at read
  · cases read
  · cases read
    exact ((List.takeWhile_sublist _).trans (List.dropWhile_sublist _)).length_le

/-- Nothing is skipped of a text without white space. -/
theorem dropWhile_solid {text : List UInt8} (solid : ∀ byte ∈ text, isSpace byte = false) :
    text.dropWhile isSpace = text := by
  rw [List.dropWhile_eq_self_iff]
  exact fun bound => by simp [solid _ (List.getElem_mem bound)]

/-- Text without white space is one word. -/
theorem scanWord_solid {word : List UInt8} (filled : word ≠ [])
    (solid : ∀ byte ∈ word, isSpace byte = false) : scanWord word = some (word, []) := by
  have whole : word.takeWhile (!isSpace ·) = word :=
    List.takeWhile_eq_self_iff.mpr fun byte member => by simp [solid byte member]
  unfold scanWord
  simp only [dropWhile_solid solid, whole]
  rw [if_neg filled, List.drop_length]

end FileServer.Lib
