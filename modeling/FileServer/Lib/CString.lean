import FileServer.Lib.Layout
import Mathlib.Data.List.Infix
import Mathlib.Data.List.TakeWhile

/-!
# C strings

The parts of the C string library that work on NUL-terminated text: reading a string from
memory, the bounded copies, number conversion and `strtok`. A string is the list of its
bytes without the terminator. `strtok` writes its terminators into the memory it scans and
returns positions in it; `words` is what the tokens amount to, and the lemmas about one call
give the next word and the text left for the following call.
-/
namespace FileServer.Lib

/-- The text of a string literal, one byte for each character. -/
def str (literal : String) : List UInt8 := literal.toList.map fun char => UInt8.ofNat char.toNat

/-- A string holds no terminator. -/
def NulFree (text : List UInt8) : Prop := (0 : UInt8) ∉ text

instance (text : List UInt8) : Decidable (NulFree text) := inferInstanceAs (Decidable (_ ∉ _))

/-- The string at the start of some memory: its bytes before the first NUL. -/
def cString (memory : List UInt8) : List UInt8 := memory.takeWhile (· != 0)

/-- What is read as a string holds no terminator. -/
theorem cString_nulFree (memory : List UInt8) : NulFree (cString memory) := by
  intro member
  simpa using List.mem_takeWhile_imp member

/-- A string that is not followed by a terminator continues into the next bytes. -/
theorem cString_append {text : List UInt8} (clean : NulFree text) (rest : List UInt8) :
    cString (text ++ rest) = text ++ cString rest := by
  apply List.takeWhile_append_of_pos
  intro byte member
  have nonzero : byte ≠ 0 := fun zero => clean (zero ▸ member)
  simpa using nonzero

/-- A terminated string is read exactly. -/
@[simp]
theorem cString_terminated {text : List UInt8} (clean : NulFree text) (rest : List UInt8) :
    cString (text ++ 0 :: rest) = text := by
  rw [cString_append clean]
  simp [cString]

/-- Text without a terminator is read to the end of the memory. -/
theorem cString_of_nulFree {text : List UInt8} (clean : NulFree text) : cString text = text := by
  simpa [cString] using cString_append clean []

/-- A terminator in the memory ends the string, whatever follows. -/
theorem cString_append_of_mem {memory : List UInt8} (ended : (0 : UInt8) ∈ memory)
    (rest : List UInt8) : cString (memory ++ rest) = cString memory := by
  obtain ⟨text, tail, rfl⟩ := List.append_of_mem ended
  induction text with
  | nil => rfl
  | cons byte text ih =>
    by_cases zero : byte = 0
    · simp [cString, zero]
    · simpa [cString, zero] using ih (by simp)

/-- A terminator at the end of the memory is not part of the string. -/
@[simp]
theorem cString_append_zero (memory : List UInt8) : cString (memory ++ [0]) = cString memory := by
  by_cases ended : (0 : UInt8) ∈ memory
  · exact cString_append_of_mem ended [0]
  · rw [cString_terminated ended, cString_of_nulFree ended]

/-- A string is not longer than the memory. -/
theorem length_cString_le (memory : List UInt8) : (cString memory).length ≤ memory.length :=
  (List.takeWhile_sublist _).length_le

/-- A string is as long as the memory when there is no terminator in it. -/
theorem length_cString_eq {memory : List UInt8} :
    (cString memory).length = memory.length ↔ NulFree memory := by
  constructor
  · intro same
    rw [← (List.takeWhile_sublist _).eq_of_length same]
    exact cString_nulFree memory
  · intro clean
    rw [cString_of_nulFree clean]

/-- Reading from inside a string gives the rest of the string. -/
theorem cString_drop {memory before after : List UInt8}
    (read : cString memory = before ++ after) : cString (memory.drop before.length) = after := by
  have whole : memory = before ++ (after ++ memory.dropWhile (· != 0)) := by
    rw [← List.append_assoc, ← read]
    exact List.takeWhile_append_dropWhile.symm
  have clean : NulFree after := by
    intro member
    exact cString_nulFree memory (read ▸ List.mem_append_right before member)
  have stop : cString (memory.dropWhile (· != 0)) = [] := by
    have idle := cString_append (cString_nulFree memory) (memory.dropWhile (· != 0))
    have same : cString memory ++ memory.dropWhile (· != 0) = memory :=
      List.takeWhile_append_dropWhile
    rw [same] at idle
    simpa using idle
  rw [whole, List.drop_left, cString_append clean, stop, List.append_nil]

namespace CharArray

variable {n : Nat}

/-- `strncpy` into the whole array: the text cut to the array, the rest cleared. Text as long
as the array leaves no terminator. -/
def strncpy (n : Nat) (text : List UInt8) : CharArray n := ofBytes n text

/-- `snprintf` with the array's own size: the text cut to leave room for its terminator, the
bytes after the terminator untouched. -/
def snprintf (target : CharArray n) (text : List UInt8) (room : 0 < n) : CharArray n :=
  ⟨overwrite target.bytes 0 (text.take (n - 1) ++ [0]), by
    rw [length_overwrite] <;> simp only [length_bytes, List.length_append, List.length_take,
      List.length_singleton]
    omega⟩

/-- `strcpy` of text that leaves room for its terminator. -/
def strcpy (target : CharArray n) (text : List UInt8) (room : text.length < n) : CharArray n :=
  target.snprintf text (Nat.zero_lt_of_lt room)

/-- A formatted array is terminated. -/
theorem zero_mem_snprintf (target : CharArray n) (text : List UInt8) (room : 0 < n) :
    (0 : UInt8) ∈ (target.snprintf text room).bytes := by
  simp [snprintf, overwrite]

/-- Text shorter than the array is stored with its terminator, whatever follows the array. -/
theorem cString_strncpy {text : List UInt8} (clean : NulFree text) (short : text.length < n)
    (rest : List UInt8) : cString ((strncpy n text).bytes ++ rest) = text := by
  obtain ⟨gap, rfl⟩ := Nat.exists_eq_add_of_lt short
  have stored : (strncpy (text.length + gap + 1) text).bytes =
      text ++ 0 :: List.replicate gap 0 := by
    simp only [strncpy, ofBytes, List.take_append]
    rw [List.take_of_length_le (by omega), List.take_replicate, ← List.replicate_succ]
    congr 2
    omega
  rw [stored, List.append_assoc, List.cons_append]
  exact cString_terminated clean _

/-- Text that is read back shorter than the array is the text that was stored. -/
theorem eq_of_cString_strncpy {text back : List UInt8} (clean : NulFree text)
    (short : back.length < n) {rest : List UInt8}
    (read : cString ((strncpy n text).bytes ++ rest) = back) : text = back := by
  rcases Nat.lt_or_ge text.length n with fits | cut
  · rw [← read, cString_strncpy clean fits]
  · have stored : (strncpy n text).bytes = text.take n := by
      rw [strncpy, ofBytes_of_le cut]
    have kept : NulFree (text.take n) := fun member => clean (List.mem_of_mem_take member)
    have long := congrArg List.length read
    rw [stored, cString_append kept, List.length_append, List.length_take] at long
    omega

/-- Formatted text is read back up to what the array has room for, whatever follows the array. -/
theorem cString_snprintf_take (target : CharArray n) (text : List UInt8) (room : 0 < n)
    (rest : List UInt8) :
    cString ((target.snprintf text room).bytes ++ rest) = cString (text.take (n - 1)) := by
  have ended : (0 : UInt8) ∈ text.take (n - 1) ++ [0] := by simp
  simp only [snprintf, overwrite, List.take_zero, List.nil_append, List.append_assoc]
  rw [← List.append_assoc, cString_append_of_mem ended, cString_append_zero]

/-- Formatted text shorter than the array is read back, whatever follows the array. -/
theorem cString_snprintf {text : List UInt8} (target : CharArray n) (clean : NulFree text)
    (short : text.length < n) (rest : List UInt8) :
    cString ((target.snprintf text (by omega)).bytes ++ rest) = text := by
  have whole : text.take (n - 1) = text := List.take_of_length_le (by omega)
  simp only [snprintf, overwrite, whole, List.take_zero, List.nil_append, List.append_assoc,
    List.cons_append]
  exact cString_terminated clean _

end CharArray

/-- `isspace` in the C locale. -/
def isSpace (byte : UInt8) : Bool := byte == 32 || (9 ≤ byte && byte ≤ 13)

/-- `isalpha` in the C locale. -/
def isAlpha (byte : UInt8) : Bool := (65 ≤ byte && byte ≤ 90) || (97 ≤ byte && byte ≤ 122)

/-- The value of a digit in bases up to 36; other bytes have no value below 36. -/
def digitValue (byte : UInt8) : Nat :=
  if 48 ≤ byte ∧ byte ≤ 57 then byte.toNat - 48
  else if 97 ≤ byte ∧ byte ≤ 122 then byte.toNat - 87
  else if 65 ≤ byte ∧ byte ≤ 90 then byte.toNat - 55
  else 36

/-- The value of a row of digits, most significant first. -/
def digitsValue (base : Nat) (digits : List UInt8) : Nat :=
  digits.foldl (fun value digit => value * base + digitValue digit) 0

/-- The digits that start the text. -/
def leadingDigits (base : Nat) (text : List UInt8) : List UInt8 :=
  text.takeWhile (digitValue · < base)

/-- `strtol` without an end pointer: leading white space, an optional sign, the digits, and
saturation at the bounds of a 64-bit `long`. -/
def strtol (base : Nat) (text : List UInt8) : Int :=
  match text.dropWhile isSpace with
  | 45 :: rest => max (-(digitsValue base (leadingDigits base rest) : Int)) (-2 ^ 63)
  | 43 :: rest => min (digitsValue base (leadingDigits base rest) : Int) (2 ^ 63 - 1)
  | rest => min (digitsValue base (leadingDigits base rest) : Int) (2 ^ 63 - 1)

/-- `atoi`: the `long` result cut to an `int`. -/
def atoi (text : List UInt8) : Int32 := Int32.ofInt (strtol 10 text)

/-- A decimal numeral: digits, perhaps after a minus sign, and their value. -/
def Numeral (text : List UInt8) (value : Int) : Prop :=
  ∃ digits : List UInt8, digits ≠ [] ∧ (∀ digit ∈ digits, 48 ≤ digit ∧ digit ≤ 57) ∧
    (text = digits ∧ value = digitsValue 10 digits ∨
      text = 45 :: digits ∧ value = -digitsValue 10 digits)

/-- Decimal digits are all taken. -/
theorem leadingDigits_digits {digits : List UInt8}
    (decimal : ∀ digit ∈ digits, 48 ≤ digit ∧ digit ≤ 57) : leadingDigits 10 digits = digits := by
  refine List.takeWhile_eq_self_iff.mpr fun digit member => ?_
  obtain ⟨low, high⟩ := decimal digit member
  simp only [digitValue, low, high, and_self, ↓reduceIte, decide_eq_true_eq]
  have := UInt8.le_iff_toNat_le.mp high
  have : (57 : UInt8).toNat = 57 := rfl
  omega

/-- A digit is no white space. -/
theorem isSpace_digit {digit : UInt8} (decimal : 48 ≤ digit) : isSpace digit = false := by
  simp only [isSpace, Bool.or_eq_false_iff, beq_eq_false_iff_ne, Bool.and_eq_false_iff,
    decide_eq_false_iff_not]
  refine ⟨?_, .inr fun absurd_ => ?_⟩
  · rintro rfl
    exact absurd decimal (by decide)
  · exact absurd (UInt8.le_trans decimal absurd_) (by decide)

/-- A numeral in the range of `int` is read as its value. -/
theorem atoi_numeral {text : List UInt8} {value : Int32} (numeral : Numeral text value.toInt) :
    atoi text = value := by
  have low := value.minValue_le_toInt
  have high := value.toInt_lt
  obtain ⟨digits, filled, decimal, whole⟩ := numeral
  obtain ⟨first, rest, rfl⟩ := List.exists_cons_of_ne_nil filled
  have taken := leadingDigits_digits decimal
  rw [atoi, ← Int32.ofInt_toInt value]
  congr 1
  rcases whole with ⟨rfl, same⟩ | ⟨rfl, same⟩
  · -- a digit is neither white space nor a sign
    obtain ⟨from_, -⟩ := decimal first (by simp)
    have stay : (first :: rest).dropWhile isSpace = first :: rest := by
      simp [isSpace_digit from_]
    rw [strtol, stay]
    split
    · rename_i sign
      cases sign
      exact absurd from_ (by decide)
    · rename_i sign
      cases sign
      exact absurd from_ (by decide)
    · rw [taken]
      omega
  · have stay : (45 :: first :: rest).dropWhile isSpace = 45 :: first :: rest := rfl
    rw [strtol, stay]
    simp only [taken]
    have : Int32.minValue.toInt = -2 ^ 31 := rfl
    omega

/-- The non-empty pieces of the text between delimiters. -/
def words (delimiter : UInt8) (text : List UInt8) : List (List UInt8) :=
  (text.splitOn delimiter).filter (· ≠ [])

@[simp]
theorem words_nil (delimiter : UInt8) : words delimiter [] = [] := by simp [words]

/-- A delimiter separates the words before it from those after it. -/
theorem words_append_delimiter (delimiter : UInt8) (before after : List UInt8) :
    words delimiter (before ++ delimiter :: after) =
      words delimiter before ++ words delimiter after := by
  simp [words, List.splitOn_append_cons_self]

/-- A leading delimiter starts no word. -/
@[simp]
theorem words_delimiter (delimiter : UInt8) (text : List UInt8) :
    words delimiter (delimiter :: text) = words delimiter text := by
  simpa using words_append_delimiter delimiter [] text

/-- Text without delimiters is one word. -/
theorem words_single {delimiter : UInt8} {word : List UInt8} (unbroken : delimiter ∉ word)
    (filled : word ≠ []) : words delimiter word = [word] := by
  simp [words, List.splitOn_eq_singleton unbroken, filled]

/-- Leading delimiters are skipped. -/
theorem words_append_of_all_delimiter {delimiter : UInt8} {lead : List UInt8}
    (all : ∀ byte ∈ lead, byte = delimiter) (text : List UInt8) :
    words delimiter (lead ++ text) = words delimiter text := by
  induction lead with
  | nil => rfl
  | cons byte lead ih =>
    rw [all byte (by simp), List.cons_append, words_delimiter]
    exact ih fun next member => all next (by simp [member])

/-- Text that does not begin with a delimiter begins with a word. -/
theorem words_ne_nil {delimiter head : UInt8} (other : head ≠ delimiter) (tail : List UInt8) :
    words delimiter (head :: tail) ≠ [] := by
  have unbroken : delimiter ∉ (head :: tail).takeWhile (· != delimiter) :=
    fun member => by simpa using List.mem_takeWhile_imp member
  have filled : (head :: tail).takeWhile (· != delimiter) ≠ [] := by simp [other]
  rw [← List.takeWhile_append_dropWhile (p := (· != delimiter)) (l := head :: tail)]
  cases left : (head :: tail).dropWhile (· != delimiter) with
  | nil =>
    rw [List.append_nil, words_single unbroken filled]
    exact List.cons_ne_nil _ _
  | cons stop rest =>
    have stopped : stop = delimiter := by
      have := List.head?_dropWhile_not (· != delimiter) (head :: tail)
      simpa [left] using this
    rw [stopped, words_append_delimiter, words_single unbroken filled]
    exact List.cons_ne_nil _ _

/-- Text without words consists of delimiters. -/
theorem all_delimiter_of_words_eq_nil {delimiter : UInt8} {text : List UInt8}
    (none : words delimiter text = []) : ∀ byte ∈ text, byte = delimiter := by
  induction text with
  | nil => exact fun byte member => absurd member List.not_mem_nil
  | cons head tail ih =>
    by_cases same : head = delimiter
    · subst same
      rw [words_delimiter] at none
      simpa using ih none
    · exact absurd none (words_ne_nil same tail)

/-- Text that does not begin with a delimiter is one word, or a word with a delimiter and other text
behind it. -/
theorem words_cons {delimiter head : UInt8} (other : head ≠ delimiter) (tail : List UInt8) :
    words delimiter (head :: tail) = [head :: tail] ∨ ∃ word rest,
      head :: tail = word ++ delimiter :: rest ∧
        words delimiter (head :: tail) = word :: words delimiter rest := by
  by_cases broken : delimiter ∈ head :: tail
  · refine Or.inr ?_
    obtain ⟨word, rest, whole, unbroken⟩ := List.eq_append_cons_of_mem broken
    have filled : word ≠ [] := by
      rintro rfl
      exact other (List.cons.inj whole).1
    refine ⟨word, rest, whole, ?_⟩
    rw [whole, words_append_delimiter, words_single unbroken filled]
    rfl
  · exact Or.inl (words_single broken (List.cons_ne_nil _ _))

/-- A word stands behind a delimiter or at the start of the text. -/
theorem word_behind {delimiter : UInt8} {text word : List UInt8}
    (member : word ∈ words delimiter text) : delimiter :: word <:+: delimiter :: text := by
  induction size : text.length using Nat.strong_induction_on generalizing text with
  | _ size ih =>
    subst size
    cases text with
    | nil => simp at member
    | cons head tail =>
      by_cases same : head = delimiter
      · subst same
        rw [words_delimiter] at member
        exact (ih tail.length (Nat.lt_succ_self _) member rfl).trans (List.suffix_cons _ _).isInfix
      · rcases words_cons same tail with one | ⟨first, rest, whole, more⟩
        · rw [one, List.mem_singleton] at member
          rw [member]
        · rw [more] at member
          rw [whole]
          rcases List.mem_cons.mp member with rfl | later
          · exact (List.prefix_append (delimiter :: word) (delimiter :: rest)).isInfix
          · have shorter : rest.length < (head :: tail).length := by
              rw [whole, List.length_append, List.length_cons]
              omega
            have inside := ih rest.length shorter later rfl
            exact inside.trans (List.suffix_append (delimiter :: first) (delimiter :: rest)).isInfix

/-- Every word but the first stands behind a delimiter. -/
theorem word_behind_of_tail {delimiter : UInt8} {text word : List UInt8}
    (member : word ∈ (words delimiter text).tail) : delimiter :: word <:+: text := by
  cases text with
  | nil => simp at member
  | cons head tail =>
    by_cases same : head = delimiter
    · subst same
      rw [words_delimiter] at member
      exact word_behind (List.mem_of_mem_tail member)
    · rcases words_cons same tail with one | ⟨first, rest, whole, more⟩
      · rw [one] at member
        cases member
      · rw [more] at member
        rw [whole]
        exact (word_behind member).trans (List.suffix_append first _).isInfix
/-- A `char *` into an object: the bytes of the object and a position in them. -/
structure Cursor where
  /-- Content of the object. -/
  memory : List UInt8
  /-- Position of the pointer. -/
  offset : Nat
deriving DecidableEq

/-- A token: the position of its first byte in the scanned object, and its text. -/
structure Token where
  /-- Position of the first byte. -/
  start : Nat
  /-- The text up to the terminator that ends it. -/
  text : List UInt8
deriving DecidableEq

/-- Position of the terminator that ends the token. -/
def Token.finish (token : Token) : Nat := token.start + token.text.length

namespace Cursor

/-- The string the pointer points at. -/
def text (cursor : Cursor) : List UInt8 := cString (cursor.memory.drop cursor.offset)

/-- Moving the pointer over the front of its string leaves the rest of the string. -/
theorem text_advance (cursor : Cursor) (before after : List UInt8)
    (read : cursor.text = before ++ after) :
    Cursor.text { cursor with offset := cursor.offset + before.length } = after := by
  simpa only [text, List.drop_drop] using cString_drop read

/-- Position of the terminator of that string. -/
def terminator (cursor : Cursor) : Nat := cursor.offset + cursor.text.length

end Cursor

/-- One call of `strtok` with the scan standing at `cursor`: the token found, if any, and the
position saved for the next call. The delimiter that ends the token is overwritten. -/
def strtok (delimiter : UInt8) (cursor : Cursor) : Option Token × Cursor :=
  let lead := cursor.text.takeWhile (· == delimiter)
  let body := cursor.text.dropWhile (· == delimiter)
  let word := body.takeWhile (· != delimiter)
  let start := cursor.offset + lead.length
  if word = [] then (none, { cursor with offset := start })
  else if word.length = body.length then
    (some ⟨start, word⟩, { cursor with offset := start + word.length })
  else
    (some ⟨start, word⟩,
      ⟨cursor.memory.set (start + word.length) 0, start + word.length + 1⟩)

/-- A store before the pointer is not seen through it. -/
theorem drop_set_of_lt {memory : List UInt8} {position offset : Nat} (before : position < offset)
    (value : UInt8) : (memory.set position value).drop offset = memory.drop offset := by
  rw [List.drop_set]
  simp [before]

/-- What one call finds, and where it leaves the scan. -/
inductive StrtokStep (delimiter : UInt8) (cursor : Cursor) : Option Token × Cursor → Prop
  /-- Nothing but delimiters is left. -/
  | none {lead : List UInt8} (all : ∀ byte ∈ lead, byte = delimiter) (read : cursor.text = lead)
      (left : Cursor.text { cursor with offset := cursor.offset + lead.length } = []) :
      StrtokStep delimiter cursor (.none, { cursor with offset := cursor.offset + lead.length })
  /-- The last word ends at the terminator. -/
  | last {lead word : List UInt8} (all : ∀ byte ∈ lead, byte = delimiter) (filled : word ≠ [])
      (unbroken : delimiter ∉ word) (read : cursor.text = lead ++ word)
      (left : Cursor.text
        { cursor with offset := cursor.offset + lead.length + word.length } = []) :
      StrtokStep delimiter cursor (some ⟨cursor.offset + lead.length, word⟩,
        { cursor with offset := cursor.offset + lead.length + word.length })
  /-- A word ends at a delimiter, which is overwritten. -/
  | word {lead word rest : List UInt8} (all : ∀ byte ∈ lead, byte = delimiter)
      (filled : word ≠ []) (unbroken : delimiter ∉ word)
      (read : cursor.text = lead ++ word ++ delimiter :: rest)
      (left : Cursor.text ⟨cursor.memory.set (cursor.offset + lead.length + word.length) 0,
        cursor.offset + lead.length + word.length + 1⟩ = rest) :
      StrtokStep delimiter cursor (some ⟨cursor.offset + lead.length, word⟩,
        ⟨cursor.memory.set (cursor.offset + lead.length + word.length) 0,
          cursor.offset + lead.length + word.length + 1⟩)

/-- Every call is one of these steps. -/
theorem strtok_step (delimiter : UInt8) (cursor : Cursor) :
    StrtokStep delimiter cursor (strtok delimiter cursor) := by
  have split : cursor.text.takeWhile (· == delimiter) ++ cursor.text.dropWhile (· == delimiter) =
      cursor.text := List.takeWhile_append_dropWhile
  have all : ∀ byte ∈ cursor.text.takeWhile (· == delimiter), byte = delimiter :=
    fun byte member => by simpa using List.mem_takeWhile_imp member
  have inner : (cursor.text.dropWhile (· == delimiter)).takeWhile (· != delimiter) ++
      (cursor.text.dropWhile (· == delimiter)).dropWhile (· != delimiter) =
      cursor.text.dropWhile (· == delimiter) := List.takeWhile_append_dropWhile
  have unbroken : delimiter ∉ (cursor.text.dropWhile (· == delimiter)).takeWhile
      (· != delimiter) := fun member => by simpa using List.mem_takeWhile_imp member
  by_cases empty : (cursor.text.dropWhile (· == delimiter)).takeWhile (· != delimiter) = []
  · have whole : cursor.text = cursor.text.takeWhile (· == delimiter) := by
      cases left : cursor.text.dropWhile (· == delimiter) with
      | nil => simpa [left] using split.symm
      | cons head tail =>
        -- the first byte after the delimiters is no delimiter, so it starts a word
        have stopped : (head == delimiter) = false := by
          have := List.head?_dropWhile_not (· == delimiter) cursor.text
          simpa [left] using this
        rw [left] at empty
        simp [bne, stopped] at empty
    have step : strtok delimiter cursor = (.none, { cursor with
        offset := cursor.offset + (cursor.text.takeWhile (· == delimiter)).length }) := by
      simp only [strtok, empty, ↓reduceIte]
    rw [step]
    exact .none all whole (cursor.text_advance _ [] (by simpa using whole))
  · cases left : (cursor.text.dropWhile (· == delimiter)).dropWhile (· != delimiter) with
    | nil =>
      rw [left, List.append_nil] at inner
      have whole := split
      rw [← inner] at whole
      have step : strtok delimiter cursor = (some
          ⟨cursor.offset + (cursor.text.takeWhile (· == delimiter)).length,
            (cursor.text.dropWhile (· == delimiter)).takeWhile (· != delimiter)⟩,
          { cursor with offset := cursor.offset +
            (cursor.text.takeWhile (· == delimiter)).length +
            ((cursor.text.dropWhile (· == delimiter)).takeWhile (· != delimiter)).length }) := by
        rw [inner] at empty
        simp only [strtok, inner, empty, ↓reduceIte]
      rw [step]
      refine .last all empty unbroken whole.symm ?_
      rw [Nat.add_assoc, ← List.length_append]
      exact cursor.text_advance _ [] (by rw [whole, List.append_nil])
    | cons head rest =>
      have stopped : head = delimiter := by
        have := List.head?_dropWhile_not (· != delimiter) (cursor.text.dropWhile (· == delimiter))
        simpa [left] using this
      subst stopped
      have longer : ((cursor.text.dropWhile (· == head)).takeWhile (· != head)).length ≠
          (cursor.text.dropWhile (· == head)).length := by
        have := congrArg List.length inner
        rw [left, List.length_append, List.length_cons] at this
        omega
      have whole : cursor.text = cursor.text.takeWhile (· == head) ++
          (cursor.text.dropWhile (· == head)).takeWhile (· != head) ++ [head] ++ rest := by
        rw [List.append_assoc, List.append_assoc, List.singleton_append, ← left, inner, split]
      have next := cursor.text_advance _ rest whole
      simp only [strtok, empty, ↓reduceIte, longer]
      have read : cursor.text = cursor.text.takeWhile (· == head) ++
          (cursor.text.dropWhile (· == head)).takeWhile (· != head) ++ head :: rest :=
        whole.trans (List.append_assoc _ _ _)
      refine .word all empty unbroken read ?_
      -- the delimiter overwritten lies before the saved position
      rw [Cursor.text, drop_set_of_lt (Nat.lt_succ_self _)]
      simp only [Cursor.text, List.length_append, List.length_singleton, ← Nat.add_assoc] at next
      exact next

/-- The token returned is the next word, and the words left for the next call are the others. -/
theorem strtok_words (delimiter : UInt8) (cursor : Cursor) :
    (strtok delimiter cursor).1.map Token.text = (words delimiter cursor.text).head? ∧
      words delimiter (strtok delimiter cursor).2.text = (words delimiter cursor.text).tail := by
  have step := strtok_step delimiter cursor
  generalize strtok delimiter cursor = result at step ⊢
  cases step with
  | none all read left =>
    rw [left, ← List.append_nil (cursor.text), read, words_append_of_all_delimiter all]
    simp
  | last all filled unbroken read left =>
    rw [left, read, words_append_of_all_delimiter all, words_single unbroken filled]
    simp
  | word all filled unbroken read left =>
    rw [left, read, List.append_assoc, words_append_of_all_delimiter all, words_append_delimiter,
      words_single unbroken filled]
    simp

/-- A string is a string until its terminator, whatever follows it. -/
theorem cString_drop_congr {left right : List UInt8} {start end_ : Nat}
    (same : left.take end_ = right.take end_) (ended : (0 : UInt8) ∈ (right.take end_).drop start) :
    cString (left.drop start) = cString (right.drop start) := by
  have cut : ∀ memory : List UInt8, (0 : UInt8) ∈ (memory.take end_).drop start →
      cString (memory.drop start) = cString ((memory.take end_).drop start) := by
    intro memory inside
    by_cases before : start ≤ end_
    · conv_lhs => rw [← List.take_append_drop end_ memory]
      rw [List.drop_append, cString_append_of_mem inside]
    · rw [List.drop_eq_nil_of_le (by rw [List.length_take]; omega)] at inside
      exact absurd inside List.not_mem_nil
  rw [cut left (same ▸ ended), cut right ended, same]

/-- A scan has gone forward inside its string: the string still ends where it did, and memory
has changed only between the two. -/
structure Cursor.Advances (before after : Cursor) : Prop where
  /-- The position does not go back. -/
  forward : before.offset ≤ after.offset
  /-- The string ends where it did. -/
  terminator : after.terminator = before.terminator
  /-- Memory before the scan is as it was. -/
  front : after.memory.take before.offset = before.memory.take before.offset
  /-- Memory from the terminator on is as it was. -/
  back : after.memory.drop before.terminator = before.memory.drop before.terminator

namespace Cursor.Advances

/-- A scan that stands still. -/
theorem refl (cursor : Cursor) : cursor.Advances cursor := ⟨Nat.le_refl _, rfl, rfl, rfl⟩

/-- One scan after the other. -/
theorem trans {first second third : Cursor} (left : first.Advances second)
    (right : second.Advances third) : first.Advances third where
  forward := left.forward.trans right.forward
  terminator := right.terminator.trans left.terminator
  front := by
    have kept := congrArg (List.take first.offset) right.front
    rw [List.take_take, List.take_take, Nat.min_eq_left left.forward, left.front] at kept
    exact kept
  back := by rw [← left.back, ← left.terminator, right.back]

end Cursor.Advances

/-- A call advances. -/
theorem strtok_advances (delimiter : UInt8) (cursor : Cursor) :
    cursor.Advances (strtok delimiter cursor).2 := by
  have step := strtok_step delimiter cursor
  generalize strtok delimiter cursor = result at step ⊢
  cases step with
  | none all read left =>
    refine ⟨Nat.le_add_right _ _, ?_, rfl, rfl⟩
    rw [Cursor.terminator, Cursor.terminator, left, read]
    rfl
  | last all filled unbroken read left =>
    refine ⟨by simp only; omega, ?_, rfl, rfl⟩
    rw [Cursor.terminator, Cursor.terminator, left, read, List.length_append]
    simp only [List.length_nil]
    omega
  | @word lead word rest all filled unbroken read left =>
    have size := congrArg List.length read
    simp only [List.length_append, List.length_cons] at size
    refine ⟨by simp only; omega, ?_, ?_, ?_⟩
    · rw [Cursor.terminator, Cursor.terminator, left]
      simp only
      omega
    · rw [List.take_set_of_le (by omega)]
    · rw [drop_set_of_lt (by rw [Cursor.terminator]; omega)]

/-- A token lies between the old and the new position, inside the string, and the pointer to it
reads as the token whatever the later calls do. -/
theorem strtok_token {delimiter : UInt8} {cursor final : Cursor} {token : Token}
    (found : (strtok delimiter cursor).1 = some token)
    (later : (strtok delimiter cursor).2.Advances final) :
    cursor.offset ≤ token.start ∧ token.finish ≤ cursor.terminator ∧ NulFree token.text ∧
      token.text ≠ [] ∧ cString (final.memory.drop token.start) = token.text := by
  have clean := cString_nulFree (cursor.memory.drop cursor.offset)
  have step := strtok_step delimiter cursor
  generalize strtok delimiter cursor = result at step found later
  cases step with
  | none => cases found
  | @last lead word all filled unbroken read left =>
    cases found
    have size := congrArg List.length read
    rw [List.length_append] at size
    have end_ : cursor.offset + lead.length + word.length = cursor.terminator := by
      rw [Cursor.terminator]
      omega
    -- nothing is left to write to
    have unchanged : final.memory = cursor.memory := by
      have front := later.front
      have back := later.back
      rw [Cursor.terminator, left] at back
      simp only [List.length_nil, Nat.add_zero] at front back
      rw [← List.take_append_drop (cursor.offset + lead.length + word.length) final.memory, front,
        back, List.take_append_drop]
    have text := cursor.text_advance lead word read
    refine ⟨Nat.le_add_right _ _, Nat.le_of_eq end_, ?_, filled, ?_⟩
    · intro member
      exact clean (by rw [← Cursor.text, read]; exact List.mem_append_right _ member)
    · rw [unchanged]
      exact text
  | @word lead word rest all filled unbroken read left =>
    cases found
    have size := congrArg List.length read
    simp only [List.length_append, List.length_cons] at size
    have text := cursor.text_advance lead (word ++ delimiter :: rest) (by
      rw [read, List.append_assoc])
    have free : NulFree word := by
      intro member
      exact clean (by rw [← Cursor.text, read]; simp [member])
    refine ⟨Nat.le_add_right _ _, ?_, free, filled, ?_⟩
    · simp only [Token.finish, Cursor.terminator]
      omega
    · obtain ⟨tail, stored⟩ : ∃ tail,
          cursor.memory.drop (cursor.offset + lead.length) = word ++ delimiter :: tail := by
        refine ⟨rest ++ (cursor.memory.drop (cursor.offset + lead.length)).dropWhile (· != 0), ?_⟩
        have whole : cString (cursor.memory.drop (cursor.offset + lead.length)) ++ _ = _ :=
          List.takeWhile_append_dropWhile
        rw [show cString _ = _ from text, List.append_assoc, List.cons_append] at whole
        exact whole.symm
      have ended : (cursor.memory.set (cursor.offset + lead.length + word.length) 0).drop
          (cursor.offset + lead.length) = word ++ 0 :: tail := by
        rw [List.drop_set, if_neg (by omega), stored, Nat.add_sub_cancel_left,
          List.set_append_right _ _ (Nat.le_refl _), Nat.sub_self, List.set_cons_zero]
      rw [cString_drop_congr later.front, ended, cString_terminated free]
      have width : cursor.offset + lead.length + word.length + 1 -
          (cursor.offset + lead.length) = word.length + 1 := by omega
      rw [List.drop_take, ended, width, List.take_length_add_append]
      simp

end FileServer.Lib
