import FileServer.Lib.CString

/-!
# Numerals at the start of a text

What `strtol` takes for a number: white space, a sign and digits at the start of a text, whatever
follows. `LeadingNumeral` says so as a grammar, without a scan, and a text without a numeral has the
value zero in it. `strtol` returns this value within the bounds of a 64-bit `long`.
-/
namespace FileServer.Lib

/-- A sign, or none. -/
def IsSign (sign : List UInt8) : Prop := sign = [] ∨ sign = [43] ∨ sign = [45]

/-- White space, a sign and the first digit of a numeral. -/
structure StartsNumeral (base : Nat) (lead sign : List UInt8) (digit : UInt8) : Prop where
  /-- The white space. -/
  white : ∀ byte ∈ lead, isSpace byte = true
  /-- The sign. -/
  signed : IsSign sign
  /-- The digit. -/
  digit : digitValue digit < base

/-- The value of a numeral. -/
def signedValue (base : Nat) (sign digits : List UInt8) : Int :=
  if sign = [45] then -(digitsValue base digits : Int) else digitsValue base digits

/-- The value of the numeral at the start of a text. -/
inductive LeadingNumeral (base : Nat) : List UInt8 → Int → Prop
  /-- All digits are taken. -/
  | numeral {lead sign later rest : List UInt8} {digit : UInt8}
    (starts : StartsNumeral base lead sign digit) (digits : ∀ byte ∈ later, digitValue byte < base)
    (ends : ∀ byte, rest.head? = some byte → base ≤ digitValue byte) :
    LeadingNumeral base (lead ++ sign ++ digit :: (later ++ rest))
      (signedValue base sign (digit :: later))
  /-- There is none. -/
  | none {text : List UInt8} (absent : ∀ lead sign digit rest, StartsNumeral base lead sign digit →
      text ≠ lead ++ sign ++ digit :: rest) : LeadingNumeral base text 0

/-- A value within the bounds of a 64-bit `long`. -/
def longOf (value : Int) : Int := max (min value (2 ^ 63 - 1)) (-2 ^ 63)

variable {base : Nat}

/-- A digit is no white space and no sign. -/
theorem digit_apart {byte : UInt8} (small : base ≤ 36) (digit : digitValue byte < base) :
    isSpace byte = false ∧ byte ≠ 43 ∧ byte ≠ 45 := by
  have from_ : 48 ≤ byte := by
    unfold digitValue at digit
    split at digit
    · rename_i decimal
      exact decimal.1
    · split at digit
      · rename_i lower
        exact UInt8.le_trans (by decide) lower.1
      · split at digit
        · rename_i upper
          exact UInt8.le_trans (by decide) upper.1
        · omega
  refine ⟨isSpace_digit from_, ?_, ?_⟩
  · rintro rfl
    exact absurd from_ (by decide)
  · rintro rfl
    exact absurd from_ (by decide)

/-- What is left of a numeral without its white space. -/
theorem StartsNumeral.dropWhile {lead sign : List UInt8} {digit : UInt8}
    (starts : StartsNumeral base lead sign digit) (small : base ≤ 36) (rest : List UInt8) :
    (lead ++ sign ++ digit :: rest).dropWhile isSpace = sign ++ digit :: rest := by
  obtain ⟨solid, -, -⟩ := digit_apart small starts.digit
  rw [List.append_assoc, List.dropWhile_append_of_pos starts.white]
  obtain rfl | rfl | rfl := starts.signed
  · exact List.dropWhile_cons_of_neg (by simp [solid])
  · exact List.dropWhile_cons_of_neg (by decide)
  · exact List.dropWhile_cons_of_neg (by decide)

/-- The digits of a numeral are all those at its start. -/
theorem leadingDigits_numeral {digits rest : List UInt8} (all : ∀ byte ∈ digits, digitValue byte < base)
    (ends : ∀ byte, rest.head? = some byte → base ≤ digitValue byte) :
    leadingDigits base (digits ++ rest) = digits := by
  unfold leadingDigits
  rw [List.takeWhile_append_of_pos fun byte member => decide_eq_true (all byte member)]
  cases rest with
  | nil => exact List.append_nil digits
  | cons byte later =>
    have big := ends byte rfl
    rw [List.takeWhile_cons_of_neg (by simpa using big), List.append_nil]

/-- `strtol` on white space, a sign and a digit. -/
theorem strtol_of_starts {lead sign : List UInt8} {digit : UInt8} {rest : List UInt8}
    (starts : StartsNumeral base lead sign digit) (small : base ≤ 36) :
    strtol base (lead ++ sign ++ digit :: rest) =
      longOf (signedValue base sign (leadingDigits base (digit :: rest))) := by
  obtain ⟨-, noPlus, noMinus⟩ := digit_apart small starts.digit
  unfold strtol
  rw [starts.dropWhile small]
  obtain rfl | rfl | rfl := starts.signed
  · split
    · rename_i same
      exact absurd (List.cons.inj same).1 noMinus
    · rename_i same
      exact absurd (List.cons.inj same).1 noPlus
    · show _ = longOf (digitsValue base (leadingDigits base (digit :: rest)) : Int)
      unfold longOf
      rw [List.nil_append]
      omega
  · show min (digitsValue base (leadingDigits base (digit :: rest)) : Int) (2 ^ 63 - 1) =
      longOf (digitsValue base (leadingDigits base (digit :: rest)) : Int)
    unfold longOf
    omega
  · show max (-(digitsValue base (leadingDigits base (digit :: rest)) : Int)) (-2 ^ 63) =
      longOf (-(digitsValue base (leadingDigits base (digit :: rest)) : Int))
    unfold longOf
    omega

/-- Where there is no numeral, no digit follows the white space and the sign. -/
theorem leadingDigits_of_absent {text unsigned : List UInt8} {sign : List UInt8}
    (absent : ∀ lead sign digit rest, StartsNumeral base lead sign digit →
      text ≠ lead ++ sign ++ digit :: rest)
    (signed : IsSign sign) (start : text.dropWhile isSpace = sign ++ unsigned) :
    leadingDigits base unsigned = [] := by
  cases unsigned with
  | nil => rfl
  | cons digit rest =>
    have whole : text = text.takeWhile isSpace ++ sign ++ digit :: rest := by
      rw [List.append_assoc, ← start, List.takeWhile_append_dropWhile]
    unfold leadingDigits
    rw [List.takeWhile_cons_of_neg]
    intro small
    exact absent _ _ _ _ ⟨fun byte member => List.mem_takeWhile_imp member, signed,
      of_decide_eq_true small⟩ whole

/-- `strtol` returns the value of the numeral at the start of the text. -/
theorem strtol_of_leadingNumeral (small : base ≤ 36) {text : List UInt8} {value : Int}
    (leads : LeadingNumeral base text value) : strtol base text = longOf value := by
  cases leads with
  | @numeral lead sign later rest digit starts digits ends =>
    have all : ∀ byte ∈ digit :: later, digitValue byte < base := by
      intro byte member
      rcases List.mem_cons.mp member with rfl | inside
      · exact starts.digit
      · exact digits byte inside
    rw [strtol_of_starts starts small, ← List.cons_append, leadingDigits_numeral all ends]
  | none absent =>
    have empty : strtol base text = 0 := by
      unfold strtol
      split
      · rename_i rest start
        have gone : leadingDigits base rest = [] :=
          leadingDigits_of_absent absent (.inr (.inr rfl)) start
        rw [gone]
        rfl
      · rename_i rest start
        have gone : leadingDigits base rest = [] :=
          leadingDigits_of_absent absent (.inr (.inl rfl)) start
        rw [gone]
        rfl
      · rw [leadingDigits_of_absent absent (.inl rfl) rfl]
        rfl
    exact empty

/-- Every text has a value. -/
theorem exists_leadingNumeral (base : Nat) (text : List UInt8) :
    ∃ value, LeadingNumeral base text value := by
  by_cases found : ∃ lead sign digit rest, StartsNumeral base lead sign digit ∧
      text = lead ++ sign ++ digit :: rest
  · obtain ⟨lead, sign, digit, rest, starts, rfl⟩ := found
    have digits : ∀ byte ∈ leadingDigits base rest, digitValue byte < base := by
      intro byte member
      have taken : byte ∈ rest.takeWhile (digitValue · < base) := member
      simpa using List.mem_takeWhile_imp taken
    have ends : ∀ byte, (rest.dropWhile (digitValue · < base)).head? = some byte →
        base ≤ digitValue byte := by
      intro byte next
      have stops := List.head?_dropWhile_not (digitValue · < base) rest
      rw [next] at stops
      simpa using stops
    have numeral := LeadingNumeral.numeral starts digits ends
    have whole : leadingDigits base rest ++ rest.dropWhile (digitValue · < base) = rest :=
      List.takeWhile_append_dropWhile
    rw [whole] at numeral
    exact ⟨_, numeral⟩
  · push Not at found
    exact ⟨0, .none found⟩

/-- A text that is a numeral has its value. -/
theorem leadingNumeral_whole {sign digits : List UInt8} (signed : IsSign sign) (filled : digits ≠ [])
    (all : ∀ byte ∈ digits, digitValue byte < base) :
    LeadingNumeral base (sign ++ digits) (signedValue base sign digits) := by
  obtain ⟨digit, later, rfl⟩ := List.exists_cons_of_ne_nil filled
  have starts : StartsNumeral base [] sign digit :=
    ⟨fun _ => nofun, signed, all digit List.mem_cons_self⟩
  have numeral := LeadingNumeral.numeral starts
    (fun byte member => all byte (List.mem_cons_of_mem digit member))
    (show ∀ byte, ([] : List UInt8).head? = some byte → base ≤ digitValue byte from fun _ => nofun)
  rw [List.append_nil] at numeral
  exact numeral

/-- A decimal digit is one in base ten. -/
theorem digitValue_decimal {digit : UInt8} (decimal : 48 ≤ digit ∧ digit ≤ 57) :
    digitValue digit < 10 := by
  unfold digitValue
  rw [if_pos decimal]
  have upTo := UInt8.le_iff_toNat_le.mp decimal.2
  have nine : (57 : UInt8).toNat = 57 := rfl
  omega

end FileServer.Lib
