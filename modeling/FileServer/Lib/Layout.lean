import Mathlib.Algebra.Group.Int.Defs
import Mathlib.Algebra.Group.Nat.Defs
import Mathlib.Data.List.Basic

/-!
# Memory layouts of fixed-size values

A layout gives the bytes that a value of a fixed-size type occupies in memory. Every image
of the right length is the image of exactly one value: padding bytes are data of the value,
so writing a value and reading it back, or reading an image and writing it back, are both
the identity. Products, words and character arrays derive both laws from those of their
parts, and a structure obtains its layout from the product of its fields.
-/
namespace FileServer.Lib

/-- The memory image of a fixed-size type, with both directions of the correspondence. -/
structure Layout (α : Type) where
  /-- Bytes occupied by every value. -/
  size : Nat
  /-- The image of a value, lowest address first. -/
  encode : α → List UInt8
  /-- The value whose image starts the bytes. -/
  decode : List UInt8 → α
  /-- Every image has the declared size. -/
  length_encode : ∀ value, (encode value).length = size
  /-- An image reads back as its value, whatever follows it in memory. -/
  decode_encode : ∀ value rest, decode (encode value ++ rest) = value
  /-- Bytes that are long enough are the image of the value read from them. -/
  encode_decode : ∀ bytes, size ≤ bytes.length → encode (decode bytes) = bytes.take size

namespace Layout

variable {α β : Type}

attribute [simp] length_encode decode_encode

/-- An image with nothing after it reads back as its value. -/
@[simp]
theorem decode_encode_self (layout : Layout α) (value : α) :
    layout.decode (layout.encode value) = value := by
  simpa using layout.decode_encode value []

/-- An image is found again at the front of any bytes it starts. -/
@[simp]
theorem take_encode (layout : Layout α) (value : α) (rest : List UInt8) :
    (layout.encode value ++ rest).take layout.size = layout.encode value :=
  List.take_left' (layout.length_encode value)

/-- Dropping an image leaves what follows it. -/
@[simp]
theorem drop_encode (layout : Layout α) (value : α) (rest : List UInt8) :
    (layout.encode value ++ rest).drop layout.size = rest :=
  List.drop_left' (layout.length_encode value)

/-- A value is decoded from the bytes of its image. -/
theorem decode_take (layout : Layout α) {bytes : List UInt8} (long : layout.size ≤ bytes.length) :
    layout.decode (bytes.take layout.size) = layout.decode bytes := by
  rw [← layout.encode_decode bytes long, decode_encode_self]

/-- Two values one after the other. -/
def pair (left : Layout α) (right : Layout β) : Layout (α × β) where
  size := left.size + right.size
  encode value := left.encode value.1 ++ right.encode value.2
  decode bytes := (left.decode bytes, right.decode (bytes.drop left.size))
  length_encode value := by simp
  decode_encode value rest := by simp [List.append_assoc]
  encode_decode bytes long := by
    rw [left.encode_decode bytes (by omega),
      right.encode_decode _ (by rw [List.length_drop]; omega), ← List.take_add]

/-- A structure occupies the bytes of the product of its fields. -/
def map (layout : Layout α) (pack : α → β) (unpack : β → α)
    (packed : ∀ value, pack (unpack value) = value)
    (unpacked : ∀ value, unpack (pack value) = value) : Layout β where
  size := layout.size
  encode value := layout.encode (unpack value)
  decode bytes := pack (layout.decode bytes)
  length_encode value := layout.length_encode _
  decode_encode value rest := by rw [layout.decode_encode, packed]
  encode_decode bytes long := by rw [unpacked, layout.encode_decode bytes long]

/-- One byte. -/
def byte : Layout UInt8 where
  size := 1
  encode value := [value]
  decode bytes := bytes.headD 0
  length_encode _ := rfl
  decode_encode _ _ := rfl
  encode_decode
    | [], long => absurd long (by simp)
    | _ :: _, _ => rfl

/-- The four base-256 digits of a word, least significant first. -/
def wordBytes (word : UInt32) : List UInt8 :=
  [UInt8.ofNat word.toNat, UInt8.ofNat (word.toNat / 256), UInt8.ofNat (word.toNat / 65536),
    UInt8.ofNat (word.toNat / 16777216)]

/-- The word whose digits start the bytes. -/
def bytesWord (bytes : List UInt8) : UInt32 :=
  UInt32.ofNat ((bytes.getD 0 0).toNat + 256 * (bytes.getD 1 0).toNat +
    65536 * (bytes.getD 2 0).toNat + 16777216 * (bytes.getD 3 0).toNat)

/-- The digits of a word are read back as the word. -/
theorem bytesWord_wordBytes (word : UInt32) (rest : List UInt8) :
    bytesWord (wordBytes word ++ rest) = word := by
  have bound := word.toNat_lt
  apply UInt32.toNat_inj.mp
  simp only [bytesWord, wordBytes, List.cons_append, List.nil_append, List.getD_cons_zero,
    List.getD_cons_succ, UInt8.toNat_ofNat', UInt32.toNat_ofNat']
  omega

/-- Four bytes are the digits of the word they form. -/
theorem wordBytes_bytesWord (b₀ b₁ b₂ b₃ : UInt8) (rest : List UInt8) :
    wordBytes (bytesWord (b₀ :: b₁ :: b₂ :: b₃ :: rest)) = [b₀, b₁, b₂, b₃] := by
  have h₀ := b₀.toNat_lt
  have h₁ := b₁.toNat_lt
  have h₂ := b₂.toNat_lt
  have h₃ := b₃.toNat_lt
  simp only [wordBytes, bytesWord, List.getD_cons_zero, List.getD_cons_succ,
    UInt32.toNat_ofNat', List.cons.injEq, and_true]
  refine ⟨?_, ?_, ?_, ?_⟩ <;>
    · apply UInt8.toNat_inj.mp
      simp only [UInt8.toNat_ofNat']
      omega

/-- A 32-bit word in little-endian order. -/
def word32 : Layout UInt32 where
  size := 4
  encode := wordBytes
  decode := bytesWord
  length_encode _ := rfl
  decode_encode := bytesWord_wordBytes
  encode_decode
    | [], long => absurd long (by simp)
    | [_], long => absurd long (by simp)
    | [_, _], long => absurd long (by simp)
    | [_, _, _], long => absurd long (by simp)
    | b₀ :: b₁ :: b₂ :: b₃ :: rest, _ => by
      rw [wordBytes_bytesWord]
      rfl

/-- A 64-bit word, its low half first. -/
def word64 : Layout UInt64 :=
  (word32.pair word32).map
    (fun halves => UInt64.ofNat (halves.1.toNat + 2 ^ 32 * halves.2.toNat))
    (fun word => (UInt32.ofNat word.toNat, UInt32.ofNat (word.toNat / 2 ^ 32)))
    (fun word => by
      have bound := word.toNat_lt
      apply UInt64.toNat_inj.mp
      simp only [UInt64.toNat_ofNat', UInt32.toNat_ofNat']
      omega)
    (fun halves => by
      obtain ⟨low, high⟩ := halves
      have below := low.toNat_lt
      have above := high.toNat_lt
      apply Prod.ext
      · apply UInt32.toNat_inj.mp
        simp only [UInt64.toNat_ofNat', UInt32.toNat_ofNat']
        omega
      · apply UInt32.toNat_inj.mp
        simp only [UInt64.toNat_ofNat', UInt32.toNat_ofNat']
        omega)

/-- The values of an array, one after the other. -/
def encodeList (layout : Layout α) (values : List α) : List UInt8 := values.flatMap layout.encode

/-- An array of known length read from memory. -/
def decodeList (layout : Layout α) : Nat → List UInt8 → List α
  | 0, _ => []
  | count + 1, bytes => layout.decode bytes :: layout.decodeList count (bytes.drop layout.size)

@[simp]
theorem length_decodeList (layout : Layout α) (count : Nat) (bytes : List UInt8) :
    (layout.decodeList count bytes).length = count := by
  induction count generalizing bytes with
  | zero => rfl
  | succ count ih => simp [decodeList, ih]

@[simp]
theorem length_encodeList (layout : Layout α) (values : List α) :
    (layout.encodeList values).length = values.length * layout.size := by
  induction values with
  | nil => simp [encodeList]
  | cons value rest ih =>
    rw [encodeList, List.flatMap_cons, List.length_append, length_encode, ← encodeList, ih,
      List.length_cons, Nat.succ_mul, Nat.add_comm]

/-- The front of an array is read back, and the rest from where it lies. -/
theorem decodeList_append (layout : Layout α) (values : List α) (count : Nat)
    (bytes : List UInt8) :
    layout.decodeList (values.length + count) (layout.encodeList values ++ bytes) =
      values ++ layout.decodeList count bytes := by
  induction values with
  | nil => simp [encodeList]
  | cons value values ih =>
    have length : (value :: values).length + count = values.length + count + 1 := by
      rw [List.length_cons]
      omega
    rw [length, encodeList, List.flatMap_cons, List.append_assoc, ← encodeList, decodeList,
      decode_encode, drop_encode, ih, List.cons_append]

/-- An array reads back as its values, whatever follows it in memory. -/
@[simp]
theorem decodeList_encodeList (layout : Layout α) (values : List α) (rest : List UInt8) :
    layout.decodeList values.length (layout.encodeList values ++ rest) = values := by
  have whole := decodeList_append layout values 0 rest
  rwa [Nat.add_zero, decodeList, List.append_nil] at whole

end Layout

/-- A `char[n]` object: its bytes, of which there are always `n`. -/
structure CharArray (n : Nat) where
  /-- Bytes from the lowest address. -/
  bytes : List UInt8
  /-- The object has its declared size. -/
  length_bytes : bytes.length = n
deriving DecidableEq

namespace CharArray

attribute [simp] length_bytes

/-- Two arrays with the same bytes are equal. -/
@[ext]
theorem ext {n : Nat} {left right : CharArray n} (same : left.bytes = right.bytes) :
    left = right := by
  cases left
  cases right
  congr

/-- The array cleared by `memset` with zero. -/
def zero (n : Nat) : CharArray n := ⟨List.replicate n 0, by simp⟩

/-- The first `n` bytes of some memory, cleared bytes standing for missing ones. -/
def ofBytes (n : Nat) (bytes : List UInt8) : CharArray n :=
  ⟨(bytes ++ List.replicate n 0).take n, by simp⟩

/-- Enough bytes are kept as they are. -/
theorem ofBytes_of_le {n : Nat} {bytes : List UInt8} (long : n ≤ bytes.length) :
    (ofBytes n bytes).bytes = bytes.take n :=
  List.take_append_of_le_length long

/-- A character array occupies its own bytes. -/
def layout (n : Nat) : Layout (CharArray n) where
  size := n
  encode := bytes
  decode := ofBytes n
  length_encode := length_bytes
  decode_encode value rest := by
    apply CharArray.ext
    rw [ofBytes_of_le (by simp), List.take_left' value.length_bytes]
  encode_decode _ long := ofBytes_of_le long

end CharArray

/-- Memory after `new` has been stored at `offset`. -/
def overwrite (memory : List UInt8) (offset : Nat) (new : List UInt8) : List UInt8 :=
  memory.take offset ++ new ++ memory.drop (offset + new.length)

/-- A store inside the memory keeps its extent. -/
theorem length_overwrite {memory : List UInt8} {offset : Nat} {new : List UInt8}
    (inside : offset + new.length ≤ memory.length) :
    (overwrite memory offset new).length = memory.length := by
  simp only [overwrite, List.length_append, List.length_take, List.length_drop]
  omega

/-- Nothing stored changes nothing. -/
@[simp]
theorem overwrite_nil (memory : List UInt8) (offset : Nat) : overwrite memory offset [] = memory := by
  simp [overwrite]

/-- A store at the end of some memory goes on with it. -/
theorem overwrite_length (memory new : List UInt8) :
    overwrite memory memory.length new = memory ++ new := by
  simp [overwrite]

/-- What is stored lies in the memory afterwards. -/
theorem le_length_overwrite {memory : List UInt8} {offset : Nat} (inside : offset ≤ memory.length)
    (new : List UInt8) : offset + new.length ≤ (overwrite memory offset new).length := by
  simp only [overwrite, List.length_append, List.length_take_of_le inside]
  omega

/-- A second store goes on where the first one has stopped. -/
theorem overwrite_overwrite {memory : List UInt8} {offset : Nat} (inside : offset ≤ memory.length)
    (first second : List UInt8) :
    overwrite (overwrite memory offset first) (offset + first.length) second =
      overwrite memory offset (first ++ second) := by
  have front : (memory.take offset ++ first).length = offset + first.length := by
    rw [List.length_append, List.length_take_of_le inside]
  have keeps : ∀ rest : List UInt8,
      ((memory.take offset ++ first) ++ rest).take (offset + first.length) =
        memory.take offset ++ first := by
    intro rest
    rw [← front, List.take_left]
  have drops : ∀ rest : List UInt8, ((memory.take offset ++ first) ++ rest).drop
      (offset + first.length + second.length) = rest.drop second.length := by
    intro rest
    rw [← front, List.drop_length_add_append]
  unfold overwrite
  rw [keeps, drops, List.drop_drop, List.length_append, List.append_assoc _ first second,
    Nat.add_assoc]

/-- A store changes nothing exactly if it stores what is there. -/
theorem overwrite_eq_self_iff {memory : List UInt8} {offset : Nat} (new : List UInt8) :
    overwrite memory offset new = memory ↔ new <+: memory.drop offset := by
  have split : overwrite memory offset new =
      memory.take offset ++ (new ++ (memory.drop offset).drop new.length) := by
    rw [overwrite, List.append_assoc, List.drop_drop]
  rw [split]
  conv_lhs => rhs; rw [← List.take_append_drop offset memory]
  rw [List.append_cancel_left_eq]
  constructor
  · exact fun same => ⟨_, same⟩
  · rintro ⟨rest, same⟩
    rw [← same, List.drop_left]

/-- A store after the front of some memory replaces what it covers. -/
theorem overwrite_after (front rest new : List UInt8) :
    overwrite (front ++ rest) front.length new = front ++ (new ++ rest.drop new.length) := by
  simp [overwrite, List.append_assoc, List.drop_append]

/-- A store that covers the front of some memory and goes on behind it. -/
theorem overwrite_through {front new : List UInt8} (same : new.length = front.length)
    (rest more : List UInt8) :
    overwrite (front ++ rest) 0 (new ++ more) = new ++ overwrite rest 0 more := by
  simp only [overwrite, List.take_zero, List.nil_append, Nat.zero_add, List.length_append, same,
    List.append_assoc]
  rw [List.drop_append, List.drop_eq_nil_of_le (Nat.le_add_right _ _), Nat.add_sub_cancel_left,
    List.nil_append]

/-- A store behind the front of some memory keeps the front. -/
theorem overwrite_behind (front memory new : List UInt8) (offset : Nat) :
    overwrite (front ++ memory) (front.length + offset) new =
      front ++ overwrite memory offset new := by
  simp only [overwrite, List.take_append, List.drop_append, List.append_assoc]
  rw [List.take_of_length_le (by omega), List.drop_eq_nil_of_le (by omega)]
  simp only [Nat.add_sub_cancel_left, List.nil_append, Nat.add_assoc]

/-- The front of some memory after a store that begins in it. -/
theorem take_overwrite (memory rest new : List UInt8) {offset : Nat}
    (inside : offset ≤ memory.length) :
    (overwrite (memory ++ rest) offset new).take memory.length =
      overwrite memory offset (new.take (memory.length - offset)) := by
  have front : (memory.take offset).length = offset := List.length_take_of_le inside
  unfold overwrite
  rw [List.take_append_of_le_length inside, List.append_assoc, List.append_assoc,
    List.take_append, front, List.take_of_length_le (by omega), List.append_cancel_left_eq,
    List.take_append, List.append_cancel_left_eq, List.length_take]
  rcases Nat.le_total new.length (memory.length - offset) with short | long
  · rw [Nat.min_eq_right short, List.drop_append_of_le_length (by omega),
      List.take_append_of_le_length (by rw [List.length_drop]; omega),
      List.take_of_length_le (by rw [List.length_drop]; omega)]
  · rw [Nat.min_eq_left long, Nat.sub_eq_zero_of_le long, List.take_zero,
      List.drop_eq_nil_of_le (by omega)]

/-- A store into the middle part of some memory changes that part only. -/
theorem overwrite_append (before memory after : List UInt8) (offset : Nat) (new : List UInt8)
    (inside : offset + new.length ≤ memory.length) :
    overwrite (before ++ (memory ++ after)) (before.length + offset) new =
      before ++ (overwrite memory offset new ++ after) := by
  have front : offset ≤ memory.length := by omega
  simp only [overwrite, List.take_append, List.drop_append, List.append_assoc]
  rw [List.take_of_length_le (by omega), List.drop_eq_nil_of_le (by omega)]
  simp only [Nat.add_sub_cancel_left, Nat.sub_eq_zero_of_le front, List.take_zero,
    List.nil_append]
  rw [show before.length + offset + new.length - before.length = offset + new.length by omega,
    Nat.sub_eq_zero_of_le inside, List.drop_zero]

end FileServer.Lib
