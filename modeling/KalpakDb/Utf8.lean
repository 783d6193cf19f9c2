import Mathlib

namespace KalpakDb.Utf8

/-!
# UTF-8 text in byte files

A text is a list of characters.  Its bytes determine it, also in front of
other bytes: where some bytes of a text are a text again, they are a front
part of its characters.
-/

/-- The bytes of a text. -/
def encode (text : List Char) : List UInt8 :=
  text.flatMap String.utf8EncodeChar

/-- The character at the front of some bytes. -/
def decodeChar? (bytes : List UInt8) : Option Char :=
  (bytes.take 4).toByteArray.utf8DecodeChar? 0

def decodeChars : Nat → List UInt8 → Option (List Char)
  | _, [] => some []
  | 0, _ :: _ => none
  | fuel + 1, byte :: rest =>
      match decodeChar? (byte :: rest) with
      | none => none
      | some char =>
          (decodeChars fuel ((byte :: rest).drop char.utf8Size)).map
            (char :: ·)

/-- The text some bytes are, if they are valid UTF-8. -/
def decode (bytes : List UInt8) : Option (List Char) :=
  decodeChars bytes.length bytes

/-- The characters with the Unicode property White_Space. -/
def isWhitespace (char : Char) : Bool :=
  let code := char.toNat
  (9 ≤ code && code ≤ 13) || code == 0x20 || code == 0x85 || code == 0xA0 ||
    code == 0x1680 || (0x2000 ≤ code && code ≤ 0x200A) || code == 0x2028 ||
    code == 0x2029 || code == 0x202F || code == 0x205F || code == 0x3000

def trimEnd (text : List Char) : List Char := text.rdropWhile isWhitespace

section Encoding

variable {text : List Char} {bytes : List UInt8} {char : Char}

@[simp] theorem encode_nil : encode [] = [] := rfl

theorem encode_cons (char : Char) (text : List Char) :
    encode (char :: text) = String.utf8EncodeChar char ++ encode text := rfl

@[simp] theorem encode_append (first second : List Char) :
    encode (first ++ second) = encode first ++ encode second :=
  List.flatMap_append

theorem length_utf8EncodeChar_pos (char : Char) :
    0 < (String.utf8EncodeChar char).length := by
  rw [String.length_utf8EncodeChar]
  exact Char.utf8Size_pos char

theorem decodeChar?_encode (char : Char) (rest : List UInt8) :
    decodeChar? (String.utf8EncodeChar char ++ rest) = some char := by
  have short : (String.utf8EncodeChar char).length ≤ 4 := by
    rw [String.length_utf8EncodeChar]
    exact Char.utf8Size_le_four char
  rw [decodeChar?, List.take_append, List.take_of_length_le short,
    List.toByteArray_append]
  exact ByteArray.utf8DecodeChar?_utf8EncodeChar_append

theorem decodeChars_encode
    (fuel : Nat)
    (enough : text.length ≤ fuel) :
    decodeChars fuel (encode text) = some text := by
  induction text generalizing fuel with
  | nil =>
      cases fuel <;> rfl
  | cons char text inductionHypothesis =>
      obtain ⟨fuel, rfl⟩ : ∃ less, fuel = less + 1 :=
        ⟨fuel - 1, by simp at enough; omega⟩
      have front := decodeChar?_encode char (encode text)
      obtain ⟨byte, more, shape⟩ := List.exists_cons_of_length_pos
        (length_utf8EncodeChar_pos char)
      have size : (byte :: more).length = char.utf8Size := by
        rw [← shape, String.length_utf8EncodeChar]
      rw [shape, List.cons_append] at front
      rw [encode_cons, shape, List.cons_append, decodeChars, front]
      simp only
      rw [← List.cons_append, ← size, List.drop_left,
        inductionHypothesis fuel (by simpa using enough)]
      rfl

theorem length_le_length_encode (text : List Char) :
    text.length ≤ (encode text).length := by
  induction text with
  | nil =>
      exact le_refl _
  | cons char text inductionHypothesis =>
      have positive := length_utf8EncodeChar_pos char
      rw [encode_cons, List.length_append, List.length_cons]
      omega

/-- Reading the bytes of a text gives the text. -/
@[simp] theorem decode_encode (text : List Char) :
    decode (encode text) = some text :=
  decodeChars_encode _ (length_le_length_encode text)

theorem utf8EncodeChar_of_decodeChar?
    (read : decodeChar? bytes = some char) :
    String.utf8EncodeChar char ++ bytes.drop char.utf8Size = bytes := by
  obtain ⟨rest, shape⟩ := ByteArray.exists_of_utf8DecodeChar?_eq_some read
  have front : bytes.take 4 =
      String.utf8EncodeChar char ++ rest.data.toList := by
    apply List.toByteArray_inj.mp
    rw [List.toByteArray_append, shape]
    congr 1
    exact ByteArray.ext (by simp)
  have shown : bytes =
      String.utf8EncodeChar char ++ (rest.data.toList ++ bytes.drop 4) := by
    rw [← List.append_assoc, ← front, List.take_append_drop]
  rw [shown, ← String.length_utf8EncodeChar, List.drop_left]

theorem encode_of_decodeChars
    {fuel : Nat}
    (read : decodeChars fuel bytes = some text) :
    encode text = bytes := by
  fun_induction decodeChars fuel bytes generalizing text with
  | case1 => simp_all [encode]
  | case2 => simp at read
  | case3 => simp at read
  | case4 fuel byte rest char front inductionHypothesis =>
      obtain ⟨more, later, rfl⟩ := Option.map_eq_some_iff.mp read
      rw [encode_cons, inductionHypothesis later]
      exact utf8EncodeChar_of_decodeChar? front

/-- What reads as a text is made of the text's bytes. -/
theorem encode_of_decode (read : decode bytes = some text) :
    encode text = bytes :=
  encode_of_decodeChars read

/-- Where bytes of a text are a text, they are a front part of it. -/
theorem isPrefix_of_encode
    {front : List Char}
    (part : encode front <+: encode text) :
    front <+: text := by
  induction front generalizing text with
  | nil =>
      exact List.nil_prefix
  | cons char front inductionHypothesis =>
      obtain ⟨rest, joined⟩ := part
      rw [encode_cons, List.append_assoc] at joined
      cases text with
      | nil =>
          have positive := length_utf8EncodeChar_pos char
          have lengths := congrArg List.length joined
          simp only [List.length_append, encode_nil, List.length_nil] at lengths
          omega
      | cons first text =>
          have read := decodeChar?_encode char (encode front ++ rest)
          rw [joined, encode_cons, decodeChar?_encode] at read
          cases read
          rw [encode_cons, List.append_cancel_left_eq] at joined
          have later := inductionHypothesis ⟨rest, joined⟩
          exact (List.cons_prefix_cons).mpr ⟨rfl, later⟩

theorem mem_utf8EncodeChar
    {byte : UInt8}
    (member : byte ∈ String.utf8EncodeChar char) :
    char.toNat = byte.toNat ∨ 128 ≤ byte.toNat := by
  have code : char.val.toNat = char.toNat := rfl
  simp only [String.utf8EncodeChar, code] at member
  split_ifs at member with one two three
  all_goals
    simp only [List.mem_cons, List.not_mem_nil, or_false] at member
    rcases member with rfl | rfl | rfl | rfl
    all_goals
      rw [UInt8.toNat_ofNat']
      omega

/-- A character of one byte occurs only as itself. -/
theorem mem_of_mem_encode
    (ascii : char.toNat < 128)
    (member : UInt8.ofNat char.toNat ∈ encode text) :
    char ∈ text := by
  obtain ⟨other, inText, inBytes⟩ := List.mem_flatMap.mp member
  have byte : (UInt8.ofNat char.toNat).toNat = char.toNat := by
    rw [UInt8.toNat_ofNat']
    omega
  rcases mem_utf8EncodeChar inBytes with same | large
  · exact Char.toNat_inj.mp (same.trans byte) ▸ inText
  · omega

end Encoding

/-! ## Trailing white space -/

theorem trimEnd_isPrefix (text : List Char) : trimEnd text <+: text :=
  List.rdropWhile_prefix _ _

/-- Trimming stops at a character that is no white space. -/
theorem trimEnd_visible
    (front rest : List Char)
    {char : Char}
    (visible : isWhitespace char = false) :
    trimEnd (front ++ char :: rest) = front ++ char :: trimEnd rest := by
  have reversed : (front ++ char :: rest).reverse =
      rest.reverse ++ char :: front.reverse := by
    simp
  unfold trimEnd List.rdropWhile
  rw [reversed, List.dropWhile_append]
  split
  · rename_i blank
    rw [List.dropWhile_cons, if_neg (by simp [visible]),
      List.isEmpty_iff.mp blank]
    simp
  · simp

end KalpakDb.Utf8
