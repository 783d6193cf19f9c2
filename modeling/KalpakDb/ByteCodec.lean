import KalpakDb.FiniteMap

namespace KalpakDb.ByteCodec

/-!
# Byte codecs

A slice codec turns a value into bytes and back, reporting how many bytes it
consumed.  A stream codec reads a value from the front of longer input and
returns what is left, so stream codecs compose: pairs, lists, options, maps
and sets of coded values are coded.  Reading undoes writing by construction.
-/

open Std (ExtTreeMap ExtTreeSet)

variable {α β : Type}

/-- A codec whose decoder reports the number of bytes it consumed. -/
structure SliceCodec (α : Type) where
  encode : α → List UInt8
  decode : List UInt8 → Option (α × Nat)
  decode_encode :
    ∀ value, decode (encode value) = some (value, (encode value).length)

/-- A codec whose decoder returns the unread rest of its input. -/
structure StreamCodec (α : Type) where
  encode : α → List UInt8
  read : List UInt8 → Option (α × List UInt8)
  read_encode :
    ∀ value rest, read (encode value ++ rest) = some (value, rest)

/-- Decode from the front of a slice. -/
def StreamCodec.toSlice (codec : StreamCodec α) : SliceCodec α where
  encode := codec.encode
  decode bytes :=
    (codec.read bytes).map fun result =>
      (result.1, bytes.length - result.2.length)
  decode_encode value := by
    have read := codec.read_encode value []
    rw [List.append_nil] at read
    simp [read]

/-! ## Little-endian words -/

/-- The lowest bytes of a number, least significant first. -/
def leBytes : Nat → Nat → List UInt8
  | 0, _ => []
  | width + 1, value =>
      UInt8.ofNat (value % 256) :: leBytes width (value / 256)

/-- The number whose bytes are given, least significant first. -/
def leValue : List UInt8 → Nat
  | [] => 0
  | byte :: rest => byte.toNat + 256 * leValue rest

@[simp] theorem length_leBytes (width value : Nat) :
    (leBytes width value).length = width := by
  induction width generalizing value with
  | zero =>
      rfl
  | succ width inductionHypothesis =>
      simp [leBytes, inductionHypothesis]

theorem leValue_lt (bytes : List UInt8) :
    leValue bytes < 256 ^ bytes.length := by
  induction bytes with
  | nil =>
      decide
  | cons byte rest inductionHypothesis =>
      have small := byte.toNat_lt
      rw [leValue, List.length_cons, Nat.pow_succ]
      omega

theorem leValue_leBytes
    {width value : Nat}
    (fits : value < 256 ^ width) :
    leValue (leBytes width value) = value := by
  induction width generalizing value with
  | zero =>
      simp only [Nat.pow_zero] at fits
      simp only [leBytes, leValue]
      omega
  | succ width inductionHypothesis =>
      have quotientFits : value / 256 < 256 ^ width := by
        rw [Nat.pow_succ] at fits
        exact Nat.div_lt_of_lt_mul (by omega)
      simp only [leBytes, leValue, inductionHypothesis quotientFits,
        UInt8.toNat_ofNat']
      omega

theorem leBytes_leValue (bytes : List UInt8) :
    leBytes bytes.length (leValue bytes) = bytes := by
  induction bytes with
  | nil =>
      rfl
  | cons byte rest inductionHypothesis =>
      have small := byte.toNat_lt
      have low : (byte.toNat + 256 * leValue rest) % 256 = byte.toNat := by
        omega
      have high : (byte.toNat + 256 * leValue rest) / 256 = leValue rest := by
        omega
      rw [List.length_cons, leBytes, leValue, low, high, inductionHypothesis,
        UInt8.ofNat_toNat]

/-! ## Combinators -/

namespace StreamCodec

/-- Store a value through another one that determines it. -/
def via
    (codec : StreamCodec α)
    (store : β → α)
    (load : α → Option β)
    (load_store : ∀ value, load (store value) = some value) : StreamCodec β where
  encode value := codec.encode (store value)
  read bytes := do
    let (stored, rest) ← codec.read bytes
    let value ← load stored
    return (value, rest)
  read_encode value rest := by
    simp [codec.read_encode, load_store]

def pair (first : StreamCodec α) (second : StreamCodec β) :
    StreamCodec (α × β) where
  encode value := first.encode value.1 ++ second.encode value.2
  read bytes := do
    let (left, rest) ← first.read bytes
    let (right, rest) ← second.read rest
    return ((left, right), rest)
  read_encode value rest := by
    simp [List.append_assoc, first.read_encode, second.read_encode]

/-- Read a fixed number of values. -/
def readMany (codec : StreamCodec α) :
    Nat → List UInt8 → Option (List α × List UInt8)
  | 0, bytes => some ([], bytes)
  | count + 1, bytes => do
      let (value, rest) ← codec.read bytes
      let (values, rest) ← readMany codec count rest
      return (value :: values, rest)

theorem readMany_encode
    (codec : StreamCodec α)
    (values : List α)
    (rest : List UInt8) :
    codec.readMany values.length (values.flatMap codec.encode ++ rest) =
      some (values, rest) := by
  induction values with
  | nil =>
      rfl
  | cons value values inductionHypothesis =>
      simp [readMany, List.append_assoc, codec.read_encode,
        inductionHypothesis]

/-- A counted sequence. -/
def list (count : StreamCodec Nat) (codec : StreamCodec α) :
    StreamCodec (List α) where
  encode values := count.encode values.length ++ values.flatMap codec.encode
  read bytes := do
    let (length, rest) ← count.read bytes
    codec.readMany length rest
  read_encode values rest := by
    simp [List.append_assoc, count.read_encode, readMany_encode]

def byte : StreamCodec UInt8 where
  encode value := [value]
  read
    | [] => none
    | value :: rest => some (value, rest)
  read_encode _ _ := rfl

def bool : StreamCodec Bool :=
  byte.via (fun flag => if flag then 1 else 0)
    (fun stored =>
      if stored = 0 then some false
      else if stored = 1 then some true
      else none)
    (by intro flag; cases flag <;> rfl)

/-- A presence byte followed by the value, if any. -/
def option (codec : StreamCodec α) : StreamCodec (Option α) where
  encode
    | none => [0]
    | some value => 1 :: codec.encode value
  read
    | [] => none
    | tag :: rest =>
        if tag = 0 then
          some (none, rest)
        else if tag = 1 then do
          let (value, rest) ← codec.read rest
          return (some value, rest)
        else
          none
  read_encode value rest := by
    cases value with
    | none =>
        rfl
    | some value =>
        simp [codec.read_encode]

section Ordered

variable {κ : Type} [Ord κ] [Std.TransOrd κ] [Std.LawfulEqOrd κ]
  [DecidableEq κ]

/-- A map, written as its counted bindings. -/
def map (count : StreamCodec Nat) (key : StreamCodec κ)
    (value : StreamCodec α) : StreamCodec (ExtTreeMap κ α) :=
  (list count (pair key value)).via ExtTreeMap.toList
    (fun entries => some (ExtTreeMap.ofList entries))
    (fun stored => by rw [FiniteMap.ofList_toList])

/-- A set, written as its counted elements. -/
def set (count : StreamCodec Nat) (key : StreamCodec κ) :
    StreamCodec (ExtTreeSet κ) :=
  (list count key).via ExtTreeSet.toList
    (fun entries => some (ExtTreeSet.ofList entries))
    (fun stored => by rw [FiniteMap.ofList_toList_set])

end Ordered

/-- Text, written as its counted UTF-8 bytes. -/
def string (count : StreamCodec Nat) : StreamCodec String :=
  (list count byte).via (fun text => text.toByteArray.data.toList)
    (fun bytes => String.fromUTF8? ⟨bytes.toArray⟩)
    (fun text => by
      simp only [Array.toArray_toList, String.fromUTF8?]
      rw [dif_pos text.isValidUTF8]
      rfl)

/-! ## Variable-width numbers -/

/-- A fixed number of little-endian bytes. -/
def readLe (width : Nat) (bytes : List UInt8) : Option (Nat × List UInt8) :=
  if width ≤ bytes.length then
    some (leValue (bytes.take width), bytes.drop width)
  else
    none

theorem readLe_leBytes
    {width value : Nat}
    (fits : value < 256 ^ width)
    (rest : List UInt8) :
    readLe width (leBytes width value ++ rest) = some (value, rest) := by
  have front : (leBytes width value ++ rest).take width =
      leBytes width value :=
    List.take_left' (length_leBytes width value)
  have back : (leBytes width value ++ rest).drop width = rest :=
    List.drop_left' (length_leBytes width value)
  simp [readLe, front, back, leValue_leBytes fits]

/-- Count the zeros in front of the first other byte. -/
def readUnary : List UInt8 → Option (Nat × List UInt8)
  | [] => none
  | byte :: rest =>
      if byte = 0 then
        (readUnary rest).map fun result => (result.1 + 1, result.2)
      else
        some (0, rest)

theorem readUnary_replicate (count : Nat) (rest : List UInt8) :
    readUnary (List.replicate count 0 ++ 1 :: rest) = some (count, rest) := by
  induction count with
  | zero =>
      rfl
  | succ count inductionHypothesis =>
      simp [List.replicate_succ, readUnary, inductionHypothesis]

/--
Variable-width numbers: one byte up to 250, otherwise a width marker and
two, four or eight little-endian bytes.  No value of a running program is
wider; counts beyond that are completed by an escape to stay total.
-/
def varintBytes (value : Nat) : List UInt8 :=
  if value < 251 then
    [UInt8.ofNat value]
  else if value < 256 ^ 2 then
    251 :: leBytes 2 value
  else if value < 256 ^ 4 then
    252 :: leBytes 4 value
  else if value < 256 ^ 8 then
    253 :: leBytes 8 value
  else
    255 :: (List.replicate value 0 ++ [1])

def readVarint : List UInt8 → Option (Nat × List UInt8)
  | [] => none
  | tag :: rest =>
      if tag < 251 then some (tag.toNat, rest)
      else if tag = 251 then readLe 2 rest
      else if tag = 252 then readLe 4 rest
      else if tag = 253 then readLe 8 rest
      else if tag = 255 then readUnary rest
      else none

theorem readVarint_varintBytes (value : Nat) (rest : List UInt8) :
    readVarint (varintBytes value ++ rest) = some (value, rest) := by
  unfold varintBytes
  split
  · rename_i small
    have recovered : (UInt8.ofNat value).toNat = value := by
      rw [UInt8.toNat_ofNat']
      omega
    have single : UInt8.ofNat value < 251 := by
      rw [UInt8.lt_iff_toNat_lt, recovered]
      exact small
    simp [readVarint, single, recovered]
  · split
    · rename_i fits
      exact readLe_leBytes fits rest
    · split
      · rename_i fits
        exact readLe_leBytes fits rest
      · split
        · rename_i fits
          exact readLe_leBytes fits rest
        · rw [List.cons_append, List.append_assoc]
          exact readUnary_replicate value rest

def varint : StreamCodec Nat where
  encode := varintBytes
  read := readVarint
  read_encode := readVarint_varintBytes

def uint64 : StreamCodec UInt64 :=
  varint.via UInt64.toNat
    (fun stored =>
      if stored < 2 ^ 64 then some (UInt64.ofNat stored) else none)
    (fun value => by simp [value.toNat_lt])

def uint32 : StreamCodec UInt32 :=
  varint.via UInt32.toNat
    (fun stored =>
      if stored < 2 ^ 32 then some (UInt32.ofNat stored) else none)
    (fun value => by simp [value.toNat_lt])

end StreamCodec

end KalpakDb.ByteCodec
