import Mathlib

namespace KalpakDb

/-!
# Content addresses, agents and cache keys

Blocks are named by the 32-byte digest of their contents and agents by a
32-byte public key.  Both kinds of identifier carry the proof that they have
exactly 32 bytes.  They are ordered lexicographically, which is the order in
which ordered maps enumerate blocks.
-/

/-- A finite byte string. -/
abbrev Bytes := List UInt8

/-- Content address of an immutable block. -/
structure BlockId where
  bytes : Bytes
  length_bytes : bytes.length = 32
  deriving DecidableEq

/-- Canonical agent identifier: an Ed25519 public key. -/
structure AgentId where
  bytes : Bytes
  length_bytes : bytes.length = 32
  deriving DecidableEq

namespace BlockId

/-- The identifier that repeats one byte. -/
def filled (byte : UInt8) : BlockId :=
  ⟨List.replicate 32 byte, List.length_replicate⟩

/-- The BLAKE3 digest of the single byte one. -/
def ofOneByte : BlockId :=
  ⟨[72, 252, 114, 31, 187, 193, 114, 224, 146, 95, 162, 122, 241, 103, 29,
    226, 37, 186, 146, 113, 52, 128, 41, 152, 177, 10, 21, 104, 161, 136,
    101, 43], by decide⟩

/-- The BLAKE3 digest of the single byte zero. -/
def ofZeroByte : BlockId :=
  ⟨[45, 58, 222, 223, 241, 27, 97, 241, 76, 136, 110, 53, 175, 160, 54, 115,
    109, 205, 135, 167, 77, 39, 181, 193, 81, 2, 37, 208, 245, 146, 226,
    19], by decide⟩

/-- Read an identifier from a slice of exactly 32 bytes. -/
def ofBytes? (bytes : Bytes) : Option BlockId :=
  if exact : bytes.length = 32 then some ⟨bytes, exact⟩ else none

@[simp] theorem ofBytes?_bytes (id : BlockId) : ofBytes? id.bytes = some id := by
  simp [ofBytes?, id.length_bytes]

instance : Ord BlockId where
  compare := compareOn BlockId.bytes

instance : Std.TransOrd BlockId :=
  inferInstanceAs (Std.TransCmp (compareOn BlockId.bytes))

instance : Std.LawfulEqOrd BlockId where
  compare_self := Std.ReflCmp.compare_self
  eq_of_compare := by
    rintro ⟨first, firstLength⟩ ⟨second, secondLength⟩ same
    simp only [BlockId.mk.injEq]
    exact Std.LawfulEqOrd.eq_of_compare same

end BlockId

namespace AgentId

/-- The agent that repeats one byte. -/
def filled (byte : UInt8) : AgentId :=
  ⟨List.replicate 32 byte, List.length_replicate⟩

/-- Read an agent from a slice of exactly 32 bytes. -/
def ofBytes? (bytes : Bytes) : Option AgentId :=
  if exact : bytes.length = 32 then some ⟨bytes, exact⟩ else none

@[simp] theorem ofBytes?_bytes (agent : AgentId) :
    ofBytes? agent.bytes = some agent := by
  simp [ofBytes?, agent.length_bytes]

instance : Ord AgentId where
  compare := compareOn AgentId.bytes

instance : Std.TransOrd AgentId :=
  inferInstanceAs (Std.TransCmp (compareOn AgentId.bytes))

instance : Std.LawfulEqOrd AgentId where
  compare_self := Std.ReflCmp.compare_self
  eq_of_compare := by
    rintro ⟨first, firstLength⟩ ⟨second, secondLength⟩ same
    simp only [AgentId.mk.injEq]
    exact Std.LawfulEqOrd.eq_of_compare same

end AgentId

/-! ## Textual form -/

def hexDigit (nibble : UInt8) : Char :=
  if nibble < 10 then Char.ofNat (48 + nibble.toNat)
  else Char.ofNat (87 + nibble.toNat)

/-- Lowercase hexadecimal text, two digits for each byte. -/
def hexEncode (bytes : Bytes) : List Char :=
  bytes.flatMap fun byte => [hexDigit (byte / 16), hexDigit (byte % 16)]

/-- How JSON text writes one character of a string. -/
def jsonEscape (char : Char) : List Char :=
  if char = '"' then ['\\', '"']
  else if char = '\\' then ['\\', '\\']
  else if char = '\n' then ['\\', 'n']
  else if char = '\r' then ['\\', 'r']
  else if char = '\t' then ['\\', 't']
  else if char.toNat = 8 then ['\\', 'b']
  else if char.toNat = 12 then ['\\', 'f']
  else if char.toNat < 32 then
    ['\\', 'u', '0', '0', hexDigit (UInt8.ofNat (char.toNat / 16)),
      hexDigit (UInt8.ofNat (char.toNat % 16))]
  else [char]

def jsonString (chars : List Char) : List Char :=
  '"' :: (chars.flatMap jsonEscape ++ ['"'])

/-- The exact inference configuration a cached block is valid for. -/
structure ModelFingerprint where
  modelId : String
  tokenizerHash : String
  kvLayout : String
  deriving DecidableEq

/-- Lookup key of a cached token prefix. -/
structure CacheKey where
  fingerprint : ModelFingerprint
  prefixHash : BlockId
  deriving DecidableEq

namespace ModelFingerprint

instance : Ord ModelFingerprint where
  compare :=
    compareLex (compareOn ModelFingerprint.modelId)
      (compareLex (compareOn ModelFingerprint.tokenizerHash)
        (compareOn ModelFingerprint.kvLayout))

instance : Std.TransOrd ModelFingerprint :=
  inferInstanceAs (Std.TransCmp (compareLex _ (compareLex _ _)))

instance : Std.LawfulEqOrd ModelFingerprint where
  compare_self := Std.ReflCmp.compare_self
  eq_of_compare := by
    rintro ⟨model, tokenizer, layout⟩ ⟨model', tokenizer', layout'⟩ same
    obtain ⟨models, rest⟩ := compareLex_eq_eq.mp same
    obtain ⟨tokenizers, layouts⟩ := compareLex_eq_eq.mp rest
    simp only [ModelFingerprint.mk.injEq]
    exact ⟨Std.LawfulEqOrd.eq_of_compare models,
      Std.LawfulEqOrd.eq_of_compare tokenizers,
      Std.LawfulEqOrd.eq_of_compare layouts⟩

end ModelFingerprint

namespace CacheKey

instance : Ord CacheKey where
  compare :=
    compareLex (compareOn CacheKey.fingerprint) (compareOn CacheKey.prefixHash)

instance : Std.TransOrd CacheKey :=
  inferInstanceAs (Std.TransCmp (compareLex _ _))

instance : Std.LawfulEqOrd CacheKey where
  compare_self := Std.ReflCmp.compare_self
  eq_of_compare := by
    rintro ⟨fingerprint, hash⟩ ⟨fingerprint', hash'⟩ same
    obtain ⟨fingerprints, hashes⟩ := compareLex_eq_eq.mp same
    simp only [CacheKey.mk.injEq]
    exact ⟨Std.LawfulEqOrd.eq_of_compare fingerprints,
      Std.LawfulEqOrd.eq_of_compare hashes⟩

end CacheKey

/-- The characters of `serde_json::to_string` on a cache key. -/
def CacheKey.toJson (key : CacheKey) : List Char :=
  "\x7b\"fingerprint\":\x7b\"model_id\":".toList ++
    jsonString key.fingerprint.modelId.toList ++
    ",\"tokenizer_hash\":".toList ++
    jsonString key.fingerprint.tokenizerHash.toList ++
    ",\"kv_layout\":".toList ++
    jsonString key.fingerprint.kvLayout.toList ++
    "\x7d,\"prefix_hash\":".toList ++
    jsonString (hexEncode key.prefixHash.bytes) ++
    "\x7d".toList

/-- The JSON text under which the bindings of a cache key are stored. -/
def serdeBindingKey (key : CacheKey) : String := String.ofList key.toJson

end KalpakDb
