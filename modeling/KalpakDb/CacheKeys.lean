import KalpakDb.ByteCodec
import KalpakDb.Identifiers
import KalpakDb.SelfDelimiting

namespace KalpakDb

/-!
# Chained prefix keys

The key of a token prefix hashes the last chunk of tokens after the digest of
the chunks before it; the first chunk is hashed alone.  Nothing marks which of
the two it is.  Without a collision of digests, two chains of one length have
one key only if they are equal, but a first chunk may spell the digest of
other chunks, and is then taken for what extends them.
-/

open ByteCodec (leBytes leValue leValue_leBytes length_leBytes)
open SelfDelimiting (Delimits delimits_of_length)

/-- The tokens as little-endian words. -/
def tokenBytes (tokens : List UInt32) : Bytes :=
  tokens.flatMap fun token => leBytes 4 token.toNat

section Hash

variable (blake3 : Bytes → BlockId)

def hashTokens (parent : Option BlockId) (tokens : List UInt32) : BlockId :=
  blake3 ((parent.elim [] BlockId.bytes) ++ tokenBytes tokens)

namespace CacheKey

/-- Key for the first chunk of a context. -/
def root (fingerprint : ModelFingerprint) (tokens : List UInt32) :
    CacheKey where
  fingerprint := fingerprint
  prefixHash := hashTokens blake3 none tokens

/-- Key for the next chunk. -/
def extend (key : CacheKey) (tokens : List UInt32) : CacheKey where
  fingerprint := key.fingerprint
  prefixHash := hashTokens blake3 (some key.prefixHash) tokens

/-- The key of a first chunk and the chunks after it. -/
def ofChunks
    (fingerprint : ModelFingerprint)
    (first : List UInt32)
    (rest : List (List UInt32)) : CacheKey :=
  rest.foldl (extend blake3) (root blake3 fingerprint first)

end CacheKey

/-- The digest that a chain of chunks ends with. -/
def chainHash (first : List UInt32) (rest : List (List UInt32)) : BlockId :=
  rest.foldl (fun parent => hashTokens blake3 (some parent))
    (hashTokens blake3 none first)

/-- The strings that are hashed for the chunks after a digest. -/
def fedAfter : BlockId → List (List UInt32) → List Bytes
  | _, [] => []
  | parent, tokens :: rest =>
      (parent.bytes ++ tokenBytes tokens) ::
        fedAfter (hashTokens blake3 (some parent) tokens) rest

/-- The strings that are hashed for a chain of chunks. -/
def fed (first : List UInt32) (rest : List (List UInt32)) : List Bytes :=
  tokenBytes first :: fedAfter blake3 (hashTokens blake3 none first) rest

/-- Two of some strings are different and have one digest. -/
def Collision (strings : List Bytes) : Prop :=
  ∃ left ∈ strings, ∃ right ∈ strings,
    left ≠ right ∧ blake3 left = blake3 right

instance (strings : List Bytes) : Decidable (Collision blake3 strings) :=
  inferInstanceAs (Decidable (∃ left ∈ strings, ∃ right ∈ strings,
    left ≠ right ∧ blake3 left = blake3 right))

/--
The first chunk of one chain spells the digest of the start of another one,
and what comes next in it; the chunks after that are the same.
-/
def Absorbs
    (first : List UInt32)
    (rest : List (List UInt32))
    (otherFirst : List UInt32)
    (otherRest : List (List UInt32)) : Prop :=
  ∃ earlier tokens,
    otherRest = earlier ++ tokens :: rest ∧
      tokenBytes first =
        (chainHash blake3 otherFirst earlier).bytes ++ tokenBytes tokens

end Hash

/-! ## Tokens and digests -/

theorem tokenBytes_injective
    {first second : List UInt32}
    (same : tokenBytes first = tokenBytes second) :
    first = second := by
  have delimits : Delimits (fun _ : UInt32 => True)
      (fun token => leBytes 4 token.toNat) := by
    refine delimits_of_length 4 (fun _ => length_leBytes _ _) ?_
    intro token other _ _ sameBytes
    have values := congrArg leValue sameBytes
    rw [leValue_leBytes token.toNat_lt, leValue_leBytes other.toNat_lt]
      at values
    exact UInt32.toNat_inj.mp values
  refine delimits.flatMap_injective ?_ (fun _ _ => trivial)
    (fun _ _ => trivial) same
  intro token empty
  have length := length_leBytes 4 token.toNat
  rw [empty] at length
  cases length

/-- A digest and the tokens after it can be told apart. -/
theorem digest_append_injective
    {first second : BlockId}
    {firstTokens secondTokens : List UInt32}
    (same :
      first.bytes ++ tokenBytes firstTokens =
        second.bytes ++ tokenBytes secondTokens) :
    first = second ∧ firstTokens = secondTokens := by
  obtain ⟨sameDigest, sameTokens⟩ := List.append_inj same
    (first.length_bytes.trans second.length_bytes.symm)
  refine ⟨?_, tokenBytes_injective sameTokens⟩
  cases first
  cases second
  cases sameDigest
  rfl

section Chain

variable {blake3 : Bytes → BlockId} {rest otherRest : List (List UInt32)}
  {first otherFirst : List UInt32}

theorem chainHash_concat
    (blake3 : Bytes → BlockId)
    (first : List UInt32)
    (rest : List (List UInt32))
    (tokens : List UInt32) :
    chainHash blake3 first (rest ++ [tokens]) =
      blake3 ((chainHash blake3 first rest).bytes ++ tokenBytes tokens) := by
  rw [chainHash, List.foldl_concat]
  rfl

theorem ofChunks_eq
    (blake3 : Bytes → BlockId)
    (fingerprint : ModelFingerprint)
    (first : List UInt32)
    (rest : List (List UInt32)) :
    CacheKey.ofChunks blake3 fingerprint first rest =
      ⟨fingerprint, chainHash blake3 first rest⟩ := by
  induction rest using List.reverseRecOn with
  | nil =>
      rfl
  | append_singleton rest tokens inductionHypothesis =>
      rw [CacheKey.ofChunks, List.foldl_concat, ← CacheKey.ofChunks,
        inductionHypothesis, chainHash_concat]
      rfl

theorem fedAfter_concat
    (blake3 : Bytes → BlockId)
    (parent : BlockId)
    (rest : List (List UInt32))
    (tokens : List UInt32) :
    fedAfter blake3 parent (rest ++ [tokens]) =
      fedAfter blake3 parent rest ++
        [(rest.foldl (fun parent => hashTokens blake3 (some parent))
          parent).bytes ++ tokenBytes tokens] := by
  induction rest generalizing parent with
  | nil =>
      rfl
  | cons chunk rest inductionHypothesis =>
      rw [List.cons_append, fedAfter, inductionHypothesis]
      rfl

/-- A longer chain feeds what the shorter one does, and one more string. -/
theorem fed_concat
    (blake3 : Bytes → BlockId)
    (first : List UInt32)
    (rest : List (List UInt32))
    (tokens : List UInt32) :
    fed blake3 first (rest ++ [tokens]) =
      fed blake3 first rest ++
        [(chainHash blake3 first rest).bytes ++ tokenBytes tokens] := by
  rw [fed, fedAfter_concat]
  rfl

/-- Fewer strings have fewer collisions. -/
theorem Collision.mono
    {strings more : List Bytes}
    (collision : Collision blake3 strings)
    (subset : strings ⊆ more) :
    Collision blake3 more := by
  obtain ⟨left, leftFed, right, rightFed, clash⟩ := collision
  exact ⟨left, subset leftFed, right, subset rightFed, clash⟩

theorem eq_of_no_collision
    {strings : List Bytes}
    {left right : Bytes}
    (none : ¬ Collision blake3 strings)
    (leftFed : left ∈ strings)
    (rightFed : right ∈ strings)
    (same : blake3 left = blake3 right) :
    left = right := by
  by_contra different
  exact none ⟨left, leftFed, right, rightFed, different, same⟩

/-- The same chunk may follow both chains. -/
theorem Absorbs.concat
    {first otherFirst tokens : List UInt32}
    (absorbs : Absorbs blake3 first rest otherFirst otherRest) :
    Absorbs blake3 first (rest ++ [tokens]) otherFirst
      (otherRest ++ [tokens]) := by
  obtain ⟨earlier, chunk, rfl, spelled⟩ := absorbs
  exact ⟨earlier, chunk, by simp, spelled⟩

/-- The chain that absorbs another one is shorter. -/
theorem Absorbs.length_lt
    (absorbs : Absorbs blake3 first rest otherFirst otherRest) :
    rest.length < otherRest.length := by
  obtain ⟨earlier, chunk, rfl, -⟩ := absorbs
  rw [List.length_append, List.length_cons]
  omega

theorem Absorbs.ne
    (absorbs : Absorbs blake3 first rest otherFirst otherRest) :
    first :: rest ≠ otherFirst :: otherRest := by
  intro sameChunks
  have shorter := absorbs.length_lt
  rw [(List.cons.inj sameChunks).2] at shorter
  exact absurd shorter (lt_irrefl _)

/-- What is absorbed has the same digest. -/
theorem Absorbs.chainHash_eq
    (absorbs : Absorbs blake3 first rest otherFirst otherRest) :
    chainHash blake3 first rest =
      chainHash blake3 otherFirst otherRest := by
  obtain ⟨earlier, chunk, rfl, spelled⟩ := absorbs
  have start : hashTokens blake3 none first =
      hashTokens blake3 (some (chainHash blake3 otherFirst earlier))
        chunk := by
    unfold hashTokens
    exact congrArg blake3 spelled
  unfold chainHash at start ⊢
  rw [start, List.foldl_append, List.foldl_cons]

/-- Without a collision, chains with one digest are equal, or one absorbs. -/
theorem eq_or_absorbs
    (noCollision :
      ¬ Collision blake3
        (fed blake3 first rest ++ fed blake3 otherFirst otherRest))
    (same :
      chainHash blake3 first rest = chainHash blake3 otherFirst otherRest) :
    (first = otherFirst ∧ rest = otherRest) ∨
      Absorbs blake3 first rest otherFirst otherRest ∨
      Absorbs blake3 otherFirst otherRest first rest := by
  induction rest using List.reverseRecOn generalizing otherRest with
  | nil =>
      cases otherRest using List.reverseRecOn with
      | nil =>
          have sameFed := eq_of_no_collision noCollision
            (show tokenBytes first ∈ _ by simp [fed])
            (show tokenBytes otherFirst ∈ _ by simp [fed]) same
          exact .inl ⟨tokenBytes_injective sameFed, rfl⟩
      | append_singleton otherRest tokens =>
          rw [chainHash_concat] at same
          rw [fed_concat] at noCollision
          have sameFed := eq_of_no_collision noCollision
            (by simp [fed]) (by simp) same
          exact .inr (.inl ⟨otherRest, tokens, rfl, sameFed⟩)
  | append_singleton rest tokens inductionHypothesis =>
      rw [chainHash_concat] at same
      rw [fed_concat] at noCollision
      cases otherRest using List.reverseRecOn with
      | nil =>
          have sameFed := eq_of_no_collision noCollision
            (by simp) (by simp [fed]) same
          exact .inr (.inr ⟨rest, tokens, rfl, sameFed.symm⟩)
      | append_singleton otherRest otherTokens =>
          rw [chainHash_concat] at same
          rw [fed_concat] at noCollision
          have sameFed := eq_of_no_collision noCollision
            (by simp) (by simp) same
          obtain ⟨sameDigest, rfl⟩ := digest_append_injective sameFed
          have fewer : ¬ Collision blake3
              (fed blake3 first rest ++ fed blake3 otherFirst otherRest) := by
            intro collision
            refine noCollision (collision.mono ?_)
            intro string member
            simp only [List.mem_append] at member ⊢
            exact member.imp Or.inl Or.inl
          obtain ⟨rfl, rfl⟩ | absorbs | absorbs :=
            inductionHypothesis fewer sameDigest
          · exact .inl ⟨rfl, rfl⟩
          · exact .inr (.inl absorbs.concat)
          · exact .inr (.inr absorbs.concat)

end Chain

/-! ## A digest that is read as tokens -/

/-- The digest of the token one. -/
def tokenOneDigest : BlockId :=
  ⟨[198, 16, 232, 82, 18, 208, 105, 124, 177, 97, 212, 186, 67, 27, 166, 3,
    242, 115, 254, 238, 125, 203, 121, 39, 201, 255, 93, 116, 174, 108, 191,
    163], by decide⟩

/-- The digest of that digest and the token two. -/
def tokenTwoDigest : BlockId :=
  ⟨[70, 112, 49, 64, 36, 175, 153, 139, 57, 138, 154, 135, 164, 44, 1, 242,
    116, 48, 14, 115, 117, 137, 252, 197, 156, 42, 210, 79, 226, 115, 240,
    255], by decide⟩

/-- BLAKE3 on the strings of a chain of two chunks. -/
def chunkBlake3 (bytes : Bytes) : BlockId :=
  if bytes = [1, 0, 0, 0] then tokenOneDigest
  else if bytes = tokenOneDigest.bytes ++ [2, 0, 0, 0] then tokenTwoDigest
  else .filled 0

/-! ## What a key identifies -/

/-- Equal keys are those of equal chunks, unless digests collide. -/
def KeysIdentify
    (blake3 : Bytes → BlockId)
    (fingerprint : ModelFingerprint)
    (first : List UInt32)
    (rest : List (List UInt32))
    (otherFirst : List UInt32)
    (otherRest : List (List UInt32)) : Prop :=
  CacheKey.ofChunks blake3 fingerprint first rest =
      CacheKey.ofChunks blake3 fingerprint otherFirst otherRest →
    first :: rest = otherFirst :: otherRest ∨
      Collision blake3
        (fed blake3 first rest ++ fed blake3 otherFirst otherRest)

/-- Keys identify chunks exactly if neither chain absorbs the other one. -/
theorem prefix_keys_identify_iff
    (blake3 : Bytes → BlockId)
    (fingerprint : ModelFingerprint)
    (first : List UInt32)
    (rest : List (List UInt32))
    (otherFirst : List UInt32)
    (otherRest : List (List UInt32)) :
    KeysIdentify blake3 fingerprint first rest otherFirst otherRest ↔
      (¬ Absorbs blake3 first rest otherFirst otherRest ∧
          ¬ Absorbs blake3 otherFirst otherRest first rest) ∨
        Collision blake3
          (fed blake3 first rest ++ fed blake3 otherFirst otherRest) := by
  unfold KeysIdentify
  rw [ofChunks_eq, ofChunks_eq]
  constructor
  · intro identify
    by_cases collision : Collision blake3
        (fed blake3 first rest ++ fed blake3 otherFirst otherRest)
    · exact .inr collision
    · refine .inl ⟨fun absorbs => ?_, fun absorbs => ?_⟩
      · obtain sameChunks | clash :=
          identify (by rw [absorbs.chainHash_eq])
        · exact absorbs.ne sameChunks
        · exact collision clash
      · obtain sameChunks | clash :=
          identify (by rw [absorbs.chainHash_eq])
        · exact absorbs.ne sameChunks.symm
        · exact collision clash
  · rintro (⟨notFirst, notSecond⟩ | collision) sameKey
    · by_cases collision : Collision blake3
          (fed blake3 first rest ++ fed blake3 otherFirst otherRest)
      · exact .inr collision
      · obtain ⟨rfl, rfl⟩ | absorbs | absorbs :=
          eq_or_absorbs collision (CacheKey.mk.inj sameKey).2
        · exact .inl rfl
        · exact absurd absorbs notFirst
        · exact absurd absorbs notSecond
    · exact .inr collision

/-- Another boundary between chunks gives another key. -/
theorem prefix_keys_identify_boundary :
    KeysIdentify chunkBlake3 ⟨"test/model", "tok-abc", "fp16/paged-16"⟩
      [1, 2] [[3]] [1] [[2, 3]] := by
  refine (prefix_keys_identify_iff _ _ _ _ _ _).mpr (.inl ⟨?_, ?_⟩)
  · intro absorbs
    exact absurd absorbs.length_lt (by decide)
  · intro absorbs
    exact absurd absorbs.length_lt (by decide)

/--
The digest of the token one, read as eight tokens and followed by the token
two, is a chunk with the key of the token one extended by the token two.
-/
theorem spelled_digest_shares_key :
    CacheKey.ofChunks chunkBlake3
        ⟨"test/model", "tok-abc", "fp16/paged-16"⟩
        [1390940358, 2087309330, 3134480817, 61217603, 4009653234, 662293373,
          1952317385, 2747231406, 2] [] =
      CacheKey.ofChunks chunkBlake3
        ⟨"test/model", "tok-abc", "fp16/paged-16"⟩ [1] [[2]] ∧
    ¬ Collision chunkBlake3
      (fed chunkBlake3
          [1390940358, 2087309330, 3134480817, 61217603, 4009653234,
            662293373, 1952317385, 2747231406, 2] [] ++
        fed chunkBlake3 [1] [[2]]) := by
  decide +kernel

end KalpakDb
