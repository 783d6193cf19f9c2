import KalpakDb.Signing

namespace KalpakDb.Signing

/-!
# What a bind signature covers

The older messages end their texts with a zero byte and write hashes, which
may contain any byte, with their fixed length.  Links follow each other
without a separator.  Each part tells where it ends, so a message determines
the agent and the links, up to the fingerprint of a parent, which is not
written.
-/

open ByteCodec (leBytes)
open SelfDelimiting (Delimits delimits_leBytes delimits_terminated)

/-- A link: a key, its blocks and its parent. -/
abbrev Link := CacheKey × List BlockId × Option CacheKey

/-- The texts of a key contain no zero byte. -/
def PlainKey (key : CacheKey) : Prop :=
  0 ∉ textBytes key.fingerprint.modelId ∧
    0 ∉ textBytes key.fingerprint.tokenizerHash ∧
    0 ∉ textBytes key.fingerprint.kvLayout

/-- A link that the format can write. -/
def PlainLink (link : Link) : Prop :=
  PlainKey link.1 ∧ link.2.1.length < 2 ^ 32

/-- The links agree in all that is signed. -/
def SameLink (first second : Link) : Prop :=
  first.1 = second.1 ∧
    first.2.1 = second.2.1 ∧
    first.2.2.isSome = second.2.2.isSome ∧
    first.2.2.map CacheKey.prefixHash = second.2.2.map CacheKey.prefixHash

/-! ## The parts of a link -/

/-- A text in front of a zero byte. -/
theorem delimits_plainText :
    Delimits (fun text => 0 ∉ textBytes text)
      (fun text => textBytes text ++ [0]) :=
  (delimits_terminated (0 : UInt8)).via textBytes textBytes_injective

theorem delimits_key : Delimits PlainKey pushKey := by
  have parts := (delimits_plainText.pair (delimits_plainText.pair
    (delimits_plainText.pair delimits_block))).via
    (fun key : CacheKey =>
      (key.fingerprint.modelId, key.fingerprint.tokenizerHash,
        key.fingerprint.kvLayout, key.prefixHash)) (by
      rintro ⟨⟨_, _, _⟩, _⟩ ⟨⟨_, _, _⟩, _⟩ ⟨⟩
      rfl)
  intro first second firstRest secondRest firstPlain secondPlain same
  obtain ⟨model, tokenizer, layout⟩ := firstPlain
  obtain ⟨model', tokenizer', layout'⟩ := secondPlain
  refine parts first second firstRest secondRest
    ⟨model, tokenizer, layout, trivial⟩
    ⟨model', tokenizer', layout', trivial⟩ ?_
  simpa only [pushKey, List.append_assoc] using same

theorem delimits_countedBlocks :
    Delimits (fun blocks => blocks.length < 2 ^ 32)
      (fun blocks : List BlockId =>
        leBytes 4 blocks.length ++ blocks.flatMap BlockId.bytes) := by
  intro first second firstRest secondRest firstSized secondSized same
  exact delimits_block.counted (delimits_leBytes 4) first second firstRest
    secondRest ⟨firstSized, fun _ _ => trivial⟩
    ⟨secondSized, fun _ _ => trivial⟩ same

/-- The prefix hash of a parent, if there is one. -/
def pushParentHash (hash : Option BlockId) : Bytes :=
  match hash with
  | none => [0]
  | some hash => 1 :: hash.bytes

theorem delimits_parentHash : Delimits (fun _ => True) pushParentHash := by
  have option := delimits_block.option (show (0 : UInt8) ≠ 1 by decide)
  intro first second firstRest secondRest _ _ same
  refine option first second firstRest secondRest (fun _ _ => trivial)
    (fun _ _ => trivial) ?_
  cases first <;> cases second <;> exact same

/-! ## Links -/

/-- What is signed of a link. -/
abbrev SignedLink := CacheKey × List BlockId × Option BlockId

def signedLink (link : Link) : SignedLink :=
  (link.1, link.2.1, link.2.2.map CacheKey.prefixHash)

def pushSignedLink (link : SignedLink) : Bytes :=
  pushKey link.1 ++
    ((leBytes 4 link.2.1.length ++ link.2.1.flatMap BlockId.bytes) ++
      pushParentHash link.2.2)

def PlainSignedLink (link : SignedLink) : Prop :=
  PlainKey link.1 ∧ link.2.1.length < 2 ^ 32

theorem pushLink_eq (link : Link) :
    pushLink link.1 link.2.1 link.2.2 = pushSignedLink (signedLink link) := by
  obtain ⟨key, blocks, parent⟩ := link
  cases parent <;>
    simp [pushLink, pushSignedLink, signedLink, pushParentHash]

theorem delimits_signedLink : Delimits PlainSignedLink pushSignedLink := by
  have parts := delimits_key.pair
    (delimits_countedBlocks.pair delimits_parentHash)
  intro first second firstRest secondRest firstPlain secondPlain same
  exact parts first second firstRest secondRest
    ⟨firstPlain.1, firstPlain.2, trivial⟩
    ⟨secondPlain.1, secondPlain.2, trivial⟩ same

/-- Links of which the same is signed agree in it. -/
theorem sameLink_of_signedLink
    {first second : Link}
    (same : signedLink first = signedLink second) :
    SameLink first second := by
  obtain ⟨key, blocks, parent⟩ := first
  obtain ⟨key', blocks', parent'⟩ := second
  simp only [signedLink, Prod.mk.injEq] at same
  obtain ⟨rfl, rfl, sameParent⟩ := same
  have presence := congrArg Option.isSome sameParent
  rw [Option.isSome_map, Option.isSome_map] at presence
  exact ⟨rfl, rfl, presence, sameParent⟩

/-! ## Messages -/

/-- Links after their number. -/
def pushSignedLinks (links : List SignedLink) : Bytes :=
  leBytes 4 links.length ++ links.flatMap pushSignedLink

theorem chainMessage_eq (agent : AgentId) (links : List Link) :
    chainMessage agent links =
      chainPrefix ++
        (agent.bytes ++ pushSignedLinks (links.map signedLink)) := by
  rw [chainMessage, pushSignedLinks, List.length_map, List.flatMap_map]
  simp only [pushLink_eq]

theorem delimits_signedLinks :
    Delimits
      (fun links =>
        links.length < 2 ^ 32 ∧ ∀ link ∈ links, PlainSignedLink link)
      pushSignedLinks :=
  delimits_signedLink.counted (delimits_leBytes 4)

theorem plain_signedLinks
    {links : List Link}
    (plain : ∀ link ∈ links, PlainLink link)
    (sized : links.length < 2 ^ 32) :
    (links.map signedLink).length < 2 ^ 32 ∧
      ∀ link ∈ links.map signedLink, PlainSignedLink link := by
  rw [List.length_map, List.forall_mem_map]
  exact ⟨sized, plain⟩

/-- A message of the older kinds covers its agent and its links. -/
theorem bind_signatures_cover_links :
    (∀ (agent agent' : AgentId) (links links' : List Link),
      (∀ link ∈ links, PlainLink link) →
      (∀ link ∈ links', PlainLink link) →
      links.length < 2 ^ 32 →
      links'.length < 2 ^ 32 →
      chainMessage agent links = chainMessage agent' links' →
      agent = agent' ∧
        links.length = links'.length ∧
        List.Forall₂ SameLink links links') ∧
    ∀ (agent agent' : AgentId) (link link' : Link),
      PlainLink link →
      PlainLink link' →
      bindMessage agent link.1 link.2.1 link.2.2 =
        bindMessage agent' link'.1 link'.2.1 link'.2.2 →
      agent = agent' ∧ SameLink link link' := by
  constructor
  · intro agent agent' links links' plain plain' sized sized' same
    rw [chainMessage_eq, chainMessage_eq] at same
    have body := List.append_cancel_left same
    obtain ⟨rfl, afterAgent⟩ := delimits_agent _ _ _ _ trivial trivial body
    have signed := delimits_signedLinks.injective
      (plain_signedLinks plain sized) (plain_signedLinks plain' sized')
      afterAgent
    have alike : List.Forall₂ SameLink links links' := by
      rw [← List.forall₂_eq_eq_eq, List.forall₂_map_left_iff,
        List.forall₂_map_right_iff] at signed
      exact signed.imp fun _ _ => sameLink_of_signedLink
    exact ⟨rfl, alike.length_eq, alike⟩
  · intro agent agent' link link' plain plain' same
    have body := List.append_cancel_left same
    obtain ⟨rfl, afterAgent⟩ := delimits_agent _ _ _ _ trivial trivial body
    rw [pushLink_eq, pushLink_eq] at afterAgent
    exact ⟨rfl, sameLink_of_signedLink
      (delimits_signedLink.injective plain plain' afterAgent)⟩

/-- Two chains that differ in what is not signed of a parent. -/
theorem bind_signatures_cover_links_chained :
    let key : CacheKey := ⟨⟨"llama-3-70b", "tok-v1", "fp16"⟩, .filled 0⟩
    let child : CacheKey := ⟨⟨"llama-3-70b", "tok-v1", "fp16"⟩, .filled 1⟩
    let stranger : CacheKey := ⟨⟨"other", "tok-v2", "int8"⟩, .filled 0⟩
    let links : List Link :=
      [(key, [.filled 2], none), (child, [.filled 2, .filled 3], some key)]
    let links' : List Link :=
      [(key, [.filled 2], none),
        (child, [.filled 2, .filled 3], some stranger)]
    chainMessage (.filled 9) links = chainMessage (.filled 9) links' ∧
      links ≠ links' ∧
      List.Forall₂ SameLink links links' := by
  intro key child stranger links links'
  have plainKey : PlainKey key := by
    unfold PlainKey
    decide +kernel
  have plainChild : PlainKey child := plainKey
  have plain : ∀ link ∈ links, PlainLink link := by
    simp [links, PlainLink, plainKey, plainChild]
  have plain' : ∀ link ∈ links', PlainLink link := by
    simp [links', PlainLink, plainKey, plainChild]
  have same : chainMessage (.filled 9) links =
      chainMessage (.filled 9) links' := rfl
  exact ⟨same, by decide, (bind_signatures_cover_links.1 _ _ links links'
    plain plain' (by decide) (by decide) same).2.2⟩

end KalpakDb.Signing
