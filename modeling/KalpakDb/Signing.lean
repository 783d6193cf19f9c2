import KalpakDb.ByteCodec
import KalpakDb.Identifiers
import KalpakDb.SelfDelimiting

namespace KalpakDb.Signing

/-!
# Signed messages

An agent signs the bytes of a request.  Every kind of request starts with a
domain of its own.  Lease requests write their texts and lists after their
lengths, so the signed bytes determine the whole request.  The older requests
end their texts with a zero byte and count blocks in four bytes.
-/

open ByteCodec (leBytes length_leBytes)
open SelfDelimiting (Delimits delimits_bytes delimits_leBytes
  delimits_of_length)

/-! ## The older messages -/

/-- The UTF-8 bytes of a text. -/
def textBytes (text : String) : Bytes := text.toByteArray.data.toList

def registerPrefix : Bytes := "KLPK/reg/v1\x00".toList.map (·.toUInt8)
def bindPrefix : Bytes := "KLPK/bind/v1\x00".toList.map (·.toUInt8)
def chainPrefix : Bytes := "KLPK/chain/v1\x00".toList.map (·.toUInt8)

/-- The texts of a key, each with a zero byte behind it. -/
def pushKey (key : CacheKey) : Bytes :=
  textBytes key.fingerprint.modelId ++ [0] ++
    textBytes key.fingerprint.tokenizerHash ++ [0] ++
    textBytes key.fingerprint.kvLayout ++ [0] ++
    key.prefixHash.bytes

/-- Of the parent only the prefix hash is written. -/
def pushLink
    (key : CacheKey)
    (blocks : List BlockId)
    (parent : Option CacheKey) : Bytes :=
  pushKey key ++ leBytes 4 blocks.length ++ blocks.flatMap BlockId.bytes ++
    match parent with
    | some parent => 1 :: parent.prefixHash.bytes
    | none => [0]

/-- What an agent signs to register itself. -/
def registerMessage (agent : AgentId) (displayName : String) : Bytes :=
  registerPrefix ++ (agent.bytes ++ textBytes displayName)

/-- What an agent signs to bind one prefix to its blocks. -/
def bindMessage
    (agent : AgentId)
    (key : CacheKey)
    (blocks : List BlockId)
    (parent : Option CacheKey) : Bytes :=
  bindPrefix ++ (agent.bytes ++ pushLink key blocks parent)

/-- What an agent signs to bind a whole chain. -/
def chainMessage
    (agent : AgentId)
    (links : List (CacheKey × List BlockId × Option CacheKey)) : Bytes :=
  chainPrefix ++ (agent.bytes ++ (leBytes 4 links.length ++
    links.flatMap fun link => pushLink link.1 link.2.1 link.2.2))

/-! ## Lease messages -/

def leaseBeginPrefix : Bytes :=
  "KLPK/lease/begin/v1\x00".toList.map (·.toUInt8)
def leaseCancelPrefix : Bytes :=
  "KLPK/lease/cancel/v1\x00".toList.map (·.toUInt8)
def leaseRenewPrefix : Bytes :=
  "KLPK/lease/renew/v1\x00".toList.map (·.toUInt8)
def leaseCommitPrefix : Bytes :=
  "KLPK/lease/commit/v1\x00".toList.map (·.toUInt8)

/-- A text after its length. -/
def pushText (text : String) : Bytes :=
  leBytes 8 (textBytes text).length ++ textBytes text

/-- The texts of a key behind their lengths. -/
def pushLeaseKey (key : CacheKey) : Bytes :=
  pushText key.fingerprint.modelId ++
    (pushText key.fingerprint.tokenizerHash ++
      (pushText key.fingerprint.kvLayout ++ key.prefixHash.bytes))

/-- Blocks after their number. -/
def pushBlocks (blocks : List BlockId) : Bytes :=
  leBytes 8 blocks.length ++ blocks.flatMap BlockId.bytes

/-- A parent after the byte that says whether there is one. -/
def pushParent (parent : Option CacheKey) : Bytes :=
  match parent with
  | none => [0]
  | some parent => 1 :: pushLeaseKey parent

/-- What an agent signs to reserve blocks. -/
def leaseBeginMessage
    (agent : AgentId)
    (lease : BlockId)
    (blocks : List BlockId) : Bytes :=
  leaseBeginPrefix ++ (agent.bytes ++ (lease.bytes ++ pushBlocks blocks))

/-- What an agent signs to give up a reservation. -/
def leaseCancelMessage (agent : AgentId) (lease : BlockId) : Bytes :=
  leaseCancelPrefix ++ (agent.bytes ++ lease.bytes)

/-- What an agent signs to extend a deadline. -/
def leaseRenewMessage
    (agent : AgentId)
    (lease : BlockId)
    (expectedGeneration ttlTicks : UInt64) : Bytes :=
  leaseRenewPrefix ++ (agent.bytes ++ (lease.bytes ++
    (leBytes 8 expectedGeneration.toNat ++ leBytes 8 ttlTicks.toNat)))

/-- What an agent signs to bind reserved blocks. -/
def leaseCommitMessage
    (agent : AgentId)
    (lease : BlockId)
    (key : CacheKey)
    (blocks : List BlockId)
    (parent : Option CacheKey)
    (expectedRevision : UInt64) : Bytes :=
  leaseCommitPrefix ++ (agent.bytes ++ (lease.bytes ++
    (leBytes 8 expectedRevision.toNat ++ (pushLeaseKey key ++
      (pushBlocks blocks ++ pushParent parent)))))

/-- A lease request. -/
inductive LeaseRequest where
  | begin (agent : AgentId) (lease : BlockId) (blocks : List BlockId)
  | cancel (agent : AgentId) (lease : BlockId)
  | renew
      (agent : AgentId)
      (lease : BlockId)
      (expectedGeneration ttlTicks : UInt64)
  | commit
      (agent : AgentId)
      (lease : BlockId)
      (key : CacheKey)
      (blocks : List BlockId)
      (parent : Option CacheKey)
      (expectedRevision : UInt64)
  deriving DecidableEq

/-- What the agent signs. -/
def LeaseRequest.message : LeaseRequest → Bytes
  | .begin agent lease blocks => leaseBeginMessage agent lease blocks
  | .cancel agent lease => leaseCancelMessage agent lease
  | .renew agent lease expectedGeneration ttlTicks =>
      leaseRenewMessage agent lease expectedGeneration ttlTicks
  | .commit agent lease key blocks parent expectedRevision =>
      leaseCommitMessage agent lease key blocks parent expectedRevision

/-- The lengths of the texts of a key are words. -/
def SizedKey (key : CacheKey) : Prop :=
  (textBytes key.fingerprint.modelId).length < 2 ^ 64 ∧
    (textBytes key.fingerprint.tokenizerHash).length < 2 ^ 64 ∧
    (textBytes key.fingerprint.kvLayout).length < 2 ^ 64

/-- The lengths that a request writes are words. -/
def LeaseRequest.Sized : LeaseRequest → Prop
  | .begin _ _ blocks => blocks.length < 2 ^ 64
  | .cancel _ _ => True
  | .renew _ _ _ _ => True
  | .commit _ _ key blocks parent _ =>
      SizedKey key ∧ blocks.length < 2 ^ 64 ∧
        ∀ inner ∈ parent, SizedKey inner

/-! ## The parts of a message -/

/-- Identifiers have a fixed length. -/
theorem delimits_agent : Delimits (fun _ => True) AgentId.bytes := by
  refine delimits_of_length 32 AgentId.length_bytes ?_
  rintro ⟨first, _⟩ ⟨second, _⟩ - - ⟨⟩
  rfl

theorem delimits_block : Delimits (fun _ => True) BlockId.bytes := by
  refine delimits_of_length 32 BlockId.length_bytes ?_
  rintro ⟨first, _⟩ ⟨second, _⟩ - - ⟨⟩
  rfl

theorem delimits_length :
    Delimits (fun length => length < 2 ^ 64) (leBytes 8) :=
  delimits_leBytes 8

/-- Words have a fixed length. -/
theorem delimits_word :
    Delimits (fun _ => True) (fun word : UInt64 => leBytes 8 word.toNat) := by
  refine delimits_of_length 8 (fun _ => length_leBytes _ _) ?_
  intro first second _ _ same
  exact UInt64.toNat_inj.mp
    (delimits_length.injective first.toNat_lt second.toNat_lt same)

/-- The bytes of a text determine it. -/
theorem textBytes_injective : Function.Injective textBytes := by
  intro first second same
  apply String.toByteArray_inj.mp
  apply ByteArray.ext
  exact Array.toList_inj.mp same

/-- A text ends where its length says. -/
theorem delimits_text :
    Delimits (fun text => (textBytes text).length < 2 ^ 64) pushText :=
  (delimits_bytes 8).via textBytes textBytes_injective

/-- The parts of a key end one after the other. -/
theorem delimits_leaseKey : Delimits SizedKey pushLeaseKey := by
  have parts := (delimits_text.pair
    (delimits_text.pair (delimits_text.pair delimits_block))).via
    (fun key : CacheKey =>
      (key.fingerprint.modelId, key.fingerprint.tokenizerHash,
        key.fingerprint.kvLayout, key.prefixHash)) (by
      rintro ⟨⟨_, _, _⟩, _⟩ ⟨⟨_, _, _⟩, _⟩ ⟨⟩
      rfl)
  intro first second firstRest secondRest firstSized secondSized same
  obtain ⟨model, tokenizer, layout⟩ := firstSized
  obtain ⟨model', tokenizer', layout'⟩ := secondSized
  exact parts first second firstRest secondRest
    ⟨model, tokenizer, layout, trivial⟩
    ⟨model', tokenizer', layout', trivial⟩ same

/-- A list of blocks ends after their number. -/
theorem delimits_blocks :
    Delimits (fun blocks => blocks.length < 2 ^ 64) pushBlocks := by
  intro first second firstRest secondRest firstSized secondSized same
  exact delimits_block.counted delimits_length first second firstRest
    secondRest ⟨firstSized, fun _ _ => trivial⟩
    ⟨secondSized, fun _ _ => trivial⟩ same

/-- The first byte says whether a parent follows. -/
theorem delimits_parent :
    Delimits (fun parent => ∀ inner ∈ parent, SizedKey inner)
      pushParent := by
  have option := delimits_leaseKey.option (show (0 : UInt8) ≠ 1 by decide)
  intro first second firstRest secondRest firstSized secondSized same
  refine option first second firstRest secondRest firstSized secondSized ?_
  cases first <;> cases second <;> exact same

/-! ## Whole requests -/

section Injective

variable {agent agent' : AgentId} {lease lease' : BlockId}
  {blocks blocks' : List BlockId}

/-- A signed reservation determines its blocks. -/
theorem begin_injective
    (sized : blocks.length < 2 ^ 64)
    (sized' : blocks'.length < 2 ^ 64)
    (same :
      leaseBeginMessage agent lease blocks =
        leaseBeginMessage agent' lease' blocks') :
    agent = agent' ∧ lease = lease' ∧ blocks = blocks' := by
  have body := List.append_cancel_left same
  obtain ⟨rfl, afterAgent⟩ := delimits_agent _ _ _ _ trivial trivial body
  obtain ⟨rfl, afterLease⟩ :=
    delimits_block _ _ _ _ trivial trivial afterAgent
  exact ⟨rfl, rfl, delimits_blocks.injective sized sized' afterLease⟩

theorem cancel_injective
    (same :
      leaseCancelMessage agent lease = leaseCancelMessage agent' lease') :
    agent = agent' ∧ lease = lease' := by
  have body := List.append_cancel_left same
  obtain ⟨rfl, afterAgent⟩ := delimits_agent _ _ _ _ trivial trivial body
  exact ⟨rfl, delimits_block.injective trivial trivial afterAgent⟩

theorem renew_injective
    {generation generation' ttl ttl' : UInt64}
    (same :
      leaseRenewMessage agent lease generation ttl =
        leaseRenewMessage agent' lease' generation' ttl') :
    agent = agent' ∧ lease = lease' ∧ generation = generation' ∧
      ttl = ttl' := by
  have body := List.append_cancel_left same
  obtain ⟨rfl, afterAgent⟩ := delimits_agent _ _ _ _ trivial trivial body
  obtain ⟨rfl, afterLease⟩ :=
    delimits_block _ _ _ _ trivial trivial afterAgent
  obtain ⟨rfl, afterGeneration⟩ :=
    delimits_word _ _ _ _ trivial trivial afterLease
  exact ⟨rfl, rfl, rfl,
    delimits_word.injective trivial trivial afterGeneration⟩

/-- A signed commit determines key, blocks, parent and revision. -/
theorem commit_injective
    {key key' : CacheKey}
    {parent parent' : Option CacheKey}
    {revision revision' : UInt64}
    (sized : (LeaseRequest.commit agent lease key blocks parent
      revision).Sized)
    (sized' : (LeaseRequest.commit agent' lease' key' blocks' parent'
      revision').Sized)
    (same :
      leaseCommitMessage agent lease key blocks parent revision =
        leaseCommitMessage agent' lease' key' blocks' parent' revision') :
    LeaseRequest.commit agent lease key blocks parent revision =
      .commit agent' lease' key' blocks' parent' revision' := by
  obtain ⟨keySized, blocksSized, parentSized⟩ := sized
  obtain ⟨keySized', blocksSized', parentSized'⟩ := sized'
  have body := List.append_cancel_left same
  obtain ⟨rfl, afterAgent⟩ := delimits_agent _ _ _ _ trivial trivial body
  obtain ⟨rfl, afterLease⟩ :=
    delimits_block _ _ _ _ trivial trivial afterAgent
  obtain ⟨rfl, afterRevision⟩ :=
    delimits_word _ _ _ _ trivial trivial afterLease
  obtain ⟨rfl, afterKey⟩ :=
    delimits_leaseKey _ _ _ _ keySized keySized' afterRevision
  obtain ⟨rfl, afterBlocks⟩ :=
    delimits_blocks _ _ _ _ blocksSized blocksSized' afterKey
  rw [delimits_parent.injective parentSized parentSized' afterBlocks]

end Injective

/-- The kinds of messages that are signed. -/
inductive Domain where
  | register
  | bind
  | chain
  | leaseBegin
  | leaseCancel
  | leaseRenew
  | leaseCommit
  deriving DecidableEq

/-- The bytes that a kind of message starts with. -/
def Domain.bytes : Domain → Bytes
  | .register => registerPrefix
  | .bind => bindPrefix
  | .chain => chainPrefix
  | .leaseBegin => leaseBeginPrefix
  | .leaseCancel => leaseCancelPrefix
  | .leaseRenew => leaseRenewPrefix
  | .leaseCommit => leaseCommitPrefix

/-- No domain starts with another one. -/
theorem Domain.eq_of_starts
    (first second : Domain)
    (starts : first.bytes <+: second.bytes) :
    first = second := by
  revert starts
  cases first <;> cases second <;> decide +kernel

/-- A message has one domain. -/
theorem Domain.eq_of_append
    {first second : Domain}
    {firstBody secondBody : Bytes}
    (same : first.bytes ++ firstBody = second.bytes ++ secondBody) :
    first = second := by
  have starts : first.bytes <+: second.bytes ++ secondBody :=
    ⟨firstBody, same⟩
  obtain shorter | longer :=
    List.prefix_or_prefix_of_prefix starts (List.prefix_append _ _)
  · exact eq_of_starts _ _ shorter
  · exact (eq_of_starts _ _ longer).symm

/-- The kind of message that a lease request is. -/
def LeaseRequest.domain : LeaseRequest → Domain
  | .begin _ _ _ => .leaseBegin
  | .cancel _ _ => .leaseCancel
  | .renew _ _ _ _ => .leaseRenew
  | .commit _ _ _ _ _ _ => .leaseCommit

theorem LeaseRequest.exists_body (request : LeaseRequest) :
    ∃ body, request.message = request.domain.bytes ++ body := by
  cases request <;> exact ⟨_, rfl⟩

/-- What starts with the domain of a request is of its kind. -/
theorem LeaseRequest.domain_eq
    {request : LeaseRequest}
    {domain : Domain}
    {body : Bytes}
    (same : request.message = domain.bytes ++ body) :
    request.domain = domain := by
  obtain ⟨ownBody, isMessage⟩ := request.exists_body
  exact Domain.eq_of_append (isMessage.symm.trans same)

/-- What is signed for a lease determines the request, and is no older one. -/
theorem lease_signatures_cover_requests :
    (∀ first second : LeaseRequest,
      first.Sized →
      second.Sized →
      first.message = second.message →
      first = second) ∧
    ∀ request : LeaseRequest,
      (∀ agent displayName,
        request.message ≠ registerMessage agent displayName) ∧
      (∀ agent key blocks parent,
        request.message ≠ bindMessage agent key blocks parent) ∧
      ∀ agent links, request.message ≠ chainMessage agent links := by
  constructor
  · intro first second firstSized secondSized same
    obtain ⟨body, isMessage⟩ := second.exists_body
    have sameDomain := LeaseRequest.domain_eq (same.trans isMessage)
    cases first <;> cases second
    case begin.begin =>
      obtain ⟨rfl, rfl, rfl⟩ := begin_injective firstSized secondSized same
      rfl
    case cancel.cancel =>
      obtain ⟨rfl, rfl⟩ := cancel_injective same
      rfl
    case renew.renew =>
      obtain ⟨rfl, rfl, rfl, rfl⟩ := renew_injective same
      rfl
    case commit.commit =>
      exact commit_injective firstSized secondSized same
    all_goals cases sameDomain
  · intro request
    refine ⟨?_, ?_, ?_⟩
    · intro agent displayName same
      have ofKind : request.domain = .register :=
        LeaseRequest.domain_eq same
      cases request <;> cases ofKind
    · intro agent key blocks parent same
      have ofKind : request.domain = .bind := LeaseRequest.domain_eq same
      cases request <;> cases ofKind
    · intro agent links same
      have ofKind : request.domain = .chain := LeaseRequest.domain_eq same
      cases request <;> cases ofKind

/-- A commit under a key whose texts are divided as given. -/
def dividedCommit (modelId tokenizerHash : String) : LeaseRequest :=
  .commit (.filled 1) (.filled 9)
    ⟨⟨modelId, tokenizerHash, "layout"⟩, .filled 7⟩ [.filled 2] none 0

/-- Two keys whose texts are the same when they are joined. -/
theorem lease_signatures_cover_requests_divided :
    (dividedCommit "ab" "c").Sized ∧
      (dividedCommit "a" "bc").Sized ∧
      (dividedCommit "ab" "c").message ≠ (dividedCommit "a" "bc").message := by
  have sized :
      (dividedCommit "ab" "c").Sized ∧ (dividedCommit "a" "bc").Sized := by
    simp only [dividedCommit, LeaseRequest.Sized, SizedKey]
    decide +kernel
  refine ⟨sized.1, sized.2, fun same => ?_⟩
  have equal := lease_signatures_cover_requests.1 _ _ sized.1 sized.2 same
  exact absurd equal (by decide)

end KalpakDb.Signing
