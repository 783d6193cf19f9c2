import KalpakDb.Snapshot

namespace KalpakDb.BincodeLayout

/-!
# The standard binary layout of snapshots

Snapshots are written with variable-width integers, one presence byte for
optional values, counted sequences and maps, and structures as their fields in
order.  Identifiers are written as counted lowercase hexadecimal text.  This
module instantiates the snapshot codecs with that layout, so the assumptions
made of the serialization library are satisfied together.
-/

open Std (ExtTreeMap)
open ByteCodec (StreamCodec SliceCodec)
open ByteCodec.StreamCodec

/-! ## Hexadecimal identifiers -/

/-- The ASCII bytes of the hexadecimal text. -/
def hexText (bytes : Bytes) : Bytes :=
  (hexEncode bytes).map fun digit => UInt8.ofNat digit.toNat

/-- The value of a digit, in upper or lower case. -/
def hexNibble? (digit : UInt8) : Option UInt8 :=
  if 48 ≤ digit ∧ digit ≤ 57 then some (digit - 48)
  else if 97 ≤ digit ∧ digit ≤ 102 then some (digit - 87)
  else if 65 ≤ digit ∧ digit ≤ 70 then some (digit - 55)
  else none

/-- Two digits for each byte; a single last digit is refused. -/
def hexDecode? : Bytes → Option Bytes
  | [] => some []
  | [_] => none
  | high :: low :: rest => do
      let high ← hexNibble? high
      let low ← hexNibble? low
      let bytes ← hexDecode? rest
      return (16 * high + low) :: bytes

/-- Each of the sixteen digits is read as it was written. -/
theorem hexNibble?_hexDigit :
    ∀ value : Fin 16,
      hexNibble?
          (UInt8.ofNat (hexDigit (UInt8.ofNat value.val)).toNat) =
        some (UInt8.ofNat value.val) := by
  decide +kernel

/-- Reading back the digit of one half of a byte. -/
theorem hexNibble?_of_lt
    {nibble : UInt8}
    (small : nibble.toNat < 16) :
    hexNibble? (UInt8.ofNat (hexDigit nibble).toNat) = some nibble := by
  have read := hexNibble?_hexDigit ⟨nibble.toNat, small⟩
  simpa using read

/-- The text of some bytes is read as these bytes. -/
theorem hexDecode?_hexText (bytes : Bytes) :
    hexDecode? (hexText bytes) = some bytes := by
  induction bytes with
  | nil =>
      rfl
  | cons byte rest inductionHypothesis =>
      have bound := byte.toNat_lt
      have high : (byte / 16).toNat < 16 := by
        rw [UInt8.toNat_div]
        exact Nat.div_lt_of_lt_mul (by simpa using bound)
      have low : (byte % 16).toNat < 16 := by
        rw [UInt8.toNat_mod]
        exact Nat.mod_lt _ (by decide)
      have joined : 16 * (byte / 16) + byte % 16 = byte := by
        apply UInt8.toNat_inj.mp
        rw [UInt8.toNat_add, UInt8.toNat_mul, UInt8.toNat_div,
          UInt8.toNat_mod]
        have base : (16 : UInt8).toNat = 16 := rfl
        rw [base]
        omega
      have shape :
          hexText (byte :: rest) =
            UInt8.ofNat (hexDigit (byte / 16)).toNat ::
              UInt8.ofNat (hexDigit (byte % 16)).toNat :: hexText rest := rfl
      rw [shape]
      simp [hexDecode?, hexNibble?_of_lt high, hexNibble?_of_lt low,
        inductionHypothesis, joined]

theorem length_hexText (bytes : Bytes) :
    (hexText bytes).length = 2 * bytes.length := by
  induction bytes with
  | nil =>
      rfl
  | cons byte rest inductionHypothesis =>
      have shape :
          (hexText (byte :: rest)).length = (hexText rest).length + 2 := rfl
      rw [shape, inductionHypothesis, List.length_cons]
      omega

/-- A block identifier: the counted text of its bytes. -/
def blockId : StreamCodec BlockId :=
  (list varint byte).via (fun id => hexText id.bytes)
    (fun text => (hexDecode? text).bind BlockId.ofBytes?)
    (fun id => by simp [hexDecode?_hexText])

/-- An agent identifier, in the same form. -/
def agentId : StreamCodec AgentId :=
  (list varint byte).via (fun id => hexText id.bytes)
    (fun text => (hexDecode? text).bind AgentId.ofBytes?)
    (fun id => by simp [hexDecode?_hexText])

/-! ## Structures -/

/-- A structure stored as its fields. -/
def fields
    {α β : Type}
    (codec : StreamCodec α)
    (store : β → α)
    (load : α → β)
    (load_store : ∀ value, load (store value) = value) : StreamCodec β :=
  codec.via store (fun stored => some (load stored))
    (fun value => congrArg some (load_store value))

def text : StreamCodec String := string varint

/-- A log position: term and node of the leader, then the index. -/
def logId : StreamCodec LogId :=
  fields (pair (pair uint64 uint64) uint64)
    (fun value =>
      ((value.leaderId.term, value.leaderId.nodeId), value.index))
    (fun stored => ⟨⟨stored.1.1, stored.1.2⟩, stored.2⟩)
    (fun _ => rfl)

def basicNode : StreamCodec BasicNode :=
  fields text BasicNode.addr BasicNode.mk (fun _ => rfl)

/-- The sets of voters, then the nodes with their addresses. -/
def membership : StreamCodec Membership :=
  fields (pair (list varint (set varint uint64)) (map varint uint64 basicNode))
    (fun value => (value.configs, value.nodes))
    (fun stored => ⟨stored.1, stored.2⟩)
    (fun _ => rfl)

/-- A membership behind the position at which it was set. -/
def storedMembership : StreamCodec StoredMembership :=
  fields (pair (option logId) membership)
    (fun value => (value.logId, value.membership))
    (fun stored => ⟨stored.1, stored.2⟩)
    (fun _ => rfl)

def modelFingerprint : StreamCodec ModelFingerprint :=
  fields (pair text (pair text text))
    (fun value => (value.modelId, value.tokenizerHash, value.kvLayout))
    (fun stored => ⟨stored.1, stored.2.1, stored.2.2⟩)
    (fun _ => rfl)

def cacheKey : StreamCodec CacheKey :=
  fields (pair modelFingerprint blockId)
    (fun value => (value.fingerprint, value.prefixHash))
    (fun stored => ⟨stored.1, stored.2⟩)
    (fun _ => rfl)

/-- A link of a chain: its key, its blocks and its parent. -/
def chainBinding : StreamCodec ChainBinding :=
  fields (pair cacheKey (pair (list varint blockId) (option cacheKey)))
    (fun value => (value.key, value.blocks, value.parent))
    (fun stored => ⟨stored.1, stored.2.1, stored.2.2⟩)
    (fun _ => rfl)

/-- The binding of a commit and the revision it expected. -/
def leaseCommit : StreamCodec LeaseCommit :=
  fields (pair chainBinding uint64)
    (fun value => (value.binding, value.expectedRevision))
    (fun stored => ⟨stored.1, stored.2⟩)
    (fun _ => rfl)

/-- A reservation; its commit comes last, if there is one. -/
def uploadLease : StreamCodec UploadLease :=
  fields
    (pair agentId
      (pair (list varint blockId) (pair uint64 (option leaseCommit))))
    (fun value =>
      (value.agent, value.blocks, value.createdAt, value.committed))
    (fun stored => ⟨stored.1, stored.2.1, stored.2.2.1, stored.2.2.2⟩)
    (fun _ => rfl)

/-- The generation, the tick of the deadline and the duration. -/
def leaseDeadline : StreamCodec LeaseDeadline :=
  fields (pair uint64 (pair uint64 uint64))
    (fun value => (value.generation, value.deadlineTick, value.ttlTicks))
    (fun stored => ⟨stored.1, stored.2.1, stored.2.2⟩)
    (fun _ => rfl)

def agentRecord : StreamCodec AgentRecord :=
  fields (pair text uint64)
    (fun value => (value.displayName, value.registeredAt))
    (fun stored => ⟨stored.1, stored.2⟩)
    (fun _ => rfl)

def bindingRecord : StreamCodec BindingRecord :=
  fields (pair agentId (list varint blockId))
    (fun value => (value.agent, value.blocks))
    (fun stored => ⟨stored.1, stored.2⟩)
    (fun _ => rfl)

/-- Leases of version three: no cancellations, no clock. -/
def v3LeaseState : StreamCodec V3LeaseState :=
  fields
    (pair bool
      (pair (map varint blockId uploadLease) (map varint text uint64)))
    (fun value => (value.initialized, value.records, value.revisions))
    (fun stored => ⟨stored.1, stored.2.1, stored.2.2⟩)
    (fun _ => rfl)

/-- Version four has the cancellations behind them. -/
def v4LeaseState : StreamCodec V4LeaseState :=
  fields (pair v3LeaseState (map varint blockId uint64))
    (fun value =>
      (⟨value.initialized, value.records, value.revisions⟩,
        value.cancelled))
    (fun stored =>
      ⟨stored.1.initialized, stored.1.records, stored.1.revisions, stored.2⟩)
    (fun _ => rfl)

/-- From version five on, clock, deadlines and expiries follow. -/
def leaseState : StreamCodec LeaseState :=
  fields
    (pair v4LeaseState
      (pair uint64
        (pair (map varint blockId leaseDeadline)
          (map varint blockId uint64))))
    (fun value =>
      (⟨value.initialized, value.records, value.revisions, value.cancelled⟩,
        value.clock, value.deadlines, value.expired))
    (fun stored =>
      { initialized := stored.1.initialized
        records := stored.1.records
        revisions := stored.1.revisions
        cancelled := stored.1.cancelled
        clock := stored.2.1
        deadlines := stored.2.2.1
        expired := stored.2.2.2 })
    (fun _ => rfl)

/-! ## Snapshot layouts -/

/-- The first layout: no marker, no requirements, no leases. -/
def legacyMetadata : StreamCodec LegacyMetadataState :=
  fields
    (pair (map varint agentId agentRecord)
      (pair (map varint text bindingRecord)
        (pair (map varint text (list varint text))
          (pair (map varint blockId uint32)
            (pair (option logId) storedMembership)))))
    (fun value =>
      (value.agents, value.bindings, value.children, value.blockRefs,
        value.lastApplied, value.membership))
    (fun stored =>
      ⟨stored.1, stored.2.1, stored.2.2.1, stored.2.2.2.1,
        stored.2.2.2.2.1, stored.2.2.2.2.2⟩)
    (fun _ => rfl)

/-- Version two begins with the replica requirements. -/
def v2Metadata : StreamCodec V2MetadataState :=
  fields (pair (map varint blockId uint64) legacyMetadata)
    (fun value =>
      (value.replicaRequirements,
        ⟨value.agents, value.bindings, value.children, value.blockRefs,
          value.lastApplied, value.membership⟩))
    (fun stored =>
      ⟨stored.1, stored.2.agents, stored.2.bindings, stored.2.children,
        stored.2.blockRefs, stored.2.lastApplied, stored.2.membership⟩)
    (fun _ => rfl)

/-- Versions three to five begin with their leases. -/
def versionedMetadata
    {Leases : Type}
    (leases : StreamCodec Leases) :
    StreamCodec (VersionedMetadata Leases) :=
  fields (pair leases v2Metadata)
    (fun value =>
      (value.leases,
        ⟨value.replicaRequirements, value.agents, value.bindings,
          value.children, value.blockRefs, value.lastApplied,
          value.membership⟩))
    (fun stored =>
      ⟨stored.1, stored.2.replicaRequirements, stored.2.agents,
        stored.2.bindings, stored.2.children, stored.2.blockRefs,
        stored.2.lastApplied, stored.2.membership⟩)
    (fun _ => rfl)

/-- Version six begins with the fences of the blocks. -/
def metadataState : StreamCodec MetadataState :=
  fields (pair (map varint blockId uint64) (versionedMetadata leaseState))
    (fun value =>
      (value.blockFences,
        ⟨value.leases, value.replicaRequirements, value.agents,
          value.bindings, value.children, value.blockRefs,
          value.lastApplied, value.membership⟩))
    (fun stored =>
      { stored.2.withLeases id with blockFences := stored.1 })
    (fun _ => rfl)

/-- The only count written with a leading byte 75 is 75, in one byte. -/
theorem varintBytes_of_head
    {count : Nat}
    {tail : Bytes}
    (shape : varintBytes count = 75 :: tail) :
    tail = [] := by
  unfold varintBytes at shape
  split at shape
  · exact (List.cons.inj shape).2.symm
  · split at shape
    · simp at shape
    · split at shape
      · simp at shape
      · split at shape <;> simp at shape

/-- A textual agent identifier starts with its length, 64. -/
theorem agentId_encode (agent : AgentId) :
    agentId.encode agent = 64 :: (hexText agent.bytes).flatMap byte.encode := by
  have length : (hexText agent.bytes).length = 64 := by
    rw [length_hexText, agent.length_bytes]
  change varintBytes (hexText agent.bytes).length ++ _ = _
  rw [length]
  rfl

/-- No marker resembles a count of agents and a textual agent identifier. -/
theorem legacyMetadata_unmarked
    (state : LegacyMetadataState)
    (digit : UInt8) :
    ¬ snapshotMarker digit <+: legacyMetadata.encode state := by
  have shape :
      ∃ others,
        legacyMetadata.encode state =
          varintBytes state.agents.toList.length ++
            (state.agents.toList.flatMap (pair agentId agentRecord).encode ++
              others) :=
    ⟨_, List.append_assoc _ _ _⟩
  obtain ⟨others, shape⟩ := shape
  rw [shape]
  rintro ⟨suffix, marked⟩
  obtain ⟨tag, tail, count⟩ :
      ∃ tag tail, varintBytes state.agents.toList.length = tag :: tail := by
    unfold varintBytes
    split
    · exact ⟨_, _, rfl⟩
    · split
      · exact ⟨_, _, rfl⟩
      · split
        · exact ⟨_, _, rfl⟩
        · split <;> exact ⟨_, _, rfl⟩
  rw [count] at marked
  have isTag : tag = 75 := (List.cons.inj marked).1.symm
  subst tag
  have tailNil := varintBytes_of_head count
  subst tail
  cases entries : state.agents.toList with
  | nil =>
      rw [entries] at count
      cases count
  | cons entry rest =>
      have first :
          (pair agentId agentRecord).encode entry =
            64 :: ((hexText entry.1.bytes).flatMap byte.encode ++
              agentRecord.encode entry.2) := by
        change agentId.encode entry.1 ++ _ = _
        rw [agentId_encode]
        rfl
      rw [entries, List.flatMap_cons, first] at marked
      simp [snapshotMarker] at marked

/-- The snapshot codecs of the standard binary layout. -/
def bincode : SnapshotCodecs where
  v6 := metadataState.toSlice
  v5 := (versionedMetadata leaseState).toSlice
  v4 := (versionedMetadata v4LeaseState).toSlice
  v3 := (versionedMetadata v3LeaseState).toSlice
  v2 := v2Metadata.toSlice
  legacy := legacyMetadata.toSlice
  legacy_unmarked := legacyMetadata_unmarked

end KalpakDb.BincodeLayout
