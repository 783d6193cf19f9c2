import KalpakDb.FiniteMap
import KalpakDb.MachineWord
import KalpakDb.MetadataTypes

namespace KalpakDb

/-!
# Upload leases

Replicated reservations and optional logical-tick expiry.  Every operation
takes the state it mutates and returns the state it leaves together with its
response.  `bindingKey` is the serialized form of a cache key.
-/

open Std (ExtTreeMap)
open MachineWord

def maxLeases : Nat := 4096
def maxLeaseBlocks : Nat := 256
def maxReservedBlocks : Nat := 65536
def maxTtlTicks : UInt64 := 86400

/-- Every fingerprint string of a key is at most 1024 bytes long. -/
def validKey (key : CacheKey) : Bool :=
  [key.fingerprint.modelId, key.fingerprint.tokenizerHash,
      key.fingerprint.kvLayout].all
    fun value => value.utf8ByteSize ≤ 1024

/-- A bounded key whose parent, if any, is bounded and of the same model. -/
def validBinding (binding : ChainBinding) : Bool :=
  validKey binding.key &&
    (match binding.parent with
    | none => true
    | some parent =>
        validKey parent &&
          parent.fingerprint == binding.key.fingerprint)

namespace LeaseState

/-- The number of blocks reserved by all leases together. -/
def reservedBlocks (leases : LeaseState) : Nat :=
  ((FiniteMap.values leases.records).map
    fun lease => lease.blocks.length).sum

/-- An uncommitted, uncancelled lease that is marked or past its deadline. -/
def isExpired (leases : LeaseState) (id : BlockId) : Bool :=
  (leases.records[id]?.any fun lease => lease.committed.isNone) &&
    !leases.cancelled.contains id &&
    (leases.expired.contains id ||
      leases.deadlines[id]?.any fun deadline =>
        deadline.deadlineTick ≤ leases.clock)

section Validation

variable (bindingKey : CacheKey → String)

/-- A deadline that no renewal could have produced. -/
def invalidDeadline
    (leases : LeaseState)
    (entry : BlockId × LeaseDeadline) : Bool :=
  !leases.records.contains entry.1 ||
    entry.2.generation == 0 ||
    !(1 ≤ entry.2.ttlTicks && entry.2.ttlTicks ≤ maxTtlTicks) ||
    (match checkedSub entry.2.deadlineTick entry.2.ttlTicks with
    | none => true
    | some issued => issued > leases.clock)

/-- An expiry marker on a lease that cannot have expired. -/
def invalidExpiry (leases : LeaseState) (id : BlockId) : Bool :=
  (match leases.records[id]? with
    | none => true
    | some lease => lease.committed.isSome) ||
    leases.cancelled.contains id ||
    (match leases.deadlines[id]? with
    | none => true
    | some deadline => deadline.deadlineTick > leases.clock)

/-- A cancellation of an unknown or committed lease. -/
def invalidCancellation (leases : LeaseState) (id : BlockId) : Bool :=
  match leases.records[id]? with
  | none => true
  | some lease => lease.committed.isSome

/-- A lease with a malformed block list or commit. -/
def invalidRecord (leases : LeaseState) (lease : UploadLease) : Bool :=
  lease.blocks.isEmpty ||
    lease.blocks.length > maxLeaseBlocks ||
    (match lease.committed with
    | none => false
    | some commit =>
        !validBinding commit.binding ||
          commit.binding.blocks != lease.blocks ||
          !leases.revisions.contains (bindingKey commit.binding.key))

/-- The lease half of snapshot validation. -/
def validate (leases : LeaseState) : Except String Unit :=
  if leases.records.size > maxLeases ||
      leases.deadlines.toList.any leases.invalidDeadline ||
      leases.expired.keys.any leases.invalidExpiry ||
      leases.cancelled.keys.any leases.invalidCancellation ||
      (!leases.initialized &&
        (!leases.records.isEmpty || !leases.revisions.isEmpty)) ||
      leases.reservedBlocks > maxReservedBlocks ||
      (FiniteMap.values leases.records).any
        (leases.invalidRecord bindingKey) then
    .error "invalid upload lease snapshot"
  else
    .ok ()

end Validation

end LeaseState

/-! ## Lifecycle operations -/

/-- The first reservation starts every revision fence at zero. -/
def activateLeases (state : MetadataState) : MetadataState :=
  if !state.leases.initialized then
    { state with
      leases := { state.leases with
        initialized := true
        revisions := ∅ } }
  else
    state

/-- Record a new pending lease at the current log position. -/
def insertReservation
    (state : MetadataState)
    (id : BlockId)
    (agent : AgentId)
    (blocks : List BlockId) : MetadataState :=
  { state with
    leases := { state.leases with
      records := state.leases.records.insert id {
        agent := agent
        blocks := blocks
        createdAt := state.appliedIndex
        committed := none } } }

def reserve
    (original : MetadataState)
    (id : BlockId)
    (agent : AgentId)
    (blocks : List BlockId) : MetadataState × Response :=
  if blocks.isEmpty || blocks.length > maxLeaseBlocks ||
      !original.agents.contains agent then
    (original, .rejected
      "lease requires a registered owner and 1..256 block hashes")
  else
    let state := activateLeases original
    match state.leases.records[id]? with
    | some old =>
        if old.agent = agent ∧ old.blocks = blocks then
          if state.leases.isExpired id then
            (state, .rejected "upload lease expired")
          else if state.leases.cancelled.contains id then
            (state, .rejected "upload lease cancelled")
          else
            (state, .leaseReserved)
        else
          (state, .rejected
            "lease ID already belongs to a different reservation")
    | none =>
        if state.leases.records.size ≥ maxLeases ||
            state.leases.reservedBlocks + blocks.length >
              maxReservedBlocks then
          (state, .rejected "replicated upload lease capacity exhausted")
        else
          (insertReservation state id agent blocks, .leaseReserved)

/--
Side-effect-free commit validation.  `ok false` acknowledges an exact retry
of a consumed lease, whose old binding must not be applied again.
-/
def validateCommit
    (bindingKey : CacheKey → String)
    (state : MetadataState)
    (id : BlockId)
    (agent : AgentId)
    (binding : ChainBinding)
    (expectedRevision : UInt64) : Except String Bool :=
  if !validBinding binding then
    .error "invalid lease binding fingerprint or parent"
  else
    match state.leases.records[id]? with
    | none => .error "unknown upload lease"
    | some lease =>
        if lease.agent ≠ agent ∨ lease.blocks ≠ binding.blocks then
          .error "lease owner or blocks mismatch"
        else if state.leases.cancelled.contains id then
          .error "upload lease cancelled"
        else if state.leases.isExpired id then
          .error "upload lease expired"
        else
          match lease.committed with
          | some old =>
              if old.expectedRevision = expectedRevision ∧
                  old.binding.key = binding.key ∧
                  old.binding.parent = binding.parent ∧
                  old.binding.blocks = binding.blocks then
                .ok false
              else
                .error "upload lease already consumed"
          | none =>
              let key := bindingKey binding.key
              if state.bindings[key]?.any fun old => old.agent ≠ agent then
                .error "binding belongs to a different agent"
              else
                let current := state.leases.revisions[key]?.getD 0
                if current = maxWord ∨ current ≠ expectedRevision then
                  .error "binding revision conflict"
                else
                  .ok true

def cancel
    (state : MetadataState)
    (id : BlockId)
    (agent : AgentId) : MetadataState × Response :=
  match state.leases.records[id]? with
  | none => (state, .rejected "unknown upload lease")
  | some lease =>
      if lease.agent ≠ agent then
        (state, .rejected "lease owner mismatch")
      else if lease.committed.isSome then
        (state, .rejected "committed upload lease cannot be cancelled")
      else if state.leases.isExpired id then
        (state, .rejected "upload lease expired")
      else
        ({ state with
          leases := { state.leases with
            cancelled := state.leases.cancelled.insertIfNew id
              state.appliedIndex } },
          .leaseCancelled)

def renew
    (state : MetadataState)
    (id : BlockId)
    (agent : AgentId)
    (expected : UInt64)
    (ttl : UInt64) : MetadataState × Response :=
  match state.leases.records[id]? with
  | none => (state, .rejected "unknown upload lease")
  | some lease =>
      if lease.agent ≠ agent ∨ lease.committed.isSome ∨
          state.leases.cancelled.contains id ∨ state.leases.isExpired id then
        (state, .rejected "lease is not pending for this owner")
      else if ¬ (1 ≤ ttl ∧ ttl ≤ maxTtlTicks) ∨ expected = maxWord then
        (state, .rejected "invalid TTL or renewal generation")
      else
        match state.leases.deadlines[id]?.filter fun old =>
            old.generation == expected + 1 && old.ttlTicks == ttl with
        | some old =>
            (state, .leaseRenewed old.generation old.deadlineTick)
        | none =>
            let current :=
              (state.leases.deadlines[id]?.map LeaseDeadline.generation).getD 0
            if expected ≠ current then
              (state, .rejected "lease renewal generation conflict")
            else
              match checkedAdd state.leases.clock ttl with
              | none => (state, .rejected "lease clock exhausted")
              | some deadlineTick =>
                  if state.leases.deadlines[id]?.any fun old =>
                      old.deadlineTick ≥ deadlineTick then
                    (state, .rejected "renewal must extend the deadline")
                  else
                    let generation := current + 1
                    ({ state with
                      leases := { state.leases with
                        deadlines := state.leases.deadlines.insert id {
                          generation := generation
                          deadlineTick := deadlineTick
                          ttlTicks := ttl } } },
                      .leaseRenewed generation deadlineTick)

def advance
    (state : MetadataState)
    (expected : UInt64) : MetadataState × Response :=
  if expected < state.leases.clock then
    (state, .leaseClockAdvanced)
  else if expected ≠ state.leases.clock then
    (state, .rejected "lease clock conflict")
  else
    match checkedAdd expected 1 with
    | none => (state, .rejected "lease clock exhausted")
    | some next =>
        ({ state with leases := { state.leases with clock := next } },
          .leaseClockAdvanced)

def expire
    (state : MetadataState)
    (id : BlockId)
    (generation : UInt64)
    (deadlineTick : UInt64) : MetadataState × Response :=
  if !state.leases.isExpired id ||
      (match state.leases.deadlines[id]? with
      | none => true
      | some deadline =>
          deadline.generation != generation ||
            deadline.deadlineTick != deadlineTick) then
    (state, .rejected "stale or premature lease expiry")
  else
    ({ state with
      leases := { state.leases with
        expired := state.leases.expired.insertIfNew id
          state.appliedIndex } },
      .leaseExpired)

/-! ## Status report -/

structure LeaseStatusCounts where
  total : Nat
  pending : Nat
  committed : Nat
  cancelled : Nat
  expired : Nat
  currentTick : UInt64
  expiryMarkers : Nat
  deriving DecidableEq

/-- Lease totals; `none` when one of the size subtractions underflows. -/
def LeaseState.statusCounts (leases : LeaseState) : Option LeaseStatusCounts := do
  let committed :=
    ((FiniteMap.values leases.records).filter
      fun lease => lease.committed.isSome).length
  let expired := (leases.records.keys.filter leases.isExpired).length
  let uncommitted ← checkedSizeSub leases.records.size committed
  let unexpired ← checkedSizeSub uncommitted expired
  let pending ← checkedSizeSub unexpired leases.cancelled.size
  return {
    total := leases.records.size
    pending := pending
    committed := committed
    cancelled := leases.cancelled.size
    expired := expired
    currentTick := leases.clock
    expiryMarkers := leases.expired.size }

end KalpakDb
