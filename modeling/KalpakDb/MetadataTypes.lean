import KalpakDb.Identifiers

namespace KalpakDb

/-!
# Replicated metadata: requests, responses and state

The control plane replicates metadata only.  A log entry carries a request,
a blank or a membership change.  The state machine keeps the agent registry,
the prefix bindings with their reference counts, the replica requirements,
the upload leases and the position of the last reference change of each
block.

Hash maps and ordered maps of the source are both finite ordered maps here:
no modelled function depends on the iteration order of a hash map.
-/

open Std (ExtTreeMap ExtTreeSet)

/-- A log position: the leader that proposed the entry, and its index. -/
structure CommittedLeaderId where
  term : UInt64
  nodeId : UInt64
  deriving DecidableEq

structure LogId where
  leaderId : CommittedLeaderId
  index : UInt64
  deriving DecidableEq

/-- A cluster member's address. -/
structure BasicNode where
  addr : String
  deriving DecidableEq

/-- Joint voter configurations together with every known node. -/
structure Membership where
  configs : List (ExtTreeSet UInt64) := []
  nodes : ExtTreeMap UInt64 BasicNode := ∅
  deriving DecidableEq

/-- The last applied membership and where it was proposed. -/
structure StoredMembership where
  logId : Option LogId := none
  membership : Membership := {}
  deriving DecidableEq

/-- One link of an atomic chain bind. -/
structure ChainBinding where
  key : CacheKey
  blocks : List BlockId
  parent : Option CacheKey
  deriving DecidableEq

/-- A metadata mutation submitted to the replicated state machine. -/
inductive Request where
  | requireReplicas
      (blocks : List BlockId)
      (replicas : UInt64)
  | registerAgent
      (agent : AgentId)
      (displayName : String)
  | bindPrefix
      (agent : AgentId)
      (key : CacheKey)
      (blocks : List BlockId)
      (parent : Option CacheKey)
  | bindChain
      (agent : AgentId)
      (bindings : List ChainBinding)
  | beginUploadLease
      (lease : BlockId)
      (agent : AgentId)
      (blocks : List BlockId)
  | commitUploadLease
      (lease : BlockId)
      (agent : AgentId)
      (binding : ChainBinding)
      (expectedRevision : UInt64)
  | cancelUploadLease
      (lease : BlockId)
      (agent : AgentId)
  | renewUploadLease
      (lease : BlockId)
      (agent : AgentId)
      (expectedGeneration : UInt64)
      (ttlTicks : UInt64)
  | advanceLeaseClock
      (expectedTick : UInt64)
  | expireUploadLease
      (lease : BlockId)
      (generation : UInt64)
      (deadlineTick : UInt64)
  deriving DecidableEq

inductive Response where
  | replicasRequired
  | rejected (message : String)
  | registered
  | bound
  | leaseReserved
  | leaseCancelled
  | leaseRenewed (generation : UInt64) (deadlineTick : UInt64)
  | leaseClockAdvanced
  | leaseExpired
  deriving DecidableEq

namespace Response

/-- Whether a response is a rejection, whatever its message. -/
def isRejected : Response → Bool
  | .rejected _ => true
  | _ => false

end Response

inductive EntryPayload where
  | blank
  | normal (request : Request)
  | membership (membership : Membership)
  deriving DecidableEq

/-- One committed entry of the replicated log. -/
structure Entry where
  logId : LogId
  payload : EntryPayload
  deriving DecidableEq

/-! ## Upload leases -/

/-- A renewal: its generation, the tick it lasts to, and the requested span. -/
structure LeaseDeadline where
  generation : UInt64
  deadlineTick : UInt64
  ttlTicks : UInt64
  deriving DecidableEq

structure LeaseCommit where
  binding : ChainBinding
  expectedRevision : UInt64
  deriving DecidableEq

structure UploadLease where
  agent : AgentId
  blocks : List BlockId
  createdAt : UInt64
  committed : Option LeaseCommit
  deriving DecidableEq

/--
Replicated reservations.  The first successful reservation sets
`initialized`; from then on every binding mutation advances `revisions`.
-/
structure LeaseState where
  initialized : Bool := false
  records : ExtTreeMap BlockId UploadLease := ∅
  revisions : ExtTreeMap String UInt64 := ∅
  cancelled : ExtTreeMap BlockId UInt64 := ∅
  clock : UInt64 := 0
  deadlines : ExtTreeMap BlockId LeaseDeadline := ∅
  expired : ExtTreeMap BlockId UInt64 := ∅
  deriving DecidableEq

/-! ## The state machine -/

structure AgentRecord where
  displayName : String
  registeredAt : UInt64
  deriving DecidableEq

structure BindingRecord where
  agent : AgentId
  blocks : List BlockId
  deriving DecidableEq

/--
The replicated state.  A missing entry of `blockFences` means unknown
history, never a safe zero fence.  `bindings` and `children` are stored under
the serialized cache key.
-/
structure MetadataState where
  blockFences : ExtTreeMap BlockId UInt64 := ∅
  leases : LeaseState := {}
  replicaRequirements : ExtTreeMap BlockId UInt64 := ∅
  agents : ExtTreeMap AgentId AgentRecord := ∅
  bindings : ExtTreeMap String BindingRecord := ∅
  children : ExtTreeMap String (List String) := ∅
  blockRefs : ExtTreeMap BlockId UInt32 := ∅
  lastApplied : Option LogId := none
  membership : StoredMembership := {}
  deriving DecidableEq

namespace MetadataState

/-- The index of the last applied entry, zero before the first one. -/
def appliedIndex (state : MetadataState) : UInt64 :=
  (state.lastApplied.map LogId.index).getD 0

/-- The revision fence of a serialized key, zero when it was never raised. -/
def revision (state : MetadataState) (key : String) : UInt64 :=
  state.leases.revisions[key]?.getD 0

end MetadataState

end KalpakDb
