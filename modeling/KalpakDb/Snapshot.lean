import KalpakDb.ByteCodec
import KalpakDb.MetadataRun

namespace KalpakDb

/-!
# Snapshots

A snapshot is a layout marker followed by the encoded state.  Older layouts
lack some fields; decoding fills them with defaults.  The decoded state is
then checked against the snapshot's metadata and for internal consistency.

The byte encoding belongs to a serialization library and is a parameter: each
layout has a codec whose decoder undoes its encoder and consumes exactly the
encoded bytes.  A record lookup that would panic is visible as an outcome of
its own.
-/

open Std (ExtTreeMap)
open ByteCodec (SliceCodec)

/-! ## Layouts -/

structure LegacyMetadataState where
  agents : ExtTreeMap AgentId AgentRecord
  bindings : ExtTreeMap String BindingRecord
  children : ExtTreeMap String (List String)
  blockRefs : ExtTreeMap BlockId UInt32
  lastApplied : Option LogId
  membership : StoredMembership

structure V2MetadataState where
  replicaRequirements : ExtTreeMap BlockId UInt64
  agents : ExtTreeMap AgentId AgentRecord
  bindings : ExtTreeMap String BindingRecord
  children : ExtTreeMap String (List String)
  blockRefs : ExtTreeMap BlockId UInt32
  lastApplied : Option LogId
  membership : StoredMembership

structure V3LeaseState where
  initialized : Bool
  records : ExtTreeMap BlockId UploadLease
  revisions : ExtTreeMap String UInt64

structure V4LeaseState where
  initialized : Bool
  records : ExtTreeMap BlockId UploadLease
  revisions : ExtTreeMap String UInt64
  cancelled : ExtTreeMap BlockId UInt64

/-- The layout shared by versions three to five, up to its lease table. -/
structure VersionedMetadata (Leases : Type) where
  leases : Leases
  replicaRequirements : ExtTreeMap BlockId UInt64
  agents : ExtTreeMap AgentId AgentRecord
  bindings : ExtTreeMap String BindingRecord
  children : ExtTreeMap String (List String)
  blockRefs : ExtTreeMap BlockId UInt32
  lastApplied : Option LogId
  membership : StoredMembership

def VersionedMetadata.withLeases
    {Leases : Type}
    (old : VersionedMetadata Leases)
    (convert : Leases → LeaseState) : MetadataState where
  leases := convert old.leases
  replicaRequirements := old.replicaRequirements
  agents := old.agents
  bindings := old.bindings
  children := old.children
  blockRefs := old.blockRefs
  lastApplied := old.lastApplied
  membership := old.membership

def V3LeaseState.toLeaseState (old : V3LeaseState) : LeaseState where
  initialized := old.initialized
  records := old.records
  revisions := old.revisions

def V4LeaseState.toLeaseState (old : V4LeaseState) : LeaseState where
  initialized := old.initialized
  records := old.records
  revisions := old.revisions
  cancelled := old.cancelled

def V2MetadataState.toMetadataState (old : V2MetadataState) :
    MetadataState where
  replicaRequirements := old.replicaRequirements
  agents := old.agents
  bindings := old.bindings
  children := old.children
  blockRefs := old.blockRefs
  lastApplied := old.lastApplied
  membership := old.membership

def LegacyMetadataState.toMetadataState (legacy : LegacyMetadataState) :
    MetadataState where
  agents := legacy.agents
  bindings := legacy.bindings
  children := legacy.children
  blockRefs := legacy.blockRefs
  lastApplied := legacy.lastApplied
  membership := legacy.membership

/-- The marker `KLPKSM0` followed by the version digit. -/
def snapshotMarker (digit : UInt8) : Bytes :=
  [75, 76, 80, 75, 83, 77, 48, digit]

def snapshotV2 : Bytes := snapshotMarker 50
def snapshotV3 : Bytes := snapshotMarker 51
def snapshotV4 : Bytes := snapshotMarker 52
def snapshotV5 : Bytes := snapshotMarker 53
def snapshotV6 : Bytes := snapshotMarker 54

/--
The serialization library, one codec for each layout.  A legacy snapshot has
no marker; its first bytes are a count of agents and the length of a textual
agent identifier, which no marker resembles.
-/
structure SnapshotCodecs where
  v6 : SliceCodec MetadataState
  v5 : SliceCodec (VersionedMetadata LeaseState)
  v4 : SliceCodec (VersionedMetadata V4LeaseState)
  v3 : SliceCodec (VersionedMetadata V3LeaseState)
  v2 : SliceCodec V2MetadataState
  legacy : SliceCodec LegacyMetadataState
  legacy_unmarked :
    ∀ state digit, ¬ snapshotMarker digit <+: legacy.encode state

/-! ## Decoding -/

structure SnapshotMeta where
  lastLogId : Option LogId
  lastMembership : StoredMembership
  snapshotId : String
  deriving DecidableEq

inductive SnapshotError where
  | undecodable
  | rejected (message : String)
  | panicked
  deriving DecidableEq

/-- The payload after a marker, if the data starts with it. -/
def stripMarker (marker data : Bytes) : Option Bytes :=
  if marker <+: data then some (data.drop marker.length) else none

/-- Decode a marked payload; the marker counts as consumed. -/
def decodeMarked
    {Layout : Type}
    (codec : SliceCodec Layout)
    (convert : Layout → MetadataState)
    (marker payload : Bytes) : Option (MetadataState × Nat) :=
  (codec.decode payload).map fun result =>
    (convert result.1, result.2 + marker.length)

/-- The layout is chosen by the marker, newest first. -/
def decodeLayout
    (codecs : SnapshotCodecs)
    (data : Bytes) : Option (MetadataState × Nat) :=
  match stripMarker snapshotV6 data with
  | some payload => decodeMarked codecs.v6 id snapshotV6 payload
  | none =>
  match stripMarker snapshotV5 data with
  | some payload =>
      decodeMarked codecs.v5 (fun old => old.withLeases id) snapshotV5 payload
  | none =>
  match stripMarker snapshotV4 data with
  | some payload =>
      decodeMarked codecs.v4
        (fun old => old.withLeases V4LeaseState.toLeaseState) snapshotV4
        payload
  | none =>
  match stripMarker snapshotV3 data with
  | some payload =>
      decodeMarked codecs.v3
        (fun old => old.withLeases V3LeaseState.toLeaseState) snapshotV3
        payload
  | none =>
  match stripMarker snapshotV2 data with
  | some payload =>
      decodeMarked codecs.v2 V2MetadataState.toMetadataState snapshotV2
        payload
  | none =>
      (codecs.legacy.decode data).map fun result =>
        (result.1.toMetadataState, result.2)

/--
Whether some mark lies before the creation of its lease or in the future;
`none` when a mark has no lease record.
-/
def misplacedMark
    (state : MetadataState)
    (marks : ExtTreeMap BlockId UInt64) : Option Bool :=
  marks.toList.anyM fun entry => do
    let record ← state.leases.records[entry.1]?
    return entry.2 < record.createdAt || entry.2 > state.appliedIndex

section Checks

variable (bindingKey : CacheKey → String)

/-- A lease of an unregistered agent, or whose commit left no trace. -/
def inconsistentRecord (state : MetadataState) (lease : UploadLease) : Bool :=
  !state.agents.contains lease.agent ||
    (match lease.committed with
    | none => false
    | some commit =>
        match state.leases.revisions[bindingKey commit.binding.key]? with
        | none => true
        | some revision => revision ≤ commit.expectedRevision)

/-- The checks on a decoded state, in order. -/
def checkState (state : MetadataState) : Except SnapshotError Unit :=
  if state.replicaRequirements.size > maxReplicaRequirements ||
      (FiniteMap.values state.replicaRequirements).any
        (fun replicas => !(2 ≤ replicas && replicas ≤ 16)) then
    .error (.rejected "invalid snapshot replica requirements")
  else
    match state.leases.validate bindingKey with
    | .error message => .error (.rejected message)
    | .ok () =>
        if state.blockFences.size > maxBlockFences ||
            (FiniteMap.values state.blockFences).any
              (fun position => position > state.appliedIndex) then
          .error (.rejected "invalid block fence positions")
        else
          match misplacedMark state state.leases.cancelled with
          | none => .error .panicked
          | some true =>
              .error (.rejected "invalid lease cancellation position")
          | some false =>
              match misplacedMark state state.leases.expired with
              | none => .error .panicked
              | some true =>
                  .error (.rejected "invalid lease expiry position")
              | some false =>
                  if state.leases.revisions.keys.any
                        (fun key => !state.bindings.contains key) ||
                      (FiniteMap.values state.leases.records).any
                        (inconsistentRecord bindingKey state) then
                    .error (.rejected "inconsistent upload lease snapshot")
                  else
                    .ok ()

def decodeSnapshot
    (codecs : SnapshotCodecs)
    (metadata : SnapshotMeta)
    (data : Bytes) : Except SnapshotError MetadataState :=
  match decodeLayout codecs data with
  | none => .error .undecodable
  | some (state, consumed) =>
      if consumed ≠ data.length ∨
          state.lastApplied ≠ metadata.lastLogId ∨
          state.membership ≠ metadata.lastMembership then
        .error (.rejected "snapshot metadata/payload mismatch")
      else
        match checkState bindingKey state with
        | .error error => .error error
        | .ok () => .ok state

end Checks

/-! ## Building -/

/-- The current layout's bytes and metadata of a state. -/
def buildSnapshot
    (codecs : SnapshotCodecs)
    (state : MetadataState)
    (index : Nat) : SnapshotMeta × Bytes :=
  ({ lastLogId := state.lastApplied
     lastMembership := state.membership
     snapshotId :=
       "snapshot-" ++ toString state.appliedIndex ++ "-" ++ toString index },
    snapshotV6 ++ codecs.v6.encode state)

/-! ## Lease expiry work -/

/-- Whether a deadline still awaits its lease; `none` without a record. -/
def awaitsExpiry (leases : LeaseState) (id : BlockId) : Option Bool := do
  let record ← leases.records[id]?
  return record.committed.isNone && !leases.cancelled.contains id &&
    !leases.isExpired id

/--
Local hints for the expiry driver: the tick, whether any deadline is live and
the first sixteen due leases; `none` when a deadline has no lease record.
-/
def leaseExpiryWork
    (state : MetadataState) :
    Option (UInt64 × Bool × List (BlockId × LeaseDeadline)) := do
  let active ←
    state.leases.deadlines.keys.anyM (awaitsExpiry state.leases)
  let due :=
    (state.leases.deadlines.toList.filter fun entry =>
      state.leases.isExpired entry.1 &&
        !state.leases.expired.contains entry.1).take 16
  return (state.leases.clock, active, due)

/-! ## What the checks accept -/

/-- The states that snapshot checking lets through. -/
structure MetadataState.Restorable
    (bindingKey : CacheKey → String)
    (state : MetadataState) : Prop where
  consistent : state.Consistent bindingKey
  fencesPast :
    ∀ (id : BlockId) (position : UInt64),
      state.blockFences[id]? = some position →
      position ≤ state.appliedIndex
  cancelledPast :
    ∀ (id : BlockId) (record : UploadLease) (position : UInt64),
      state.leases.records[id]? = some record →
      state.leases.cancelled[id]? = some position →
      record.createdAt ≤ position ∧ position ≤ state.appliedIndex
  expiredPast :
    ∀ (id : BlockId) (record : UploadLease) (position : UInt64),
      state.leases.records[id]? = some record →
      state.leases.expired[id]? = some position →
      record.createdAt ≤ position ∧ position ≤ state.appliedIndex

theorem MetadataState.Restorable.of_positioned
    {bindingKey : CacheKey → String}
    {state : MetadataState}
    (consistent : state.Consistent bindingKey)
    (positioned : state.Positioned) :
    state.Restorable bindingKey :=
  ⟨consistent, positioned.fencesPast, positioned.cancelledPast,
    positioned.expiredPast⟩

/-- A partial search finds nothing exactly when every answer is negative. -/
theorem anyM_eq_some_false_iff
    {α : Type}
    {test : α → Option Bool}
    {items : List α} :
    items.anyM test = some false ↔
      ∀ item ∈ items, test item = some false := by
  induction items with
  | nil =>
      simp [List.anyM]
  | cons item rest inductionHypothesis =>
      cases answer : test item with
      | none =>
          simp [List.anyM, answer]
      | some found =>
          cases found with
          | true =>
              simp [List.anyM, answer]
          | false =>
              simp [List.anyM, answer, inductionHypothesis]

/-- A partial search whose tests are all defined is defined. -/
theorem anyM_isSome
    {α : Type}
    {test : α → Option Bool}
    {items : List α}
    (defined : ∀ item ∈ items, (test item).isSome) :
    (items.anyM test).isSome := by
  induction items with
  | nil =>
      rfl
  | cons item rest inductionHypothesis =>
      obtain ⟨found, answer⟩ := Option.isSome_iff_exists.mp
        (defined item (by simp))
      have tail := inductionHypothesis
        (fun other member => defined other (List.mem_cons_of_mem item member))
      cases found with
      | true =>
          simp [List.anyM, answer]
      | false =>
          simpa [List.anyM, answer] using tail

section Acceptance

variable {bindingKey : CacheKey → String} {state : MetadataState}

theorem misplacedMark_eq_some_false_iff
    {marks : ExtTreeMap BlockId UInt64} :
    misplacedMark state marks = some false ↔
      ∀ (id : BlockId) (position : UInt64), marks[id]? = some position →
        ∃ record : UploadLease, state.leases.records[id]? = some record ∧
          record.createdAt ≤ position ∧ position ≤ state.appliedIndex := by
  unfold misplacedMark
  rw [anyM_eq_some_false_iff]
  constructor
  · intro placed id position found
    have answer := placed (id, position) (FiniteMap.mem_toList.mpr found)
    cases recorded : state.leases.records[id]? with
    | none =>
        simp [recorded] at answer
    | some record =>
        simp [recorded] at answer
        exact ⟨record, rfl, answer⟩
  · rintro placed ⟨id, position⟩ member
    obtain ⟨record, recorded, created, past⟩ :=
      placed id position (FiniteMap.mem_toList.mp member)
    simp [recorded, created, past]

theorem inconsistentRecord_eq_false_iff
    {lease : UploadLease} :
    inconsistentRecord bindingKey state lease = false ↔
      lease.agent ∈ state.agents ∧
        ∀ commit, lease.committed = some commit →
          ∃ revision : UInt64,
            state.leases.revisions[bindingKey commit.binding.key]? =
                some revision ∧
              commit.expectedRevision < revision := by
  unfold inconsistentRecord
  cases committed : lease.committed with
  | none =>
      simp
  | some commit =>
      cases raised :
          state.leases.revisions[bindingKey commit.binding.key]? with
      | none =>
          simp [raised]
      | some revision =>
          simp [raised]

/-- A bounded map whose values all pass a test. -/
theorem bounded_and_all_iff
    {α : Type}
    {map : ExtTreeMap BlockId α}
    {bound : Nat}
    (bad : α → Bool) :
    (decide (map.size > bound) || (FiniteMap.values map).any bad) = false ↔
      map.size ≤ bound ∧
        ∀ (id : BlockId) (value : α), map[id]? = some value →
          bad value = false := by
  simp only [Bool.or_eq_false_iff, decide_eq_false_iff_not, gt_iff_lt,
    not_lt, List.any_eq_false, FiniteMap.mem_values, Bool.not_eq_true]
  constructor
  · rintro ⟨small, good⟩
    exact ⟨small, fun id value found => good value ⟨id, found⟩⟩
  · rintro ⟨small, good⟩
    refine ⟨small, ?_⟩
    rintro value ⟨id, found⟩
    exact good id value found

/-- The last check: leases agree with bindings, agents and revisions. -/
theorem linked_iff :
    (state.leases.revisions.keys.any
          (fun key => !state.bindings.contains key) ||
        (FiniteMap.values state.leases.records).any
          (inconsistentRecord bindingKey state)) = false ↔
      (∀ key, key ∈ state.leases.revisions → key ∈ state.bindings) ∧
        ∀ (id : BlockId) (record : UploadLease),
          state.leases.records[id]? = some record →
          inconsistentRecord bindingKey state record = false := by
  simp only [Bool.or_eq_false_iff, List.any_eq_false, FiniteMap.mem_values,
    ExtTreeMap.mem_keys, Bool.not_eq_true, Bool.not_eq_false',
    ExtTreeMap.contains_iff_mem]
  constructor
  · rintro ⟨bound, linked⟩
    exact ⟨bound, fun id record found => linked record ⟨id, found⟩⟩
  · rintro ⟨bound, linked⟩
    refine ⟨bound, ?_⟩
    rintro record ⟨id, found⟩
    exact linked id record found

/-- The checks accept only restorable states. -/
theorem restorable_of_checkState
    (accepted : checkState bindingKey state = .ok ()) :
    state.Restorable bindingKey := by
  unfold checkState at accepted
  split at accepted
  · cases accepted
  rename_i requirements
  split at accepted
  · cases accepted
  rename_i validated
  split at accepted
  · cases accepted
  rename_i fences
  split at accepted
  · cases accepted
  · cases accepted
  rename_i cancelled
  split at accepted
  · cases accepted
  · cases accepted
  rename_i expired
  split at accepted
  · cases accepted
  rename_i linked
  rw [Bool.not_eq_true] at requirements fences linked
  obtain ⟨requirementsBounded, inRange⟩ :=
    (bounded_and_all_iff _).mp requirements
  obtain ⟨fencesBounded, fencesPast⟩ :=
    (bounded_and_all_iff _).mp fences
  obtain ⟨revisionsBound, records⟩ := linked_iff.mp linked
  have cancelledPlaced := misplacedMark_eq_some_false_iff.mp cancelled
  have expiredPlaced := misplacedMark_eq_some_false_iff.mp expired
  refine ⟨⟨LeaseState.validate_eq_ok_iff.mp validated, requirementsBounded,
    ?_, fencesBounded, revisionsBound, ?_, ?_⟩, ?_, ?_, ?_⟩
  · intro id replicas found
    simpa using inRange id replicas found
  · intro id record found
    exact (inconsistentRecord_eq_false_iff.mp (records id record found)).1
  · intro id record commit found committed
    obtain ⟨revision, raised, later⟩ :=
      (inconsistentRecord_eq_false_iff.mp (records id record found)).2
        commit committed
    simpa [MetadataState.revision, raised] using later
  · intro id position found
    simpa using fencesPast id position found
  · intro id record position found marked
    obtain ⟨other, otherFound, placed⟩ := cancelledPlaced id position marked
    rw [found] at otherFound
    cases otherFound
    exact placed
  · intro id record position found marked
    obtain ⟨other, otherFound, placed⟩ := expiredPlaced id position marked
    rw [found] at otherFound
    cases otherFound
    exact placed

/-- The checks accept every restorable state. -/
theorem checkState_of_restorable
    (restorable : state.Restorable bindingKey) :
    checkState bindingKey state = .ok () := by
  have consistent := restorable.consistent
  have requirements := (bounded_and_all_iff
      fun replicas : UInt64 => !(2 ≤ replicas && replicas ≤ 16)).mpr
    ⟨consistent.requirementsBounded,
      fun id replicas found => by
        simpa using consistent.requirementRange id replicas found⟩
  have validated :=
    LeaseState.validate_eq_ok_iff.mpr consistent.leases
  have fences := (bounded_and_all_iff
      fun position : UInt64 => decide (position > state.appliedIndex)).mpr
    ⟨consistent.fencesBounded,
      fun id position found => by
        simpa using restorable.fencesPast id position found⟩
  have cancelled :
      misplacedMark state state.leases.cancelled = some false := by
    refine misplacedMark_eq_some_false_iff.mpr ?_
    intro id position marked
    obtain ⟨record, found, -⟩ := consistent.leases.cancelledValid id
      (ExtTreeMap.mem_iff_isSome_getElem?.mpr
        (Option.isSome_of_eq_some marked))
    exact ⟨record, found,
      restorable.cancelledPast id record position found marked⟩
  have expired :
      misplacedMark state state.leases.expired = some false := by
    refine misplacedMark_eq_some_false_iff.mpr ?_
    intro id position marked
    obtain ⟨⟨record, found, -⟩, -⟩ := consistent.leases.expiredValid id
      (ExtTreeMap.mem_iff_isSome_getElem?.mpr
        (Option.isSome_of_eq_some marked))
    exact ⟨record, found,
      restorable.expiredPast id record position found marked⟩
  have linked :
      (state.leases.revisions.keys.any
            (fun key => !state.bindings.contains key) ||
          (FiniteMap.values state.leases.records).any
            (inconsistentRecord bindingKey state)) = false := by
    refine linked_iff.mpr ⟨consistent.revisionsBound, ?_⟩
    intro id record found
    refine inconsistentRecord_eq_false_iff.mpr
      ⟨consistent.ownersRegistered id record found, ?_⟩
    intro commit committed
    obtain ⟨-, -, raised⟩ :=
      (consistent.leases.recordValid id record found).commitValid commit
        committed
    obtain ⟨revision, stored⟩ := Option.isSome_iff_exists.mp
      (ExtTreeMap.mem_iff_isSome_getElem?.mp raised)
    have later :=
      consistent.commitsRaised id record commit found committed
    simp only [MetadataState.revision, stored, Option.getD_some] at later
    exact ⟨revision, stored, later⟩
  unfold checkState
  rw [if_neg (by rw [requirements]; exact Bool.false_ne_true)]
  simp only [validated, cancelled, expired]
  rw [if_neg (by rw [fences]; exact Bool.false_ne_true),
    if_neg (by rw [linked]; exact Bool.false_ne_true)]

end Acceptance

/-! ## Decoding what was written -/

section RoundTrip

variable {bindingKey : CacheKey → String} (codecs : SnapshotCodecs)
  {state : MetadataState}

/-- A decoded snapshot holds a restorable state. -/
theorem restorable_of_decodeSnapshot
    {metadata : SnapshotMeta}
    {data : Bytes}
    (decoded : decodeSnapshot bindingKey codecs metadata data = .ok state) :
    state.Restorable bindingKey := by
  unfold decodeSnapshot at decoded
  split at decoded
  · cases decoded
  split at decoded
  · cases decoded
  split at decoded
  · cases decoded
  rename_i accepted
  cases decoded
  exact restorable_of_checkState accepted

/-- A restorable state in a fully consumed layout is accepted as it is. -/
theorem decodeSnapshot_of_layout
    {metadata : SnapshotMeta}
    {data : Bytes}
    (layout : decodeLayout codecs data = some (state, data.length))
    (sameLog : state.lastApplied = metadata.lastLogId)
    (sameMembership : state.membership = metadata.lastMembership)
    (restorable : state.Restorable bindingKey) :
    decodeSnapshot bindingKey codecs metadata data = .ok state := by
  simp [decodeSnapshot, layout, sameLog, sameMembership,
    checkState_of_restorable restorable]

theorem stripMarker_append (marker payload : Bytes) :
    stripMarker marker (marker ++ payload) = some payload := by
  simp [stripMarker]

/-- Data behind one marker does not start with another one. -/
theorem stripMarker_other
    {digit other : UInt8}
    (different : other ≠ digit)
    (payload : Bytes) :
    stripMarker (snapshotMarker other) (snapshotMarker digit ++ payload) =
      none := by
  simp [stripMarker, snapshotMarker, different]

theorem decodeMarked_encode
    {Layout : Type}
    (codec : SliceCodec Layout)
    (convert : Layout → MetadataState)
    (marker : Bytes)
    (value : Layout) :
    decodeMarked codec convert marker (codec.encode value) =
      some (convert value, (marker ++ codec.encode value).length) := by
  simp [decodeMarked, codec.decode_encode, Nat.add_comm]

/-- The built snapshot of a restorable state decodes to the same state. -/
theorem decodeSnapshot_buildSnapshot
    (restorable : state.Restorable bindingKey)
    (index : Nat) :
    decodeSnapshot bindingKey codecs (buildSnapshot codecs state index).1
      (buildSnapshot codecs state index).2 = .ok state := by
  refine decodeSnapshot_of_layout codecs ?_ rfl rfl restorable
  unfold buildSnapshot decodeLayout
  simp only [stripMarker_append]
  exact decodeMarked_encode codecs.v6 id snapshotV6 state

end RoundTrip

/-- No deadline of a well-formed state lacks its record. -/
theorem leaseExpiryWork_isSome
    {bindingKey : CacheKey → String}
    {state : MetadataState}
    (wellFormed : state.leases.WellFormed bindingKey) :
    (leaseExpiryWork state).isSome := by
  have defined :
      (state.leases.deadlines.keys.anyM
        (awaitsExpiry state.leases)).isSome := by
    refine anyM_isSome ?_
    intro id member
    obtain ⟨deadline, found⟩ := Option.isSome_iff_exists.mp
      (ExtTreeMap.mem_iff_isSome_getElem?.mp (ExtTreeMap.mem_keys.mp member))
    obtain ⟨record, recorded⟩ := Option.isSome_iff_exists.mp
      (ExtTreeMap.mem_iff_isSome_getElem?.mp
        (wellFormed.deadlineValid id deadline found).1)
    simp [awaitsExpiry, recorded]
  obtain ⟨active, found⟩ := Option.isSome_iff_exists.mp defined
  simp [leaseExpiryWork, found]

end KalpakDb
