import KalpakDb.BincodeLayout

namespace KalpakDb

/-!
# Histories with snapshot imports

A node may restart from a snapshot in an older layout.  Writing a state in an
older layout and importing it keeps the fields that layout has and resets the
others.  Every state that entries and such imports can reach passes its own
snapshot checks.
-/

open Std (ExtTreeMap)

/-- The layouts before the current one. -/
inductive SnapshotVersion where
  | legacy
  | v2
  | v3
  | v4
  | v5
  deriving DecidableEq

namespace MetadataState

/-- The fields of versions three to five, with the given lease table. -/
def toVersioned
    {Leases : Type}
    (state : MetadataState)
    (leases : Leases) : VersionedMetadata Leases where
  leases := leases
  replicaRequirements := state.replicaRequirements
  agents := state.agents
  bindings := state.bindings
  children := state.children
  blockRefs := state.blockRefs
  lastApplied := state.lastApplied
  membership := state.membership

def toV4Leases (leases : LeaseState) : V4LeaseState where
  initialized := leases.initialized
  records := leases.records
  revisions := leases.revisions
  cancelled := leases.cancelled

def toV3Leases (leases : LeaseState) : V3LeaseState where
  initialized := leases.initialized
  records := leases.records
  revisions := leases.revisions

def toV2 (state : MetadataState) : V2MetadataState where
  replicaRequirements := state.replicaRequirements
  agents := state.agents
  bindings := state.bindings
  children := state.children
  blockRefs := state.blockRefs
  lastApplied := state.lastApplied
  membership := state.membership

def toLegacy (state : MetadataState) : LegacyMetadataState where
  agents := state.agents
  bindings := state.bindings
  children := state.children
  blockRefs := state.blockRefs
  lastApplied := state.lastApplied
  membership := state.membership

/-- The state that remains when only a layout's own fields are kept. -/
def migrated (state : MetadataState) : SnapshotVersion → MetadataState
  | .legacy => state.toLegacy.toMetadataState
  | .v2 => state.toV2.toMetadataState
  | .v3 =>
      (state.toVersioned (toV3Leases state.leases)).withLeases
        V3LeaseState.toLeaseState
  | .v4 =>
      (state.toVersioned (toV4Leases state.leases)).withLeases
        V4LeaseState.toLeaseState
  | .v5 => (state.toVersioned state.leases).withLeases id

end MetadataState

/-- The bytes of a state in an older layout. -/
def writeLayout
    (codecs : SnapshotCodecs)
    (state : MetadataState) : SnapshotVersion → Bytes
  | .legacy => codecs.legacy.encode state.toLegacy
  | .v2 => snapshotV2 ++ codecs.v2.encode state.toV2
  | .v3 =>
      snapshotV3 ++
        codecs.v3.encode
          (state.toVersioned (MetadataState.toV3Leases state.leases))
  | .v4 =>
      snapshotV4 ++
        codecs.v4.encode
          (state.toVersioned (MetadataState.toV4Leases state.leases))
  | .v5 => snapshotV5 ++ codecs.v5.encode (state.toVersioned state.leases)

/-- Write a state in an older layout and decode it with its own metadata. -/
def importSnapshot
    (bindingKey : CacheKey → String)
    (codecs : SnapshotCodecs)
    (version : SnapshotVersion)
    (state : MetadataState) : Except SnapshotError MetadataState :=
  decodeSnapshot bindingKey codecs
    { lastLogId := state.lastApplied
      lastMembership := state.membership
      snapshotId := "" }
    (writeLayout codecs state version)

/-! ## Importing keeps the invariants -/

section Import

variable {bindingKey : CacheKey → String} {state : MetadataState}

/-- An older layout decodes to the migrated state. -/
theorem decodeLayout_writeLayout
    (codecs : SnapshotCodecs)
    (version : SnapshotVersion) :
    decodeLayout codecs (writeLayout codecs state version) =
      some (state.migrated version,
        (writeLayout codecs state version).length) := by
  cases version with
  | legacy =>
      have unmarked :
          ∀ digit,
            stripMarker (snapshotMarker digit)
              (codecs.legacy.encode state.toLegacy) = none := by
        intro digit
        simp [stripMarker, codecs.legacy_unmarked]
      simp only [decodeLayout, writeLayout, snapshotV6, snapshotV5,
        snapshotV4, snapshotV3, snapshotV2, unmarked,
        codecs.legacy.decode_encode, Option.map_some]
      rfl
  | v2 =>
      simp only [decodeLayout, writeLayout, snapshotV6, snapshotV5,
        snapshotV4, snapshotV3]
      rw [snapshotV2, stripMarker_other (by decide),
        stripMarker_other (by decide), stripMarker_other (by decide),
        stripMarker_other (by decide), stripMarker_append]
      exact decodeMarked_encode _ _ _ _
  | v3 =>
      simp only [decodeLayout, writeLayout, snapshotV6, snapshotV5,
        snapshotV4]
      rw [snapshotV3, stripMarker_other (by decide),
        stripMarker_other (by decide), stripMarker_other (by decide),
        stripMarker_append]
      exact decodeMarked_encode _ _ _ _
  | v4 =>
      simp only [decodeLayout, writeLayout, snapshotV6, snapshotV5]
      rw [snapshotV4, stripMarker_other (by decide),
        stripMarker_other (by decide), stripMarker_append]
      exact decodeMarked_encode _ _ _ _
  | v5 =>
      simp only [decodeLayout, writeLayout, snapshotV6]
      rw [snapshotV5, stripMarker_other (by decide), stripMarker_append]
      exact decodeMarked_encode _ _ _ _

theorem migrated_lastApplied (version : SnapshotVersion) :
    (state.migrated version).lastApplied = state.lastApplied := by
  cases version <;> rfl

theorem migrated_membership (version : SnapshotVersion) :
    (state.migrated version).membership = state.membership := by
  cases version <;> rfl

theorem migrated_appliedIndex (version : SnapshotVersion) :
    (state.migrated version).appliedIndex = state.appliedIndex := by
  unfold MetadataState.appliedIndex
  rw [migrated_lastApplied]

/-- Dropping marks and deadlines keeps a lease table well formed. -/
theorem wellFormed_of_marksDropped
    (wellFormed : state.leases.WellFormed bindingKey)
    {leases : LeaseState}
    (sameInitialized : leases.initialized = state.leases.initialized)
    (sameRecords : leases.records = state.leases.records)
    (sameRevisions : leases.revisions = state.leases.revisions)
    (noDeadlines : leases.deadlines = ∅)
    (noExpired : leases.expired = ∅)
    (fewerCancelled :
      ∀ id, id ∈ leases.cancelled → id ∈ state.leases.cancelled) :
    leases.WellFormed bindingKey where
  recordsBounded := by
    rw [sameRecords]
    exact wellFormed.recordsBounded
  deadlineValid := by simp [noDeadlines]
  expiredValid := by simp [noExpired]
  cancelledValid := by
    intro id cancelled
    unfold LeaseState.Uncommitted
    rw [sameRecords]
    exact wellFormed.cancelledValid id (fewerCancelled id cancelled)
  dormant := by
    unfold LeaseState.Dormant
    rw [sameInitialized, sameRecords, sameRevisions]
    exact wellFormed.dormant
  reservedBounded := by
    unfold LeaseState.reservedBlocks
    rw [sameRecords]
    exact wellFormed.reservedBounded
  recordValid := by
    rw [sameRecords, sameRevisions]
    exact wellFormed.recordValid

/-- Keeping the records and revisions of a consistent state. -/
theorem consistent_of_leasesKept
    (consistent : state.Consistent bindingKey)
    {leases : LeaseState}
    (wellFormed : leases.WellFormed bindingKey)
    (sameRecords : leases.records = state.leases.records)
    (sameRevisions : leases.revisions = state.leases.revisions) :
    ((state.toVersioned leases).withLeases id).Consistent bindingKey where
  leases := wellFormed
  requirementsBounded := consistent.requirementsBounded
  requirementRange := consistent.requirementRange
  fencesBounded := by simp [VersionedMetadata.withLeases]
  revisionsBound := by
    simp only [VersionedMetadata.withLeases, MetadataState.toVersioned, id,
      sameRevisions]
    exact consistent.revisionsBound
  ownersRegistered := by
    simp only [VersionedMetadata.withLeases, MetadataState.toVersioned, id,
      sameRecords]
    exact consistent.ownersRegistered
  commitsRaised := by
    simp only [VersionedMetadata.withLeases, MetadataState.toVersioned, id,
      MetadataState.revision, sameRecords, sameRevisions]
    exact consistent.commitsRaised

/-- A state without leases is consistent when its requirements are. -/
theorem consistent_of_noLeases
    (unfenced : state.blockFences = ∅)
    (unleased : state.leases = {})
    (requirementsBounded :
      state.replicaRequirements.size ≤ maxReplicaRequirements)
    (requirementRange :
      ∀ (id : BlockId) (replicas : UInt64),
        state.replicaRequirements[id]? = some replicas →
        2 ≤ replicas ∧ replicas ≤ 16) :
    state.Consistent bindingKey where
  leases := by
    rw [unleased]
    exact LeaseState.WellFormed.empty
  requirementsBounded := requirementsBounded
  requirementRange := requirementRange
  fencesBounded := by simp [unfenced]
  revisionsBound := by simp [unleased]
  ownersRegistered := by simp [unleased]
  commitsRaised := by simp [unleased]

theorem migrated_consistent
    (consistent : state.Consistent bindingKey)
    (version : SnapshotVersion) :
    (state.migrated version).Consistent bindingKey := by
  cases version with
  | legacy =>
      exact consistent_of_noLeases rfl rfl
        (by simp [MetadataState.migrated,
          LegacyMetadataState.toMetadataState])
        (by simp [MetadataState.migrated,
          LegacyMetadataState.toMetadataState])
  | v2 =>
      exact consistent_of_noLeases rfl rfl consistent.requirementsBounded
        consistent.requirementRange
  | v3 =>
      exact consistent_of_leasesKept consistent
        (wellFormed_of_marksDropped consistent.leases rfl rfl rfl rfl rfl
          (by simp))
        rfl rfl
  | v4 =>
      exact consistent_of_leasesKept consistent
        (wellFormed_of_marksDropped consistent.leases rfl rfl rfl rfl rfl
          (fun _ => id))
        rfl rfl
  | v5 =>
      exact consistent_of_leasesKept consistent consistent.leases rfl rfl

theorem migrated_positioned
    (positioned : state.Positioned)
    (version : SnapshotVersion) :
    (state.migrated version).Positioned := by
  cases version with
  | legacy =>
      exact ⟨by simp [MetadataState.migrated,
          LegacyMetadataState.toMetadataState],
        by simp [MetadataState.migrated, LegacyMetadataState.toMetadataState],
        by simp [MetadataState.migrated, LegacyMetadataState.toMetadataState],
        by simp [MetadataState.migrated,
          LegacyMetadataState.toMetadataState]⟩
  | v2 =>
      exact ⟨by simp [MetadataState.migrated,
          V2MetadataState.toMetadataState],
        by simp [MetadataState.migrated, V2MetadataState.toMetadataState],
        by simp [MetadataState.migrated, V2MetadataState.toMetadataState],
        by simp [MetadataState.migrated, V2MetadataState.toMetadataState]⟩
  | v3 =>
      exact ⟨by simp [MetadataState.migrated, VersionedMetadata.withLeases],
        positioned.recordsPast,
        by simp [MetadataState.migrated, VersionedMetadata.withLeases,
          V3LeaseState.toLeaseState],
        by simp [MetadataState.migrated, VersionedMetadata.withLeases,
          V3LeaseState.toLeaseState]⟩
  | v4 =>
      exact ⟨by simp [MetadataState.migrated, VersionedMetadata.withLeases],
        positioned.recordsPast, positioned.cancelledPast,
        by simp [MetadataState.migrated, VersionedMetadata.withLeases,
          V4LeaseState.toLeaseState]⟩
  | v5 =>
      exact ⟨by simp [MetadataState.migrated, VersionedMetadata.withLeases],
        positioned.recordsPast, positioned.cancelledPast,
        positioned.expiredPast⟩

/-- A consistent state in an older layout is imported as its migration. -/
theorem importSnapshot_eq
    (codecs : SnapshotCodecs)
    (version : SnapshotVersion)
    (consistent : state.Consistent bindingKey)
    (positioned : state.Positioned) :
    importSnapshot bindingKey codecs version state =
      .ok (state.migrated version) :=
  decodeSnapshot_of_layout codecs (decodeLayout_writeLayout codecs version)
    (migrated_lastApplied version) (migrated_membership version)
    (.of_positioned (migrated_consistent consistent version)
      (migrated_positioned positioned version))

end Import

/-! ## Histories -/

/-- What can happen to a node's metadata state. -/
inductive HistoryStep where
  | apply (entry : Entry)
  | reimport (version : SnapshotVersion)
  deriving DecidableEq

def HistoryStep.entry? : HistoryStep → Option Entry
  | .apply entry => some entry
  | .reimport _ => none

/-- One step of a history; `none` when an import is refused. -/
def stepHistory
    (bindingKey : CacheKey → String)
    (codecs : SnapshotCodecs)
    (state : MetadataState) : HistoryStep → Option MetadataState
  | .apply entry => some (stepEntry bindingKey state entry)
  | .reimport version =>
      (importSnapshot bindingKey codecs version state).toOption

/-- The state after a history; `none` when one of its imports is refused. -/
def runHistory
    (bindingKey : CacheKey → String)
    (codecs : SnapshotCodecs)
    (start : MetadataState)
    (history : List HistoryStep) : Option MetadataState :=
  history.foldlM (stepHistory bindingKey codecs) start

/-- Every history with increasing indices runs and keeps the invariants. -/
theorem runHistory_restorable
    {bindingKey : CacheKey → String}
    (codecs : SnapshotCodecs)
    {start : MetadataState}
    (consistent : start.Consistent bindingKey)
    (positioned : start.Positioned)
    (history : List HistoryStep)
    (increasing : IncreasingIndices (history.filterMap HistoryStep.entry?))
    (beyond :
      ∀ entry ∈ history.filterMap HistoryStep.entry?,
        start.appliedIndex ≤ entry.logId.index) :
    ∃ state,
      runHistory bindingKey codecs start history = some state ∧
        state.Restorable bindingKey := by
  induction history generalizing start with
  | nil =>
      exact ⟨start, rfl, .of_positioned consistent positioned⟩
  | cons step rest inductionHypothesis =>
      cases step with
      | apply entry =>
          simp only [List.filterMap_cons, HistoryStep.entry?]
            at increasing beyond
          obtain ⟨ahead, tailIncreasing⟩ := List.pairwise_cons.mp increasing
          have later := beyond entry (by simp)
          have index :
              (stepEntry bindingKey start entry).appliedIndex =
                entry.logId.index :=
            stepEntry_appliedIndex start consistent.leases.dormant entry
          refine inductionHypothesis (consistent.applyEntry entry)
            (positioned.applyEntry consistent.leases later) tailIncreasing ?_
          intro next member
          have ordered := UInt64.le_of_lt (ahead next member)
          rw [← index] at ordered
          exact ordered
      | reimport version =>
          simp only [List.filterMap_cons, HistoryStep.entry?]
            at increasing beyond
          have imported : stepHistory bindingKey codecs start
              (.reimport version) = some (start.migrated version) := by
            simp only [stepHistory,
              importSnapshot_eq codecs version consistent positioned]
            rfl
          unfold runHistory
          rw [List.foldlM_cons, imported]
          refine inductionHypothesis (migrated_consistent consistent version)
            (migrated_positioned positioned version) increasing ?_
          intro next member
          rw [migrated_appliedIndex]
          exact beyond next member

/--
Every reachable metadata state passes its own snapshot validation.  Over any
history of entries with increasing indices and imports of the current state
in older layouts, every import is accepted; and in the state reached every
check holds, the snapshot built from it decodes to the identical state, and
no record lookup is left without a record.
-/
theorem reachable_states_restorable
    (bindingKey : CacheKey → String)
    (codecs : SnapshotCodecs)
    (history : List HistoryStep)
    (increasing : IncreasingIndices (history.filterMap HistoryStep.entry?))
    (index : Nat) :
    ∃ state,
      runHistory bindingKey codecs {} history = some state ∧
      checkState bindingKey state = .ok () ∧
      state.leases.validate bindingKey = .ok () ∧
      decodeSnapshot bindingKey codecs (buildSnapshot codecs state index).1
        (buildSnapshot codecs state index).2 = .ok state ∧
      (leaseExpiryWork state).isSome = true := by
  obtain ⟨state, reached, restorable⟩ :=
    runHistory_restorable codecs .empty .empty history increasing
      (fun _ _ => UInt64.zero_le)
  exact ⟨state, reached, checkState_of_restorable restorable,
    LeaseState.validate_eq_ok_iff.mpr restorable.consistent.leases,
    decodeSnapshot_buildSnapshot codecs restorable index,
    leaseExpiryWork_isSome restorable.consistent.leases⟩

/-- A lease that is reserved, survives an import, and is then cancelled. -/
def reimportedHistory : List HistoryStep :=
  [.apply ⟨⟨⟨1, 1⟩, 1⟩, .normal (.registerAgent (.filled 1) "agent")⟩,
    .apply ⟨⟨⟨1, 1⟩, 2⟩,
      .normal (.beginUploadLease (.filled 9) (.filled 1) [.filled 2])⟩,
    .reimport .v3,
    .apply ⟨⟨⟨1, 1⟩, 3⟩, .normal (.cancelUploadLease (.filled 9) (.filled 1))⟩,
    .reimport .legacy]

theorem reachable_states_restorable_reimported :
    ∃ state,
      runHistory serdeBindingKey BincodeLayout.bincode {}
        reimportedHistory = some state ∧
      checkState serdeBindingKey state = .ok () ∧
      state.leases.validate serdeBindingKey = .ok () ∧
      decodeSnapshot serdeBindingKey BincodeLayout.bincode
        (buildSnapshot BincodeLayout.bincode state 1).1
        (buildSnapshot BincodeLayout.bincode state 1).2 = .ok state ∧
      (leaseExpiryWork state).isSome = true :=
  reachable_states_restorable serdeBindingKey BincodeLayout.bincode
    reimportedHistory (by unfold IncreasingIndices; decide) 1

/-! ## Rejected requests -/

/-- A state a node can start from: empty, or an accepted snapshot. -/
def Startable
    (bindingKey : CacheKey → String)
    (codecs : SnapshotCodecs)
    (start : MetadataState) : Prop :=
  start = {} ∨
    ∃ metadata data,
      decodeSnapshot bindingKey codecs metadata data = .ok start

theorem Startable.consistent
    {bindingKey : CacheKey → String}
    {codecs : SnapshotCodecs}
    {start : MetadataState}
    (startable : Startable bindingKey codecs start) :
    start.Consistent bindingKey := by
  rcases startable with rfl | ⟨metadata, data, decoded⟩
  · exact .empty
  · exact (restorable_of_decodeSnapshot codecs decoded).consistent

/--
Rejected requests are no-ops.  In every state reachable from the empty state
or from an accepted snapshot, at whatever log position it is stamped with, a
request that is answered by a rejection leaves the whole state as it was.
-/
theorem rejected_requests_change_nothing
    (bindingKey : CacheKey → String)
    (codecs : SnapshotCodecs)
    (start : MetadataState)
    (startable : Startable bindingKey codecs start)
    (entries : List Entry)
    (position : Option LogId)
    (request : Request)
    (message : String) :
    let state : MetadataState :=
      { runFrom bindingKey start entries with lastApplied := position }
    (applyOne bindingKey state request).2 = .rejected message →
      (applyOne bindingKey state request).1 = state := by
  intro state rejected
  have consistent := runFrom_consistent startable.consistent entries
  have dormant : state.leases.Dormant := consistent.leases.dormant
  refine applyOne_of_rejected bindingKey state dormant ?_
  rw [rejected]
  rfl

/-- A registered agent reserves a block. -/
def reservedLog : List Entry :=
  [⟨⟨⟨1, 1⟩, 1⟩, .normal (.registerAgent (.filled 1) "agent")⟩,
    ⟨⟨⟨1, 1⟩, 2⟩,
      .normal (.beginUploadLease (.filled 9) (.filled 1) [.filled 2])⟩]

/-- The agent begins its lease again, with another block. -/
theorem rejected_requests_change_nothing_reserved :
    let state : MetadataState :=
      { runFrom serdeBindingKey {} reservedLog with
        lastApplied := some ⟨⟨1, 1⟩, 3⟩ }
    let outcome := applyOne serdeBindingKey state
      (.beginUploadLease (.filled 9) (.filled 1) [.filled 3])
    state.leases.initialized = true ∧
      state.leases.records.contains (.filled 9) = true ∧
      outcome.2 = .rejected
        "lease ID already belongs to a different reservation" ∧
      outcome.1 = state := by
  intro state outcome
  have facts :
      state.leases.initialized = true ∧
        state.leases.records.contains (.filled 9) = true ∧
        outcome.2 = .rejected
          "lease ID already belongs to a different reservation" := by
    decide +kernel
  obtain ⟨initialized, reserved, rejected⟩ := facts
  refine ⟨initialized, reserved, rejected, ?_⟩
  exact rejected_requests_change_nothing serdeBindingKey
    BincodeLayout.bincode {} (Or.inl rfl) reservedLog
    (some ⟨⟨1, 1⟩, 3⟩) _ _ rejected

end KalpakDb
