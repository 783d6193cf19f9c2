import KalpakDb.LeaseInvariant

namespace KalpakDb

/-!
# The state invariant

`MetadataState.Consistent` ties the lease table to the bindings, the agent
registry and the capacities.  `MetadataState.Positioned` orders the recorded
log positions.  Together they are what a snapshot is checked for.  Every
applied entry keeps the first, and keeps the second when log indices increase.
-/

open Std (ExtTreeMap ExtTreeSet)
open MachineWord

namespace MetadataState

structure Consistent
    (bindingKey : CacheKey → String)
    (state : MetadataState) : Prop where
  leases : state.leases.WellFormed bindingKey
  requirementsBounded :
    state.replicaRequirements.size ≤ maxReplicaRequirements
  requirementRange :
    ∀ (id : BlockId) (replicas : UInt64),
      state.replicaRequirements[id]? = some replicas →
      2 ≤ replicas ∧ replicas ≤ 16
  fencesBounded : state.blockFences.size ≤ maxBlockFences
  revisionsBound :
    ∀ key, key ∈ state.leases.revisions → key ∈ state.bindings
  ownersRegistered :
    ∀ (id : BlockId) (record : UploadLease),
      state.leases.records[id]? = some record →
      record.agent ∈ state.agents
  commitsRaised :
    ∀ (id : BlockId) (record : UploadLease) (commit : LeaseCommit),
      state.leases.records[id]? = some record →
      record.committed = some commit →
      commit.expectedRevision <
        state.revision (bindingKey commit.binding.key)

structure Positioned (state : MetadataState) : Prop where
  fencesPast :
    ∀ (id : BlockId) (position : UInt64),
      state.blockFences[id]? = some position →
      position ≤ state.appliedIndex
  recordsPast :
    ∀ (id : BlockId) (record : UploadLease),
      state.leases.records[id]? = some record →
      record.createdAt ≤ state.appliedIndex
  cancelledPast :
    ∀ (id : BlockId) (record : UploadLease) (position : UInt64),
      state.leases.records[id]? = some record →
      state.leases.cancelled[id]? = some position →
      record.createdAt ≤ position ∧ position ≤ state.appliedIndex
  expiredPast :
    ∀ (id : BlockId) (record : UploadLease) (position : UInt64),
      state.leases.records[id]? = some record →
      state.leases.expired[id]? = some position →
      record.createdAt ≤ position ∧ position ≤ state.appliedIndex

end MetadataState

/-! ## Effects shared by the transitions -/

section Effects

variable {bindingKey : CacheKey → String} {state next : MetadataState}
  {request : Request} {response : Response}

theorem bindOne_eq_bindAll
    (agent : AgentId)
    (link : ChainBinding) :
    bindOne bindingKey state agent link.key link.blocks link.parent =
      bindAll bindingKey state agent [link] := rfl

/-- Consuming a recorded lease overwrites its record. -/
theorem recordCommit_eq_insert
    {lease : BlockId}
    {record : UploadLease}
    (found : state.leases.records[lease]? = some record)
    (commit : LeaseCommit) :
    recordCommit state lease commit =
      { state with
        leases := { state.leases with
          records := state.leases.records.insert lease
            { record with committed := some commit } } } := by
  unfold recordCommit
  rw [FiniteMap.modify_eq_insert found]

/-- Before fencing, a transition touches neither fences nor log positions. -/
theorem transition_frame
    (transition : Transition bindingKey state request next response) :
    next.blockFences = state.blockFences ∧
      next.lastApplied = state.lastApplied ∧
      next.membership = state.membership := by
  cases transition with
  | reserved =>
      obtain ⟨revisions, shape⟩ := activateLeases_frame state
      rw [shape]
      exact ⟨rfl, rfl, rfl⟩
  | chained agent bindings =>
      rw [bindAll_frame]
      exact ⟨rfl, rfl, rfl⟩
  | bound agent link =>
      rw [bindAll_frame]
      exact ⟨rfl, rfl, rfl⟩
  | _ =>
      exact ⟨rfl, rfl, rfl⟩

theorem transition_appliedIndex
    (transition : Transition bindingKey state request next response) :
    next.appliedIndex = state.appliedIndex := by
  unfold MetadataState.appliedIndex
  rw [(transition_frame transition).2.1]

/-- The fence of a touched block is the current position, others are kept. -/
theorem getElem?_fenceBlocks
    (touched : ExtTreeSet BlockId)
    (id : BlockId) :
    (fenceBlocks state touched).blockFences[id]? =
      if id ∈ touched then some state.appliedIndex
      else state.blockFences[id]? := by
  simp [fenceBlocks, FiniteMap.getElem?_insertAll]

/-- The capacity gate bounds the fence map after fencing. -/
theorem fenceBlocks_bounded
    {touched : ExtTreeSet BlockId}
    (capacity : fencesExhausted state touched = false) :
    (fenceBlocks state touched).blockFences.size ≤ maxBlockFences := by
  unfold fenceBlocks
  simp only
  rw [FiniteMap.size_insertAll _ (FiniteMap.nodup_toList_set touched)]
  simpa [fencesExhausted] using capacity

/-- Requested copy counts stay in range. -/
theorem raiseRequirements_range
    {requirements : ExtTreeMap BlockId UInt64}
    {replicas : UInt64}
    (inRange : 2 ≤ replicas ∧ replicas ≤ 16)
    (rangeBefore :
      ∀ (id : BlockId) (wanted : UInt64),
        requirements[id]? = some wanted → 2 ≤ wanted ∧ wanted ≤ 16)
    (blocks : List BlockId) :
    ∀ (id : BlockId) (wanted : UInt64),
      (raiseRequirements requirements blocks replicas)[id]? = some wanted →
      2 ≤ wanted ∧ wanted ≤ 16 := by
  induction blocks generalizing requirements with
  | nil =>
      exact rangeBefore
  | cons block rest inductionHypothesis =>
      refine inductionHypothesis ?_
      intro id wanted found
      rw [ExtTreeMap.getElem?_insert] at found
      split at found
      · cases found
        split
        · exact inRange
        · cases old : requirements[block]? with
          | none =>
              exact inRange
          | some earlier =>
              exact rangeBefore block earlier old
      · exact rangeBefore id wanted found

end Effects

/-! ## Consistency -/

namespace MetadataState.Consistent

variable {bindingKey : CacheKey → String} {state next : MetadataState}
  {request : Request} {response : Response}

theorem empty : Consistent bindingKey {} where
  leases := LeaseState.WellFormed.empty
  requirementsBounded := by simp [maxReplicaRequirements]
  requirementRange := by simp
  fencesBounded := by simp [maxBlockFences]
  revisionsBound := by simp
  ownersRegistered := by simp
  commitsRaised := by simp

/-- Consistency does not mention log positions or the membership. -/
theorem stamped
    (consistent : state.Consistent bindingKey)
    (position : Option LogId)
    (membership : StoredMembership) :
    Consistent bindingKey
      { state with
        lastApplied := position
        membership := membership } where
  leases := consistent.leases
  requirementsBounded := consistent.requirementsBounded
  requirementRange := consistent.requirementRange
  fencesBounded := consistent.fencesBounded
  revisionsBound := consistent.revisionsBound
  ownersRegistered := consistent.ownersRegistered
  commitsRaised := consistent.commitsRaised

/-- Replacing the lease table while its revisions and commits are kept. -/
theorem leasesReplaced
    (consistent : state.Consistent bindingKey)
    {leases : LeaseState}
    (wellFormed : leases.WellFormed bindingKey)
    (sameRevisions : leases.revisions = state.leases.revisions)
    (sameRecords : leases.records = state.leases.records) :
    Consistent bindingKey { state with leases := leases } where
  leases := wellFormed
  requirementsBounded := consistent.requirementsBounded
  requirementRange := consistent.requirementRange
  fencesBounded := consistent.fencesBounded
  revisionsBound := by
    simp only [sameRevisions]
    exact consistent.revisionsBound
  ownersRegistered := by
    simp only [sameRecords]
    exact consistent.ownersRegistered
  commitsRaised := by
    simp only [revision, sameRevisions, sameRecords]
    exact consistent.commitsRaised

theorem chained
    (consistent : state.Consistent bindingKey)
    (agent : AgentId)
    (links : List ChainBinding) :
    (bindAll bindingKey state agent links).Consistent bindingKey := by
  have bindings :
      ∀ key, key ∈ state.bindings ∨ key ∈ linkKeys bindingKey links →
        key ∈ (bindAll bindingKey state agent links).bindings :=
    fun key member => mem_bindAll_bindings bindingKey state agent member
  have grows := LeaseState.bumpRevisions_grows state.leases
    (linkKeys bindingKey links)
  rw [bindAll_frame] at bindings ⊢
  have records :
      (state.leases.bumpRevisions (linkKeys bindingKey links)).records =
        state.leases.records := by
    rw [LeaseState.bumpRevisions_frame]
  refine {
    leases := consistent.leases.revisionsRaised _
    requirementsBounded := consistent.requirementsBounded
    requirementRange := consistent.requirementRange
    fencesBounded := consistent.fencesBounded
    revisionsBound := ?_
    ownersRegistered := ?_
    commitsRaised := ?_ }
  · intro key raised
    rcases LeaseState.mem_of_mem_bumpRevisions raised with earlier | listed
    · exact bindings key (Or.inl (consistent.revisionsBound key earlier))
    · exact bindings key (Or.inr listed)
  · simp only [records]
    exact consistent.ownersRegistered
  · simp only [records]
    intro id record commit found committed
    exact UInt64.lt_of_lt_of_le
      (consistent.commitsRaised id record commit found committed)
      (grows (bindingKey commit.binding.key)).1

theorem reserved
    (consistent : state.Consistent bindingKey)
    {lease : BlockId}
    {agent : AgentId}
    {blocks : List BlockId}
    (owner : agent ∈ state.agents)
    (nonempty : blocks ≠ [])
    (bounded : blocks.length ≤ maxLeaseBlocks)
    (fresh : state.leases.records[lease]? = none)
    (recordsFit : state.leases.records.size < maxLeases)
    (blocksFit :
      state.leases.reservedBlocks + blocks.length ≤ maxReservedBlocks) :
    Consistent bindingKey
      (insertReservation (activateLeases state) lease agent blocks) := by
  rw [activateLeases_of_dormant consistent.leases.dormant]
  refine {
    leases := consistent.leases.activated.reserved rfl fresh rfl nonempty
      bounded recordsFit blocksFit
    requirementsBounded := consistent.requirementsBounded
    requirementRange := consistent.requirementRange
    fencesBounded := consistent.fencesBounded
    revisionsBound := consistent.revisionsBound
    ownersRegistered := ?_
    commitsRaised := ?_ }
  · intro id record found
    simp only [insertReservation, ExtTreeMap.getElem?_insert] at found
    split at found
    · cases found
      exact owner
    · exact consistent.ownersRegistered id record found
  · intro id record commit found committed
    simp only [insertReservation, ExtTreeMap.getElem?_insert] at found
    split at found
    · cases found
      simp at committed
    · exact consistent.commitsRaised id record commit found committed

theorem committed
    (consistent : state.Consistent bindingKey)
    {lease : BlockId}
    {agent : AgentId}
    {binding : ChainBinding}
    {expectedRevision : UInt64}
    {record : UploadLease}
    (guards :
      CommitGuards bindingKey state lease agent binding expectedRevision
        record) :
    Consistent bindingKey
      (recordCommit (bindAll bindingKey state agent [binding]) lease
        ⟨binding, expectedRevision⟩) := by
  have bound := consistent.chained agent [binding]
  have active :=
    initialized_of_record consistent.leases.dormant guards.found
  have notMarked := LeaseState.not_mem_expired_of_pending
    ⟨record, guards.found, guards.uncommitted⟩ guards.notCancelled
    guards.notExpired
  have leasesShape :
      (bindAll bindingKey state agent [binding]).leases =
        { state.leases with
          revisions :=
            (state.leases.bumpRevisions [bindingKey binding.key]).revisions }
      := by
    rw [bindAll_frame, ← LeaseState.bumpRevisions_frame]
    rfl
  have raised :
      bindingKey binding.key ∈
        (bindAll bindingKey state agent [binding]).leases.revisions := by
    rw [leasesShape]
    exact LeaseState.mem_bumpRevisions_of_mem active (by simp)
  have foundAfter :
      (bindAll bindingKey state agent [binding]).leases.records[lease]? =
        some record := by
    rw [leasesShape]
    exact guards.found
  have strict :
      expectedRevision <
        (bindAll bindingKey state agent [binding]).revision
          (bindingKey binding.key) := by
    have current := guards.current
    unfold MetadataState.revision at current ⊢
    rw [leasesShape, ← current]
    exact LeaseState.lt_bumpRevisions active (by simp)
      (by rw [current]; exact guards.unsaturated)
  rw [recordCommit_eq_insert foundAfter]
  refine {
    leases := bound.leases.committed foundAfter ?_ ?_ guards.valid
      guards.sameBlocks.symm raised
    requirementsBounded := bound.requirementsBounded
    requirementRange := bound.requirementRange
    fencesBounded := bound.fencesBounded
    revisionsBound := bound.revisionsBound
    ownersRegistered := ?_
    commitsRaised := ?_ }
  · rw [leasesShape]
    exact guards.notCancelled
  · rw [leasesShape]
    exact notMarked
  · intro id other otherFound
    rw [ExtTreeMap.getElem?_insert] at otherFound
    split at otherFound
    · cases otherFound
      exact bound.ownersRegistered lease record foundAfter
    · exact bound.ownersRegistered id other otherFound
  · intro id other commit otherFound otherCommitted
    rw [ExtTreeMap.getElem?_insert] at otherFound
    split at otherFound
    · cases otherFound
      cases otherCommitted
      exact strict
    · exact bound.commitsRaised id other commit otherFound otherCommitted

/-- Every transition keeps the state consistent. -/
theorem transition
    (consistent : state.Consistent bindingKey)
    (step : Transition bindingKey state request next response) :
    next.Consistent bindingKey := by
  cases step with
  | refused =>
      exact consistent
  | acknowledged =>
      exact consistent
  | reserved owner nonempty bounded fresh recordsFit blocksFit =>
      exact consistent.reserved owner nonempty bounded fresh recordsFit
        blocksFit
  | committed guards =>
      exact consistent.committed guards
  | cancelled found owner uncommitted notExpired =>
      exact consistent.leasesReplaced
        (consistent.leases.cancelled ⟨_, found, uncommitted⟩ notExpired _)
        rfl rfl
  | renewed found owner uncommitted notCancelled notExpired ttlValid
      unsaturated current issued extending =>
      have known := ExtTreeMap.mem_iff_isSome_getElem?.mpr
        (Option.isSome_of_eq_some found)
      have notMarked := LeaseState.not_mem_expired_of_pending
        ⟨_, found, uncommitted⟩ notCancelled notExpired
      refine consistent.leasesReplaced
        (consistent.leases.renewed known notMarked ?_) rfl rfl
      exact {
        renewed := add_one_ne_zero_of_ne_maxWord unsaturated
        positiveTtl := ttlValid.1
        boundedTtl := ttlValid.2
        issuedBy := ⟨_, checkedSub_of_checkedAdd issued,
          UInt64.le_refl _⟩ }
  | advanced ticked =>
      have later := le_of_checkedAdd ticked
      exact consistent.leasesReplaced (consistent.leases.ticked later)
        rfl rfl
  | expired due found =>
      exact consistent.leasesReplaced (consistent.leases.expired due _)
        rfl rfl
  | required inRange fits =>
      exact {
        leases := consistent.leases
        requirementsBounded := fits
        requirementRange :=
          raiseRequirements_range inRange consistent.requirementRange _
        fencesBounded := consistent.fencesBounded
        revisionsBound := consistent.revisionsBound
        ownersRegistered := consistent.ownersRegistered
        commitsRaised := consistent.commitsRaised }
  | registered agent displayName =>
      exact {
        leases := consistent.leases
        requirementsBounded := consistent.requirementsBounded
        requirementRange := consistent.requirementRange
        fencesBounded := consistent.fencesBounded
        revisionsBound := consistent.revisionsBound
        ownersRegistered := fun id record found =>
          ExtTreeMap.mem_insert.mpr
            (Or.inr (consistent.ownersRegistered id record found))
        commitsRaised := consistent.commitsRaised }
  | chained agent bindings =>
      exact consistent.chained agent bindings
  | bound agent link =>
      exact consistent.chained agent [link]

theorem fenced
    (consistent : state.Consistent bindingKey)
    {touched : ExtTreeSet BlockId}
    (capacity : fencesExhausted state touched = false) :
    (fenceBlocks state touched).Consistent bindingKey where
  leases := consistent.leases
  requirementsBounded := consistent.requirementsBounded
  requirementRange := consistent.requirementRange
  fencesBounded := fenceBlocks_bounded capacity
  revisionsBound := consistent.revisionsBound
  ownersRegistered := consistent.ownersRegistered
  commitsRaised := consistent.commitsRaised

/-- Every log entry keeps the state consistent. -/
theorem applyEntry
    (consistent : state.Consistent bindingKey)
    (entry : Entry) :
    (applyEntry bindingKey state entry).1.Consistent bindingKey := by
  apply applyEntry_preserves
  · exact consistent.stamped _ _
  · exact consistent.leases.dormant
  · intro membership
    exact consistent.stamped _ _
  · intro request next response _ capacity step _
    have after := (consistent.stamped _ _).transition step
    refine after.fenced ?_
    unfold fencesExhausted at capacity ⊢
    rw [(transition_frame step).1]
    exact capacity

end MetadataState.Consistent

/-! ## Log positions -/

namespace MetadataState.Positioned

variable {bindingKey : CacheKey → String} {state next : MetadataState}
  {request : Request} {response : Response}

theorem empty : Positioned {} where
  fencesPast := by simp
  recordsPast := by simp
  cancelledPast := by simp
  expiredPast := by simp

/-- Positions stay in the past when the applied index moves forward. -/
theorem stamped
    (positioned : state.Positioned)
    {logId : LogId}
    (later : state.appliedIndex ≤ logId.index)
    (membership : StoredMembership) :
    Positioned
      { state with
        lastApplied := some logId
        membership := membership } where
  fencesPast := by
    intro id position found
    exact UInt64.le_trans (positioned.fencesPast id position found) later
  recordsPast := by
    intro id record found
    exact UInt64.le_trans (positioned.recordsPast id record found) later
  cancelledPast := by
    intro id record position found cancelled
    obtain ⟨created, past⟩ :=
      positioned.cancelledPast id record position found cancelled
    exact ⟨created, UInt64.le_trans past later⟩
  expiredPast := by
    intro id record position found expired
    obtain ⟨created, past⟩ :=
      positioned.expiredPast id record position found expired
    exact ⟨created, UInt64.le_trans past later⟩

/-- Every record of the later table stems from one created at that time. -/
theorem recordsReplaced
    (positioned : state.Positioned)
    (sameFences : next.blockFences = state.blockFences)
    (sameIndex : next.appliedIndex = state.appliedIndex)
    (sameCancelled : next.leases.cancelled = state.leases.cancelled)
    (sameExpired : next.leases.expired = state.leases.expired)
    (created :
      ∀ (id : BlockId) (record : UploadLease),
        next.leases.records[id]? = some record →
        (∃ old : UploadLease, state.leases.records[id]? = some old ∧
          old.createdAt = record.createdAt) ∨
        (record.createdAt = state.appliedIndex ∧
          id ∉ state.leases.cancelled ∧ id ∉ state.leases.expired)) :
    next.Positioned where
  fencesPast := by
    rw [sameFences, sameIndex]
    exact positioned.fencesPast
  recordsPast := by
    intro id record found
    rw [sameIndex]
    rcases created id record found with
      ⟨old, oldFound, sameCreated⟩ | ⟨createdNow, -, -⟩
    · rw [← sameCreated]
      exact positioned.recordsPast id old oldFound
    · rw [createdNow]
      exact UInt64.le_refl _
  cancelledPast := by
    intro id record position found cancelled
    rw [sameCancelled] at cancelled
    rw [sameIndex]
    rcases created id record found with
      ⟨old, oldFound, sameCreated⟩ | ⟨-, notCancelled, -⟩
    · rw [← sameCreated]
      exact positioned.cancelledPast id old position oldFound cancelled
    · exact absurd (ExtTreeMap.mem_iff_isSome_getElem?.mpr
        (Option.isSome_of_eq_some cancelled)) notCancelled
  expiredPast := by
    intro id record position found expired
    rw [sameExpired] at expired
    rw [sameIndex]
    rcases created id record found with
      ⟨old, oldFound, sameCreated⟩ | ⟨-, -, notExpired⟩
    · rw [← sameCreated]
      exact positioned.expiredPast id old position oldFound expired
    · exact absurd (ExtTreeMap.mem_iff_isSome_getElem?.mpr
        (Option.isSome_of_eq_some expired)) notExpired

/-- A state with the same fences, index and lease history stays positioned. -/
theorem historyKept
    (positioned : state.Positioned)
    (sameFences : next.blockFences = state.blockFences)
    (sameIndex : next.appliedIndex = state.appliedIndex)
    (sameRecords : next.leases.records = state.leases.records)
    (sameCancelled : next.leases.cancelled = state.leases.cancelled)
    (sameExpired : next.leases.expired = state.leases.expired) :
    next.Positioned := by
  apply positioned.recordsReplaced sameFences sameIndex sameCancelled
    sameExpired
  intro id record found
  rw [sameRecords] at found
  exact Or.inl ⟨record, found, rfl⟩

theorem chained
    (positioned : state.Positioned)
    (agent : AgentId)
    (links : List ChainBinding) :
    (bindAll bindingKey state agent links).Positioned := by
  rw [bindAll_frame, LeaseState.bumpRevisions_frame]
  exact positioned.historyKept rfl rfl rfl rfl rfl

/-- A position recorded once lies between creation and the present. -/
theorem insertIfNew_past
    {marks : ExtTreeMap BlockId UInt64}
    {lease id : BlockId}
    {record : UploadLease}
    {index position : UInt64}
    (created : record.createdAt ≤ index)
    (past :
      ∀ earlier, marks[id]? = some earlier →
        record.createdAt ≤ earlier ∧ earlier ≤ index)
    (found : (marks.insertIfNew lease index)[id]? = some position) :
    record.createdAt ≤ position ∧ position ≤ index := by
  rw [ExtTreeMap.getElem?_insertIfNew] at found
  split at found
  · cases found
    exact ⟨created, UInt64.le_refl _⟩
  · exact past position found

/-- Every transition keeps the recorded positions ordered. -/
theorem transition
    (positioned : state.Positioned)
    (wellFormed : state.leases.WellFormed bindingKey)
    (step : Transition bindingKey state request next response) :
    next.Positioned := by
  cases step with
  | refused =>
      exact positioned
  | acknowledged =>
      exact positioned
  | @reserved lease agent blocks owner nonempty bounded fresh recordsFit
      blocksFit =>
      rw [activateLeases_of_dormant wellFormed.dormant]
      refine positioned.recordsReplaced rfl rfl rfl rfl ?_
      intro id record found
      simp only [insertReservation, ExtTreeMap.getElem?_insert] at found
      split at found
      · rename_i same
        have same := Std.LawfulEqOrd.eq_of_compare same
        subst same
        cases found
        refine Or.inr ⟨rfl, ?_, ?_⟩
        · intro cancelled
          obtain ⟨old, oldFound, -⟩ :=
            wellFormed.cancelledValid lease cancelled
          simp [fresh] at oldFound
        · intro expired
          obtain ⟨⟨old, oldFound, -⟩, -⟩ :=
            wellFormed.expiredValid lease expired
          simp [fresh] at oldFound
      · exact Or.inl ⟨record, found, rfl⟩
  | @committed lease agent binding expectedRevision record guards =>
      have bound :
          (bindAll bindingKey state agent [binding]).Positioned :=
        positioned.chained agent [binding]
      have leases :
          (bindAll bindingKey state agent [binding]).leases.records =
            state.leases.records := by
        rw [bindAll_frame, LeaseState.bumpRevisions_frame]
      rw [bindOne_eq_bindAll, recordCommit_eq_insert (leases ▸ guards.found)]
      refine bound.recordsReplaced rfl rfl rfl rfl ?_
      intro id other otherFound
      rw [ExtTreeMap.getElem?_insert] at otherFound
      split at otherFound
      · rename_i same
        have same := Std.LawfulEqOrd.eq_of_compare same
        subst same
        cases otherFound
        exact Or.inl ⟨record, leases ▸ guards.found, rfl⟩
      · exact Or.inl ⟨other, otherFound, rfl⟩
  | cancelled found =>
      exact {
        fencesPast := positioned.fencesPast
        recordsPast := positioned.recordsPast
        cancelledPast := fun id record position recordFound cancelled =>
          insertIfNew_past (positioned.recordsPast id record recordFound)
            (fun earlier => positioned.cancelledPast id record earlier
              recordFound) cancelled
        expiredPast := positioned.expiredPast }
  | renewed =>
      exact positioned.historyKept rfl rfl rfl rfl rfl
  | advanced =>
      exact positioned.historyKept rfl rfl rfl rfl rfl
  | expired =>
      exact {
        fencesPast := positioned.fencesPast
        recordsPast := positioned.recordsPast
        cancelledPast := positioned.cancelledPast
        expiredPast := fun id record position recordFound expired =>
          insertIfNew_past (positioned.recordsPast id record recordFound)
            (fun earlier => positioned.expiredPast id record earlier
              recordFound) expired }
  | required =>
      exact positioned.historyKept rfl rfl rfl rfl rfl
  | registered =>
      exact positioned.historyKept rfl rfl rfl rfl rfl
  | chained agent bindings =>
      exact positioned.chained agent bindings
  | bound agent link =>
      exact positioned.chained agent [link]

theorem fenced
    (positioned : state.Positioned)
    (touched : ExtTreeSet BlockId) :
    (fenceBlocks state touched).Positioned where
  fencesPast := by
    intro id position found
    rw [getElem?_fenceBlocks] at found
    split at found
    · cases found
      exact UInt64.le_refl _
    · exact positioned.fencesPast id position found
  recordsPast := positioned.recordsPast
  cancelledPast := positioned.cancelledPast
  expiredPast := positioned.expiredPast

/-- An entry that does not move backwards keeps the positions ordered. -/
theorem applyEntry
    (positioned : state.Positioned)
    (wellFormed : state.leases.WellFormed bindingKey)
    {entry : Entry}
    (later : state.appliedIndex ≤ entry.logId.index) :
    (applyEntry bindingKey state entry).1.Positioned := by
  apply applyEntry_preserves
  · exact positioned.stamped later _
  · exact wellFormed.dormant
  · intro membership
    exact positioned.stamped later _
  · intro request next response _ _ step _
    exact ((positioned.stamped later _).transition wellFormed step).fenced _

end MetadataState.Positioned

end KalpakDb
