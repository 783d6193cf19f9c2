import KalpakDb.MetadataApply

namespace KalpakDb

/-!
# What one request can do

`Transition` lists every effect a request can have on the replicated state,
each with the guards under which the source reaches it.  Invariants of the
state machine are proved by cases on this relation and never by unfolding the
request handlers again.

The reservation handler activates the lease protocol before its last checks.
It still refuses without any effect because, before activation, there is no
record that could clash and no capacity that could be exhausted.
-/

open Std (ExtTreeMap)
open MachineWord

/-- Before activation there is neither a lease nor a revision. -/
def LeaseState.Dormant (leases : LeaseState) : Prop :=
  leases.initialized = false →
    leases.records = ∅ ∧ leases.revisions = ∅

/-- Everything a commit must satisfy before it takes effect. -/
structure CommitGuards
    (bindingKey : CacheKey → String)
    (state : MetadataState)
    (lease : BlockId)
    (agent : AgentId)
    (binding : ChainBinding)
    (expectedRevision : UInt64)
    (record : UploadLease) : Prop where
  valid : validBinding binding = true
  found : state.leases.records[lease]? = some record
  owner : record.agent = agent
  sameBlocks : record.blocks = binding.blocks
  notCancelled : lease ∉ state.leases.cancelled
  notExpired : state.leases.isExpired lease = false
  uncommitted : record.committed = none
  ownBinding :
    ∀ old, state.bindings[bindingKey binding.key]? = some old →
      old.agent = agent
  current : state.revision (bindingKey binding.key) = expectedRevision
  unsaturated : expectedRevision ≠ maxWord

/-- The effects of one request, before its blocks are fenced. -/
inductive Transition
    (bindingKey : CacheKey → String)
    (state : MetadataState) :
    Request → MetadataState → Response → Prop where
  | refused
      (request : Request)
      (message : String) :
      Transition bindingKey state request state (.rejected message)
  | acknowledged
      (request : Request)
      (response : Response)
      (accepted : response.isRejected = false) :
      Transition bindingKey state request state response
  | reserved
      {lease : BlockId}
      {agent : AgentId}
      {blocks : List BlockId}
      (owner : agent ∈ state.agents)
      (nonempty : blocks ≠ [])
      (bounded : blocks.length ≤ maxLeaseBlocks)
      (fresh : state.leases.records[lease]? = none)
      (recordsFit : state.leases.records.size < maxLeases)
      (blocksFit :
        state.leases.reservedBlocks + blocks.length ≤ maxReservedBlocks) :
      Transition bindingKey state
        (.beginUploadLease lease agent blocks)
        (insertReservation (activateLeases state) lease agent blocks)
        .leaseReserved
  | committed
      {lease : BlockId}
      {agent : AgentId}
      {binding : ChainBinding}
      {expectedRevision : UInt64}
      {record : UploadLease}
      (guards :
        CommitGuards bindingKey state lease agent binding expectedRevision
          record) :
      Transition bindingKey state
        (.commitUploadLease lease agent binding expectedRevision)
        (recordCommit
          (bindOne bindingKey state agent binding.key binding.blocks
            binding.parent)
          lease {
            binding := binding
            expectedRevision := expectedRevision })
        .bound
  | cancelled
      {lease : BlockId}
      {agent : AgentId}
      {record : UploadLease}
      (found : state.leases.records[lease]? = some record)
      (owner : record.agent = agent)
      (uncommitted : record.committed = none)
      (notExpired : state.leases.isExpired lease = false) :
      Transition bindingKey state
        (.cancelUploadLease lease agent)
        { state with
          leases := { state.leases with
            cancelled := state.leases.cancelled.insertIfNew lease
              state.appliedIndex } }
        .leaseCancelled
  | renewed
      {lease : BlockId}
      {agent : AgentId}
      {expected ttl deadlineTick : UInt64}
      {record : UploadLease}
      (found : state.leases.records[lease]? = some record)
      (owner : record.agent = agent)
      (uncommitted : record.committed = none)
      (notCancelled : lease ∉ state.leases.cancelled)
      (notExpired : state.leases.isExpired lease = false)
      (ttlValid : 1 ≤ ttl ∧ ttl ≤ maxTtlTicks)
      (unsaturated : expected ≠ maxWord)
      (current :
        (state.leases.deadlines[lease]?.map
          LeaseDeadline.generation).getD 0 = expected)
      (issued : checkedAdd state.leases.clock ttl = some deadlineTick)
      (extending :
        ∀ old, state.leases.deadlines[lease]? = some old →
          old.deadlineTick < deadlineTick) :
      Transition bindingKey state
        (.renewUploadLease lease agent expected ttl)
        { state with
          leases := { state.leases with
            deadlines := state.leases.deadlines.insert lease {
              generation := expected + 1
              deadlineTick := deadlineTick
              ttlTicks := ttl } } }
        (.leaseRenewed (expected + 1) deadlineTick)
  | advanced
      {next : UInt64}
      (ticked : checkedAdd state.leases.clock 1 = some next) :
      Transition bindingKey state
        (.advanceLeaseClock state.leases.clock)
        { state with leases := { state.leases with clock := next } }
        .leaseClockAdvanced
  | expired
      {lease : BlockId}
      {deadline : LeaseDeadline}
      (due : state.leases.isExpired lease = true)
      (found : state.leases.deadlines[lease]? = some deadline) :
      Transition bindingKey state
        (.expireUploadLease lease deadline.generation deadline.deadlineTick)
        { state with
          leases := { state.leases with
            expired := state.leases.expired.insertIfNew lease
              state.appliedIndex } }
        .leaseExpired
  | required
      {blocks : List BlockId}
      {replicas : UInt64}
      (inRange : 2 ≤ replicas ∧ replicas ≤ 16)
      (fits :
        (raiseRequirements state.replicaRequirements blocks replicas).size ≤
          maxReplicaRequirements) :
      Transition bindingKey state
        (.requireReplicas blocks replicas)
        { state with
          replicaRequirements :=
            raiseRequirements state.replicaRequirements blocks replicas }
        .replicasRequired
  | registered
      (agent : AgentId)
      (displayName : String) :
      Transition bindingKey state
        (.registerAgent agent displayName)
        { state with
          agents := state.agents.insert agent {
            displayName := displayName
            registeredAt := state.appliedIndex } }
        .registered
  | chained
      (agent : AgentId)
      (bindings : List ChainBinding) :
      Transition bindingKey state
        (.bindChain agent bindings)
        (bindAll bindingKey state agent bindings)
        .bound
  | bound
      (agent : AgentId)
      (link : ChainBinding) :
      Transition bindingKey state
        (.bindPrefix agent link.key link.blocks link.parent)
        (bindAll bindingKey state agent [link])
        .bound

/-! ## Activation -/

theorem activateLeases_of_initialized
    {state : MetadataState}
    (active : state.leases.initialized = true) :
    activateLeases state = state := by
  simp [activateLeases, active]

@[simp] theorem activateLeases_initialized (state : MetadataState) :
    (activateLeases state).leases.initialized = true := by
  unfold activateLeases
  split <;> simp_all

/-- Activation keeps everything but the activation flag and the revisions. -/
theorem activateLeases_frame (state : MetadataState) :
    ∃ revisions,
      activateLeases state =
        { state with
          leases := { state.leases with
            initialized := true
            revisions := revisions } } := by
  unfold activateLeases
  split
  · exact ⟨∅, rfl⟩
  · rename_i active
    have active : state.leases.initialized = true := by
      simpa using active
    refine ⟨state.leases.revisions, ?_⟩
    rw [← active]

/-- From a dormant state activation changes the activation flag only. -/
theorem activateLeases_of_dormant
    {state : MetadataState}
    (dormant : state.leases.Dormant) :
    activateLeases state =
      { state with leases := { state.leases with initialized := true } } := by
  unfold activateLeases
  split
  · rename_i inactive
    have inactive : state.leases.initialized = false := by
      simpa using inactive
    rw [← (dormant inactive).2]
  · rename_i active
    have active : state.leases.initialized = true := by
      simpa using active
    rw [← active]

@[simp] theorem activateLeases_records (state : MetadataState) :
    (activateLeases state).leases.records = state.leases.records := by
  obtain ⟨revisions, shape⟩ := activateLeases_frame state
  rw [shape]

@[simp] theorem activateLeases_reservedBlocks (state : MetadataState) :
    (activateLeases state).leases.reservedBlocks =
      state.leases.reservedBlocks := by
  simp [LeaseState.reservedBlocks]

/-- A state that knows some lease has already been activated. -/
theorem initialized_of_record
    {leases : LeaseState}
    (dormant : leases.Dormant)
    {id : BlockId}
    {record : UploadLease}
    (found : leases.records[id]? = some record) :
    leases.initialized = true := by
  by_contra inactive
  have empty := (dormant (by simpa using inactive)).1
  simp [empty] at found

theorem reservedBlocks_of_empty
    {leases : LeaseState}
    (empty : leases.records = ∅) :
    leases.reservedBlocks = 0 := by
  have noRecords : (∅ : ExtTreeMap BlockId UploadLease).toList = [] :=
    ExtTreeMap.toList_eq_nil_iff.mpr rfl
  simp [LeaseState.reservedBlocks, FiniteMap.values, empty, noRecords]

/-! ## Every handler performs a transition -/

section Handlers

variable (bindingKey : CacheKey → String) (state : MetadataState)

theorem reserve_transition
    (dormant : state.leases.Dormant)
    (lease : BlockId)
    (agent : AgentId)
    (blocks : List BlockId) :
    Transition bindingKey state
      (.beginUploadLease lease agent blocks)
      (reserve state lease agent blocks).1
      (reserve state lease agent blocks).2 := by
  unfold reserve
  split
  · exact .refused _ _
  rename_i requestValid
  simp only [activateLeases_records, activateLeases_reservedBlocks]
  cases found : state.leases.records[lease]? with
  | some old =>
      have active := initialized_of_record dormant found
      rw [activateLeases_of_initialized active]
      simp only
      split
      · split
        · exact .refused _ _
        · split
          · exact .refused _ _
          · exact .acknowledged _ _ rfl
      · exact .refused _ _
  | none =>
      simp only [Bool.or_eq_true, not_or, decide_eq_true_eq] at requestValid
      obtain ⟨⟨nonempty, bounded⟩, owner⟩ := requestValid
      simp only
      split
      · rename_i exhausted
        have active : state.leases.initialized = true := by
          by_contra inactive
          have empty := (dormant (by simpa using inactive)).1
          have noBlocks := reservedBlocks_of_empty empty
          simp [empty, noBlocks, maxLeases, maxReservedBlocks,
            maxLeaseBlocks] at exhausted bounded
          omega
        rw [activateLeases_of_initialized active]
        exact .refused _ _
      · rename_i available
        simp only [Bool.or_eq_true, not_or, decide_eq_true_eq] at available
        refine .reserved ?_ ?_ ?_ found ?_ ?_
        · simpa using owner
        · simpa using nonempty
        · simpa using bounded
        · simpa using available.1
        · simpa using available.2

theorem cancel_transition
    (lease : BlockId)
    (agent : AgentId) :
    Transition bindingKey state
      (.cancelUploadLease lease agent)
      (cancel state lease agent).1
      (cancel state lease agent).2 := by
  unfold cancel
  cases found : state.leases.records[lease]? with
  | none =>
      exact .refused _ _
  | some record =>
      simp only
      split
      · exact .refused _ _
      · rename_i owner
        split
        · exact .refused _ _
        · rename_i uncommitted
          split
          · exact .refused _ _
          · rename_i notExpired
            exact .cancelled found (by simpa using owner)
              (by simpa using uncommitted) (by simpa using notExpired)

theorem renew_transition
    (lease : BlockId)
    (agent : AgentId)
    (expected ttl : UInt64) :
    Transition bindingKey state
      (.renewUploadLease lease agent expected ttl)
      (renew state lease agent expected ttl).1
      (renew state lease agent expected ttl).2 := by
  unfold renew
  cases found : state.leases.records[lease]? with
  | none =>
      exact .refused _ _
  | some record =>
      simp only
      split
      · exact .refused _ _
      · rename_i pending
        simp only [not_or] at pending
        obtain ⟨owner, uncommitted, notCancelled, notExpired⟩ := pending
        split
        · exact .refused _ _
        · rename_i wellFormed
          simp only [not_or, not_not] at wellFormed
          split
          · exact .acknowledged _ _ rfl
          · split
            · exact .refused _ _
            · rename_i current
              split
              · exact .refused _ _
              · rename_i deadlineTick issued
                split
                · exact .refused _ _
                · rename_i extending
                  have sameGeneration := not_not.mp current
                  rw [← sameGeneration]
                  refine .renewed found (by simpa using owner)
                    (by simpa using uncommitted)
                    (by simpa using notCancelled)
                    (by simpa using notExpired)
                    wellFormed.1 wellFormed.2 sameGeneration.symm
                    issued ?_
                  intro old oldFound
                  simp only [oldFound, Option.any_some, ge_iff_le,
                    decide_eq_true_eq, UInt64.not_le] at extending
                  exact extending

theorem advance_transition
    (expected : UInt64) :
    Transition bindingKey state
      (.advanceLeaseClock expected)
      (advance state expected).1
      (advance state expected).2 := by
  unfold advance
  split
  · exact .acknowledged _ _ rfl
  · split
    · exact .refused _ _
    · rename_i current
      have current := not_not.mp current
      subst current
      split
      · exact .refused _ _
      · rename_i next ticked
        exact .advanced ticked

theorem expire_transition
    (lease : BlockId)
    (generation deadlineTick : UInt64) :
    Transition bindingKey state
      (.expireUploadLease lease generation deadlineTick)
      (expire state lease generation deadlineTick).1
      (expire state lease generation deadlineTick).2 := by
  unfold expire
  cases found : state.leases.deadlines[lease]? with
  | none =>
      simp only [Bool.or_true, if_true]
      exact .refused _ _
  | some deadline =>
      simp only
      split
      · exact .refused _ _
      · rename_i matching
        simp only [Bool.or_eq_true, not_or, Bool.not_eq_true,
          Bool.not_eq_false', bne_eq_false_iff_eq] at matching
        obtain ⟨due, sameGeneration, sameTick⟩ := matching
        rw [← sameGeneration, ← sameTick]
        exact .expired due found

/-- Validation accepts the commit a lease was consumed by, or a new one. -/
theorem validateCommit_cases
    {lease : BlockId}
    {agent : AgentId}
    {binding : ChainBinding}
    {expectedRevision : UInt64}
    {fresh : Bool}
    (validated :
      validateCommit bindingKey state lease agent binding
        expectedRevision = .ok fresh) :
    (fresh = false ∧
      ∃ record,
        state.leases.records[lease]? = some record ∧
          record.agent = agent ∧
          record.committed = some ⟨binding, expectedRevision⟩) ∨
    (fresh = true ∧
      ∃ record,
        CommitGuards bindingKey state lease agent binding expectedRevision
          record) := by
  unfold validateCommit at validated
  split at validated
  · cases validated
  rename_i valid
  split at validated
  · cases validated
  rename_i record found
  split at validated
  · cases validated
  rename_i owner
  simp only [not_or, not_not] at owner
  split at validated
  · cases validated
  rename_i notCancelled
  split at validated
  · cases validated
  rename_i notExpired
  split at validated
  · rename_i old committed
    split at validated
    · rename_i same
      cases validated
      obtain ⟨sameRevision, sameKey, sameParent, sameBlocks⟩ := same
      refine Or.inl ⟨rfl, record, found, owner.1, ?_⟩
      rw [committed]
      obtain ⟨⟨oldKey, oldBlocks, oldParent⟩, oldRevision⟩ := old
      obtain ⟨key, blocks, parent⟩ := binding
      simp only at sameRevision sameKey sameParent sameBlocks
      rw [sameRevision, sameKey, sameParent, sameBlocks]
    · cases validated
  · rename_i uncommitted
    simp only at validated
    split at validated
    · cases validated
    rename_i ownBinding
    split at validated
    · cases validated
    rename_i current
    cases validated
    simp only [not_or, not_not] at current
    refine Or.inr ⟨rfl, record, by simpa using valid, found, owner.1,
      owner.2, by simpa using notCancelled, by simpa using notExpired,
      uncommitted, ?_, current.2, ?_⟩
    · intro old oldFound
      simpa [oldFound] using ownBinding
    · rw [← current.2]
      exact current.1

/-- Validation admits a new commit exactly when every guard holds. -/
theorem validateCommit_eq_ok_true_iff
    {lease : BlockId}
    {agent : AgentId}
    {binding : ChainBinding}
    {expectedRevision : UInt64} :
    validateCommit bindingKey state lease agent binding expectedRevision =
        .ok true ↔
      ∃ record,
        CommitGuards bindingKey state lease agent binding expectedRevision
          record := by
  constructor
  · intro validated
    rcases validateCommit_cases bindingKey state validated with
      ⟨stale, -⟩ | ⟨-, guarded⟩
    · cases stale
    · exact guarded
  · rintro ⟨record, guards⟩
    have sameAgent :
        (state.bindings[bindingKey binding.key]?.any
          fun old => !decide (old.agent = agent)) = false := by
      cases old : state.bindings[bindingKey binding.key]? with
      | none =>
          rfl
      | some binding =>
          simpa using guards.ownBinding binding old
    have current := guards.current
    unfold MetadataState.revision at current
    simp [validateCommit, guards.valid, guards.found, guards.owner,
      guards.sameBlocks, guards.notCancelled, guards.notExpired,
      guards.uncommitted, sameAgent, current, guards.unsaturated]

/-- Every request performs one of the listed transitions. -/
theorem applyUnfenced_transition
    (dormant : state.leases.Dormant)
    (request : Request) :
    Transition bindingKey state request
      (applyUnfenced bindingKey state request).1
      (applyUnfenced bindingKey state request).2 := by
  cases request with
  | requireReplicas blocks replicas =>
      unfold applyUnfenced
      simp only
      split
      · exact .refused _ _
      · rename_i inRange
        simp only [not_or, not_not] at inRange
        split
        · exact .refused _ _
        · rename_i fits
          exact .required inRange.1 (by simpa using fits)
  | registerAgent agent displayName =>
      exact .registered agent displayName
  | bindPrefix agent key blocks parent =>
      exact .bound agent ⟨key, blocks, parent⟩
  | bindChain agent bindings =>
      exact .chained agent bindings
  | beginUploadLease lease agent blocks =>
      exact reserve_transition bindingKey state dormant lease agent blocks
  | commitUploadLease lease agent binding expectedRevision =>
      unfold applyUnfenced
      simp only
      split
      · exact .refused _ _
      · exact .acknowledged _ _ rfl
      · rename_i validated
        obtain ⟨record, guards⟩ :=
          (validateCommit_eq_ok_true_iff bindingKey state).mp validated
        exact .committed guards
  | cancelUploadLease lease agent =>
      exact cancel_transition bindingKey state lease agent
  | renewUploadLease lease agent expected ttl =>
      exact renew_transition bindingKey state lease agent expected ttl
  | advanceLeaseClock expected =>
      exact advance_transition bindingKey state expected
  | expireUploadLease lease generation deadlineTick =>
      exact expire_transition bindingKey state lease generation deadlineTick

/--
A request is either refused without any effect, or performs an accepted
transition whose touched blocks are then fenced.
-/
theorem applyOne_cases
    (dormant : state.leases.Dormant)
    (request : Request) :
    (∃ message,
      applyOne bindingKey state request = (state, .rejected message)) ∨
    (∃ next response,
      fencesExhausted state (touchedBlocks bindingKey state request) =
          false ∧
        Transition bindingKey state request next response ∧
        response.isRejected = false ∧
        applyOne bindingKey state request =
          (fenceBlocks next (touchedBlocks bindingKey state request),
            response)) := by
  have transition := applyUnfenced_transition bindingKey state dormant request
  unfold applyOne
  simp only
  split
  · exact Or.inl ⟨_, rfl⟩
  rename_i capacity
  rcases result : applyUnfenced bindingKey state request with
    ⟨next, response⟩
  simp only [result] at transition ⊢
  cases rejected : response.isRejected with
  | true =>
      refine Or.inl ?_
      cases transition with
      | refused _ message =>
          exact ⟨message, rfl⟩
      | acknowledged _ _ accepted =>
          simp [accepted] at rejected
      | _ =>
          simp [Response.isRejected] at rejected
  | false =>
      exact Or.inr ⟨next, response, by simpa using capacity,
        transition, rejected, rfl⟩

/-- An accepted request passed the capacity gate and was fenced. -/
theorem applyOne_of_accepted
    {request : Request}
    (accepted :
      (applyOne bindingKey state request).2.isRejected = false) :
    fencesExhausted state (touchedBlocks bindingKey state request) = false ∧
      (applyUnfenced bindingKey state request).2.isRejected = false ∧
      applyOne bindingKey state request =
        (fenceBlocks (applyUnfenced bindingKey state request).1
            (touchedBlocks bindingKey state request),
          (applyUnfenced bindingKey state request).2) := by
  unfold applyOne at accepted ⊢
  simp only at accepted ⊢
  split at accepted
  · simp [Response.isRejected] at accepted
  · rename_i capacity
    split at accepted
    · rename_i rejected
      simp [rejected] at accepted
    · rename_i answered
      have answered :
          (applyUnfenced bindingKey state request).2.isRejected = false := by
        simpa using answered
      have capacity :
          fencesExhausted state (touchedBlocks bindingKey state request) =
            false := by
        simpa using capacity
      simp [capacity, answered]

/-- A rejected request leaves the whole state as it was. -/
theorem applyOne_of_rejected
    (dormant : state.leases.Dormant)
    {request : Request}
    (rejected :
      (applyOne bindingKey state request).2.isRejected = true) :
    (applyOne bindingKey state request).1 = state := by
  rcases applyOne_cases bindingKey state dormant request with
    ⟨message, refused⟩ | ⟨next, response, -, -, answered, applied⟩
  · rw [refused]
  · rw [applied, answered] at rejected
    cases rejected

/--
The rule for invariants of log application: after stamping the log position,
only a membership change or an accepted, fenced transition remains.
-/
theorem applyEntry_preserves
    (invariant : MetadataState → Prop)
    {entry : Entry}
    (stamped :
      invariant { state with lastApplied := some entry.logId })
    (dormant : state.leases.Dormant)
    (memberChanged :
      ∀ membership,
        invariant {
          state with
          lastApplied := some entry.logId
          membership := membership })
    (accepted :
      ∀ request next response,
        entry.payload = .normal request →
        fencesExhausted { state with lastApplied := some entry.logId }
            (touchedBlocks bindingKey
              { state with lastApplied := some entry.logId } request) =
          false →
        Transition bindingKey
          { state with lastApplied := some entry.logId }
          request next response →
        response.isRejected = false →
        invariant (fenceBlocks next
          (touchedBlocks bindingKey
            { state with lastApplied := some entry.logId } request))) :
    invariant (applyEntry bindingKey state entry).1 := by
  unfold applyEntry
  cases payload : entry.payload with
  | blank =>
      exact stamped
  | membership membership =>
      exact memberChanged _
  | normal request =>
      simp only
      rcases applyOne_cases bindingKey
          { state with lastApplied := some entry.logId } dormant request with
        ⟨message, refused⟩ |
        ⟨next, response, capacity, transition, answered, applied⟩
      · rw [refused]
        exact stamped
      · rw [applied]
        exact accepted request next response payload capacity
          transition answered

end Handlers

end KalpakDb
