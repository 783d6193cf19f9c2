import KalpakDb.LeaseLifecycle
import KalpakDb.ReferenceFences

namespace KalpakDb

/-!
# Lease commits

A commit names the revision of its key that the committer saw.  It takes
effect only at that revision, and every bind of an active state raises the
revision of its key.  The revision therefore acts as a compare-and-swap on
the binding, and a commit never overwrites a binding it has not seen.
-/

open Std (ExtTreeMap ExtTreeSet)
open MachineWord

section Definitions

variable (bindingKey : CacheKey → String)

/-- An entry that commits a lease which was not committed before. -/
structure FirstCommit
    (state : MetadataState)
    (entry : Entry)
    (lease : BlockId)
    (agent : AgentId)
    (binding : ChainBinding)
    (expectedRevision : UInt64) : Prop where
  requested :
    entry.payload =
      .normal (.commitUploadLease lease agent binding expectedRevision)
  answered : (applyEntry bindingKey state entry).2 = .bound
  unconsumed :
    ∀ record : UploadLease, state.leases.records[lease]? = some record →
      record.committed = none

/-- An entry that binds a serialized key, by a request of any kind. -/
def Rebinds
    (key : String)
    (state : MetadataState)
    (entry : Entry) : Prop :=
  ∃ agent links,
    appliedLinks bindingKey state entry = some (agent, links) ∧
      key ∈ linkKeys bindingKey links

end Definitions

section Steps

variable {bindingKey : CacheKey → String} {state : MetadataState}
  {entry : Entry} {lease : BlockId} {agent : AgentId}
  {binding : ChainBinding} {expectedRevision : UInt64}

/-- Validation acknowledges only the exact commit a lease was consumed by. -/
theorem validateCommit_eq_ok_false
    (validated :
      validateCommit bindingKey state lease agent binding
        expectedRevision = .ok false) :
    ∃ record : UploadLease,
      state.leases.records[lease]? = some record ∧
        record.agent = agent ∧
        record.committed = some ⟨binding, expectedRevision⟩ := by
  rcases validateCommit_cases bindingKey state validated with
    ⟨-, acknowledged⟩ | ⟨stale, -⟩
  · exact acknowledged
  · cases stale

namespace FirstCommit

theorem applyEntry_eq
    (first :
      FirstCommit bindingKey state entry lease agent binding
        expectedRevision) :
    applyEntry bindingKey state entry =
      applyOne bindingKey { state with lastApplied := some entry.logId }
        (.commitUploadLease lease agent binding expectedRevision) := by
  simp only [applyEntry, first.requested]

/-- A first commit passed every check of validation. -/
theorem validated
    (first :
      FirstCommit bindingKey state entry lease agent binding
        expectedRevision) :
    validateCommit bindingKey state lease agent binding expectedRevision =
      .ok true := by
  have answered := first.answered
  rw [first.applyEntry_eq] at answered
  obtain ⟨-, -, applied⟩ := applyOne_of_accepted bindingKey
    { state with lastApplied := some entry.logId }
    (by rw [answered]; rfl)
  rw [applied] at answered
  have sameCheck :
      validateCommit bindingKey
          { state with lastApplied := some entry.logId } lease agent binding
          expectedRevision =
        validateCommit bindingKey state lease agent binding
          expectedRevision := rfl
  unfold applyUnfenced at answered
  simp only [sameCheck] at answered
  split at answered
  · cases answered
  · rename_i acknowledged
    obtain ⟨record, found, -, committed⟩ :=
      validateCommit_eq_ok_false acknowledged
    have unconsumed := first.unconsumed record found
    simp [committed] at unconsumed
  · rename_i admitted
    exact admitted

theorem guards
    (first :
      FirstCommit bindingKey state entry lease agent binding
        expectedRevision) :
    ∃ record,
      CommitGuards bindingKey state lease agent binding expectedRevision
        record :=
  (validateCommit_eq_ok_true_iff bindingKey state).mp first.validated

theorem appliedLinks_eq
    (first :
      FirstCommit bindingKey state entry lease agent binding
        expectedRevision) :
    appliedLinks bindingKey state entry = some (agent, [binding]) := by
  unfold appliedLinks boundLinks
  simp [first.requested, first.answered, first.validated,
    Response.isRejected]

theorem rebinds
    (first :
      FirstCommit bindingKey state entry lease agent binding
        expectedRevision) :
    Rebinds bindingKey (bindingKey binding.key) state entry :=
  ⟨agent, [binding], first.appliedLinks_eq, by simp [linkKeys]⟩

end FirstCommit

/-- Revisions never decrease. -/
theorem stepEntry_revisionsGrow
    (dormant : state.leases.Dormant)
    (entry : Entry) :
    RevisionsGrow state.leases (stepEntry bindingKey state entry).leases := by
  have same := (applyEntry_sameBindings bindingKey dormant entry).revisions
  intro key
  unfold stepEntry
  rw [same]
  cases appliedLinks bindingKey state entry with
  | none =>
      exact RevisionsGrow.refl state.leases key
  | some agentLinks =>
      simp only [bindLinks]
      rw [bindAll_frame]
      exact LeaseState.bumpRevisions_grows state.leases _ key

/-- A bind of an active state raises the revision of its key. -/
theorem revision_lt_of_rebinds
    (dormant : state.leases.Dormant)
    (active : state.leases.initialized = true)
    {key : String}
    (rebinds : Rebinds bindingKey key state entry)
    (unsaturated : state.revision key ≠ maxWord) :
    state.revision key < (stepEntry bindingKey state entry).revision key := by
  obtain ⟨agent, links, applied, listed⟩ := rebinds
  have same := (applyEntry_sameBindings bindingKey dormant entry).revisions
  unfold MetadataState.revision at unsaturated ⊢
  unfold stepEntry
  rw [same, applied]
  simp only [bindLinks]
  rw [bindAll_frame]
  exact LeaseState.lt_bumpRevisions active listed unsaturated

/-- Without a bind of the key its binding is unchanged. -/
theorem binding_of_not_rebinds
    (dormant : state.leases.Dormant)
    {key : String}
    (kept : ¬ Rebinds bindingKey key state entry) :
    (stepEntry bindingKey state entry).bindings[key]? =
      state.bindings[key]? := by
  have same := (applyEntry_sameBindings bindingKey dormant entry).bindings
  unfold stepEntry
  rw [same]
  cases applied : appliedLinks bindingKey state entry with
  | none =>
      rfl
  | some agentLinks =>
      refine bindAll_binding_other bindingKey state agentLinks.1 ?_
      intro listed
      exact kept ⟨agentLinks.1, agentLinks.2, applied, listed⟩

/-- Leases are never deactivated. -/
theorem transition_initialized
    {next : MetadataState}
    {request : Request}
    {response : Response}
    (step : Transition bindingKey state request next response)
    (active : state.leases.initialized = true) :
    next.leases.initialized = true := by
  cases step with
  | reserved =>
      exact activateLeases_initialized state
  | committed =>
      rw [bindOne_eq_bindAll, recordCommit, bindAll_frame]
      simpa [LeaseState.bumpRevisions_initialized] using active
  | chained agent links =>
      rw [bindAll_frame]
      simpa [LeaseState.bumpRevisions_initialized] using active
  | bound agent link =>
      rw [bindAll_frame]
      simpa [LeaseState.bumpRevisions_initialized] using active
  | _ =>
      exact active

theorem stepEntry_initialized
    (dormant : state.leases.Dormant)
    (active : state.leases.initialized = true)
    (entry : Entry) :
    (stepEntry bindingKey state entry).leases.initialized = true := by
  refine applyEntry_preserves bindingKey state
    (fun next => next.leases.initialized = true) active dormant ?_ ?_
  · intro membership
    exact active
  · intro request next response _ _ step _
    have stillActive := transition_initialized step active
    exact stillActive

end Steps

/-! ## Compare-and-swap along a run -/

section Runs

variable {bindingKey : CacheKey → String} {entries : List Entry}
  {earlier later : Nat}

theorem stateAt_revision_le
    (key : String)
    (ordered : earlier ≤ later) :
    (stateAt bindingKey {} entries earlier).revision key ≤
      (stateAt bindingKey {} entries later).revision key :=
  stateAt_related .empty
    (fun first last => first.revision key ≤ last.revision key)
    (fun _ => UInt64.le_refl _)
    (fun _ _ _ => UInt64.le_trans)
    (fun _ entry consistent =>
      (stepEntry_revisionsGrow consistent.leases.dormant entry key).1)
    ordered

theorem stateAt_initialized
    (ordered : earlier ≤ later) :
    (stateAt bindingKey {} entries earlier).leases.initialized = true →
      (stateAt bindingKey {} entries later).leases.initialized = true :=
  stateAt_related .empty
    (fun first last =>
      first.leases.initialized = true → last.leases.initialized = true)
    (fun _ => id)
    (fun _ _ _ early late => late ∘ early)
    (fun _ entry consistent active =>
      stepEntry_initialized consistent.leases.dormant active entry)
    ordered

/-- Between two sights of one unsaturated revision the key is not bound. -/
theorem not_rebinds_between
    {key : String}
    {earlier position later : Nat}
    {entry : Entry}
    (active :
      (stateAt bindingKey {} entries earlier).leases.initialized = true)
    (same :
      (stateAt bindingKey {} entries earlier).revision key =
        (stateAt bindingKey {} entries later).revision key)
    (unsaturated :
      (stateAt bindingKey {} entries later).revision key ≠ maxWord)
    (afterEarlier : earlier ≤ position)
    (beforeLater : position < later)
    (present : entries[position]? = some entry) :
    ¬ Rebinds bindingKey key (stateAt bindingKey {} entries position)
        entry := by
  have consistent :
      ∀ place, (stateAt bindingKey {} entries place).Consistent
        bindingKey :=
    fun _ => stateAt_consistent .empty _
  intro rebinds
  refine StepRun.no_event_between
    (fun state => (state.revision key).toNat)
    (fun state entry =>
      state.leases.initialized = true ∧ state.revision key ≠ maxWord ∧
        Rebinds bindingKey key state entry)
    ?_ ?_ afterEarlier beforeLater present (congrArg UInt64.toNat same)
    ⟨stateAt_initialized afterEarlier active, ?_, rebinds⟩
  · intro place other _
    exact UInt64.le_iff_toNat_le.mp
      (stepEntry_revisionsGrow (consistent place).leases.dormant other
        key).1
  · rintro place other _ ⟨stillActive, below, bound⟩
    exact UInt64.lt_iff_toNat_lt.mp
      (revision_lt_of_rebinds (consistent place).leases.dormant stillActive
        bound below)
  · have bounded :
        (stateAt bindingKey {} entries position).revision key ≤
          (stateAt bindingKey {} entries later).revision key :=
      stateAt_revision_le key (Nat.le_of_lt beforeLater)
    have below := toNat_lt_of_ne_maxWord unsaturated
    intro saturated
    change (stateAt bindingKey {} entries position).revision key = maxWord
      at saturated
    rw [saturated, UInt64.le_iff_toNat_le, toNat_maxWord] at bounded
    omega

/-- Between two sights of one unsaturated revision the binding is kept. -/
theorem binding_kept_between
    {key : String}
    (ordered : earlier ≤ later)
    (kept :
      ∀ position entry, earlier ≤ position → position < later →
        entries[position]? = some entry →
        ¬ Rebinds bindingKey key (stateAt bindingKey {} entries position)
            entry) :
    (stateAt bindingKey {} entries later).bindings[key]? =
      (stateAt bindingKey {} entries earlier).bindings[key]? := by
  induction later, ordered using Nat.le_induction with
  | base =>
      rfl
  | succ later afterEarlier inductionHypothesis =>
      have before := inductionHypothesis
        (fun position entry low high =>
          kept position entry low (Nat.lt_succ_of_lt high))
      rw [← before]
      cases present : entries[later]? with
      | none =>
          rw [stateAt_succ_of_none present]
      | some entry =>
          have consistent :
              (stateAt bindingKey {} entries later).Consistent
                bindingKey :=
            stateAt_consistent .empty later
          rw [stateAt_succ present]
          exact binding_of_not_rebinds consistent.leases.dormant
            (kept later entry afterEarlier (Nat.lt_succ_self later) present)

end Runs

/--
Lease commits never lose an update.  A commit that takes effect finds its key
at the expected revision and owned by its agent.  Since any earlier active
state that showed this revision nothing has bound the key, by whatever kind
of request.  So no other commit of the same key takes effect at the same
expected revision.
-/
theorem lease_commits_never_lose_updates
    (bindingKey : CacheKey → String)
    (entries : List Entry)
    (position : Nat)
    (entry : Entry)
    (lease : BlockId)
    (agent : AgentId)
    (binding : ChainBinding)
    (expectedRevision : UInt64)
    (present : entries[position]? = some entry)
    (first :
      FirstCommit bindingKey (stateAt bindingKey {} entries position) entry
        lease agent binding expectedRevision) :
    let key := bindingKey binding.key
    let current := stateAt bindingKey {} entries position
    current.revision key = expectedRevision ∧
    (∀ old, current.bindings[key]? = some old → old.agent = agent) ∧
    (∀ earlier, earlier ≤ position →
      (stateAt bindingKey {} entries earlier).leases.initialized = true →
      (stateAt bindingKey {} entries earlier).revision key =
        expectedRevision →
      (∀ middle other, earlier ≤ middle → middle < position →
        entries[middle]? = some other →
        ¬ Rebinds bindingKey key (stateAt bindingKey {} entries middle)
            other) ∧
      current.bindings[key]? =
        (stateAt bindingKey {} entries earlier).bindings[key]?) ∧
    (∀ otherPosition otherEntry otherLease otherAgent otherBinding,
      otherPosition ≠ position →
      entries[otherPosition]? = some otherEntry →
      bindingKey otherBinding.key = key →
      ¬ FirstCommit bindingKey
          (stateAt bindingKey {} entries otherPosition) otherEntry otherLease
          otherAgent otherBinding expectedRevision) := by
  intro key current
  obtain ⟨record, guards⟩ := first.guards
  have unseen :
      ∀ earlier, earlier ≤ position →
        (stateAt bindingKey {} entries earlier).leases.initialized = true →
        (stateAt bindingKey {} entries earlier).revision key =
          expectedRevision →
        ∀ middle other, earlier ≤ middle → middle < position →
          entries[middle]? = some other →
          ¬ Rebinds bindingKey key (stateAt bindingKey {} entries middle)
              other := by
    intro earlier _ active seen middle other low high found
    refine not_rebinds_between active (seen.trans guards.current.symm) ?_
      low high found
    rw [guards.current]
    exact guards.unsaturated
  refine ⟨guards.current, guards.ownBinding, ?_, ?_⟩
  · intro earlier ordered active seen
    have kept := unseen earlier ordered active seen
    exact ⟨kept, binding_kept_between ordered kept⟩
  · intro otherPosition otherEntry otherLease otherAgent otherBinding
      different otherPresent sameKey other
    obtain ⟨otherRecord, otherGuards⟩ := other.guards
    have otherConsistent :
        (stateAt bindingKey {} entries otherPosition).Consistent
          bindingKey :=
      stateAt_consistent .empty otherPosition
    have otherActive := initialized_of_record
      otherConsistent.leases.dormant otherGuards.found
    have consistent : current.Consistent bindingKey :=
      stateAt_consistent .empty position
    have active := initialized_of_record consistent.leases.dormant
      guards.found
    have otherCurrent := otherGuards.current
    have otherRebinds := other.rebinds
    rw [sameKey] at otherCurrent otherRebinds
    rcases Nat.lt_or_gt_of_ne different with isEarlier | isLater
    · exact unseen otherPosition (Nat.le_of_lt isEarlier) otherActive
        otherCurrent otherPosition otherEntry (Nat.le_refl _) isEarlier
        otherPresent otherRebinds
    · refine not_rebinds_between active
        (guards.current.trans otherCurrent.symm) ?_ (Nat.le_refl position)
        isLater present first.rebinds
      rw [otherCurrent]
      exact otherGuards.unsaturated

/-- The binding that the sample log commits. -/
def sampleBinding : ChainBinding where
  key := ⟨⟨"model", "tokenizer", "layout"⟩, .filled 7⟩
  blocks := [.filled 2]
  parent := none

/-- A registered agent reserves a block and commits it after a tick. -/
def leaseLog : List Entry :=
  [⟨⟨⟨1, 1⟩, 1⟩, .normal (.registerAgent (.filled 1) "agent")⟩,
    ⟨⟨⟨1, 1⟩, 2⟩,
      .normal (.beginUploadLease (.filled 9) (.filled 1) [.filled 2])⟩,
    ⟨⟨⟨1, 1⟩, 3⟩, .normal (.advanceLeaseClock 0)⟩,
    ⟨⟨⟨1, 1⟩, 4⟩,
      .normal (.commitUploadLease (.filled 9) (.filled 1) sampleBinding 0)⟩]

theorem leaseLog_firstCommit :
    FirstCommit serdeBindingKey (stateAt serdeBindingKey {} leaseLog 3)
      ⟨⟨⟨1, 1⟩, 4⟩,
        .normal (.commitUploadLease (.filled 9) (.filled 1) sampleBinding 0)⟩
      (.filled 9) (.filled 1) sampleBinding 0 where
  requested := rfl
  answered := by decide +kernel
  unconsumed := by
    have pending :
        ((stateAt serdeBindingKey {} leaseLog 3).leases.records[
          BlockId.filled 9]?.all fun record => record.committed.isNone) =
          true := by
      decide +kernel
    intro record found
    simpa [found] using pending

theorem lease_commits_never_lose_updates_sample :
    (stateAt serdeBindingKey {} leaseLog 3).revision
        (serdeBindingKey sampleBinding.key) = 0 ∧
    (stateAt serdeBindingKey {} leaseLog 3).bindings[
        serdeBindingKey sampleBinding.key]? =
      (stateAt serdeBindingKey {} leaseLog 2).bindings[
        serdeBindingKey sampleBinding.key]? := by
  have safe := lease_commits_never_lose_updates serdeBindingKey leaseLog 3 _
    (.filled 9) (.filled 1) sampleBinding 0 rfl leaseLog_firstCommit
  exact ⟨safe.1, (safe.2.2.1 2 (by omega) (by decide +kernel)
    (by decide +kernel)).2⟩

/-! ## A consumed lease -/

section Consumed

variable {bindingKey : CacheKey → String} {state : MetadataState}
  {lease : BlockId} {agent : AgentId} {binding : ChainBinding}
  {expectedRevision : UInt64}

/-- A lease that one particular commit has consumed. -/
def ConsumedBy
    (state : MetadataState)
    (lease : BlockId)
    (agent : AgentId)
    (binding : ChainBinding)
    (expectedRevision : UInt64) : Prop :=
  ∃ record : UploadLease,
    state.leases.records[lease]? = some record ∧
      record.agent = agent ∧
      record.committed = some ⟨binding, expectedRevision⟩

/-- A first commit consumes its lease. -/
theorem FirstCommit.consumes
    {entry : Entry}
    (first :
      FirstCommit bindingKey state entry lease agent binding
        expectedRevision) :
    ConsumedBy (stepEntry bindingKey state entry) lease agent binding
      expectedRevision := by
  obtain ⟨record, guards⟩ := first.guards
  have answered := first.answered
  rw [first.applyEntry_eq] at answered
  obtain ⟨-, -, applied⟩ := applyOne_of_accepted bindingKey
    { state with lastApplied := some entry.logId }
    (by rw [answered]; rfl)
  have validated :
      validateCommit bindingKey
          { state with lastApplied := some entry.logId } lease agent binding
          expectedRevision = .ok true := first.validated
  unfold stepEntry
  rw [first.applyEntry_eq, applied]
  unfold applyUnfenced
  simp only [validated]
  refine ⟨{ record with committed := some ⟨binding, expectedRevision⟩ },
    ?_, guards.owner, rfl⟩
  have found :
      (bindOne bindingKey { state with lastApplied := some entry.logId }
        agent binding.key binding.blocks
        binding.parent).leases.records[lease]? = some record := by
    simp only [bindOne]
    rw [LeaseState.bumpRevision_frame]
    exact guards.found
  rw [recordCommit_eq_insert found]
  simp [fenceBlocks]

theorem ConsumedBy.follows
    {later : MetadataState}
    (consumed : ConsumedBy state lease agent binding expectedRevision)
    (follows : state.leases.Follows later.leases) :
    ConsumedBy later lease agent binding expectedRevision := by
  obtain ⟨record, found, owner, committed⟩ := consumed
  exact ⟨record,
    follows.committed lease record found (by simp [committed]),
    owner, committed⟩

/-- A consumed lease is neither cancelled nor expired. -/
theorem ConsumedBy.terminal
    (consumed : ConsumedBy state lease agent binding expectedRevision)
    (wellFormed : state.leases.WellFormed bindingKey) :
    lease ∉ state.leases.cancelled ∧ state.leases.isExpired lease = false := by
  obtain ⟨record, found, -, committed⟩ := consumed
  have notUncommitted : ¬ state.leases.Uncommitted lease := by
    rintro ⟨other, otherFound, uncommitted⟩
    rw [found] at otherFound
    cases otherFound
    simp [committed] at uncommitted
  constructor
  · exact fun cancelled =>
      notUncommitted (wellFormed.cancelledValid lease cancelled)
  · by_contra due
    exact notUncommitted
      (LeaseState.isExpired_iff.mp (by simpa using due)).1

/-- The exact retry of a consumed commit validates as an acknowledgement. -/
theorem ConsumedBy.validateRetry
    (consumed : ConsumedBy state lease agent binding expectedRevision)
    (wellFormed : state.leases.WellFormed bindingKey) :
    validateCommit bindingKey state lease agent binding expectedRevision =
      .ok false := by
  obtain ⟨notCancelled, notExpired⟩ := consumed.terminal wellFormed
  obtain ⟨record, found, owner, committed⟩ := consumed
  obtain ⟨valid, sameBlocks, -⟩ :=
    (wellFormed.recordValid lease record found).commitValid _ committed
  have reserved : record.blocks = binding.blocks := sameBlocks.symm
  simp [validateCommit, valid, found, owner, reserved, notCancelled,
    notExpired, committed]

/-- Any other commit of a consumed lease fails validation. -/
theorem ConsumedBy.validateOther
    (bindingKey : CacheKey → String)
    (consumed : ConsumedBy state lease agent binding expectedRevision)
    {otherAgent : AgentId}
    {otherBinding : ChainBinding}
    {otherRevision : UInt64}
    (different :
      (otherAgent, otherBinding, otherRevision) ≠
        (agent, binding, expectedRevision)) :
    ∃ message,
      validateCommit bindingKey state lease otherAgent otherBinding
        otherRevision = .error message := by
  obtain ⟨record, found, owner, committed⟩ := consumed
  cases validated : validateCommit bindingKey state lease otherAgent
      otherBinding otherRevision with
  | error message =>
      exact ⟨message, rfl⟩
  | ok applies =>
      cases applies with
      | true =>
          obtain ⟨other, guards⟩ :=
            (validateCommit_eq_ok_true_iff bindingKey state).mp validated
          have otherFound := guards.found
          rw [found] at otherFound
          cases otherFound
          have uncommitted := guards.uncommitted
          simp [committed] at uncommitted
      | false =>
          obtain ⟨other, otherFound, otherOwner, otherCommitted⟩ :=
            validateCommit_eq_ok_false validated
          rw [found] at otherFound
          cases otherFound
          rw [committed] at otherCommitted
          cases otherCommitted
          exact absurd (by rw [← owner, ← otherOwner]) different

/-- The fence gate never refuses the retry of a consumed commit. -/
theorem ConsumedBy.retryFits
    (consumed : ConsumedBy state lease agent binding expectedRevision)
    (consistent : state.Consistent bindingKey)
    (cover : FencesCover state) :
    fencesExhausted state
        (touchedBlocks bindingKey state
          (.commitUploadLease lease agent binding expectedRevision)) =
      false := by
  obtain ⟨record, found, -, committed⟩ := consumed
  obtain ⟨-, sameBlocks, -⟩ :=
    (consistent.leases.recordValid lease record found).commitValid _
      committed
  refine fencesExhausted_of_covered consistent.fencesBounded ?_
  intro block touched
  apply cover
  rcases mem_touchBinding.mp touched with none | inLink | ⟨old, bound, inOld⟩
  · simp at none
  · exact Or.inr ⟨lease, record, found, sameBlocks ▸ inLink⟩
  · refine Or.inl (FiniteMap.total_pos_iff.mpr ⟨_, old, bound, ?_⟩)
    exact List.count_pos_iff.mpr inOld

/-- The exact retry is acknowledged and moves nothing but fences. -/
theorem ConsumedBy.applyRetry
    (consumed : ConsumedBy state lease agent binding expectedRevision)
    (consistent : state.Consistent bindingKey)
    (cover : FencesCover state) :
    applyOne bindingKey state
        (.commitUploadLease lease agent binding expectedRevision) =
      (fenceBlocks state
          (touchedBlocks bindingKey state
            (.commitUploadLease lease agent binding expectedRevision)),
        .bound) := by
  have fits := consumed.retryFits consistent cover
  have validated := consumed.validateRetry consistent.leases
  simp [applyOne, fits, applyUnfenced, validated, Response.isRejected]

/-- What is refused before fencing is refused by the whole request. -/
theorem applyOne_refuses
    {request : Request}
    (refused :
      (applyUnfenced bindingKey state request).2.isRejected = true) :
    (applyOne bindingKey state request).2.isRejected = true := by
  unfold applyOne
  simp only [refused, if_true]
  split
  · rfl
  · exact refused

/-- Every other request about a consumed lease is refused. -/
theorem ConsumedBy.applyOther
    (consumed : ConsumedBy state lease agent binding expectedRevision)
    (wellFormed : state.leases.WellFormed bindingKey) :
    (∀ otherAgent otherBinding otherRevision,
      (otherAgent, otherBinding, otherRevision) ≠
        (agent, binding, expectedRevision) →
      (applyOne bindingKey state
        (.commitUploadLease lease otherAgent otherBinding
          otherRevision)).2.isRejected = true) ∧
    (∀ otherAgent,
      (applyOne bindingKey state
        (.cancelUploadLease lease otherAgent)).2.isRejected = true) ∧
    (∀ otherAgent generation ttl,
      (applyOne bindingKey state
        (.renewUploadLease lease otherAgent generation
          ttl)).2.isRejected = true) ∧
    (∀ generation deadlineTick,
      (applyOne bindingKey state
        (.expireUploadLease lease generation
          deadlineTick)).2.isRejected = true) := by
  obtain ⟨notCancelled, notExpired⟩ := consumed.terminal wellFormed
  refine ⟨?_, ?_, ?_, ?_⟩
  · intro otherAgent otherBinding otherRevision different
    obtain ⟨message, refused⟩ :=
      consumed.validateOther bindingKey different
    refine applyOne_refuses ?_
    simp [applyUnfenced, refused, Response.isRejected]
  · intro otherAgent
    obtain ⟨record, found, -, committed⟩ := consumed
    refine applyOne_refuses ?_
    simp only [applyUnfenced, cancel, found, committed]
    split <;> rfl
  · intro otherAgent generation ttl
    obtain ⟨record, found, -, committed⟩ := consumed
    refine applyOne_refuses ?_
    simp [applyUnfenced, renew, found, committed, Response.isRejected]
  · intro generation deadlineTick
    refine applyOne_refuses ?_
    simp [applyUnfenced, expire, notExpired, Response.isRejected]

end Consumed

section ConsumedRuns

variable {bindingKey : CacheKey → String} {entries : List Entry}
  {position : Nat} {entry : Entry} {lease : BlockId} {agent : AgentId}
  {binding : ChainBinding} {expectedRevision : UInt64}

/-- After its first commit a lease stays consumed by it. -/
theorem FirstCommit.consumedLater
    (present : entries[position]? = some entry)
    (first :
      FirstCommit bindingKey (stateAt bindingKey {} entries position) entry
        lease agent binding expectedRevision)
    {later : Nat}
    (ordered : position < later) :
    ConsumedBy (stateAt bindingKey {} entries later) lease agent binding
      expectedRevision := by
  have consumed := first.consumes
  rw [← stateAt_succ present] at consumed
  refine consumed.follows ?_
  exact stateAt_related .empty
    (fun earlier later => earlier.leases.Follows later.leases)
    (fun _ => .refl _) (fun _ _ _ => .trans)
    (fun _ entry consistent => stepEntry_follows consistent entry) ordered

/-- A lease is committed for the first time at most once. -/
theorem FirstCommit.position_unique
    {otherPosition : Nat}
    {otherEntry : Entry}
    {otherAgent : AgentId}
    {otherBinding : ChainBinding}
    {otherRevision : UInt64}
    (present : entries[position]? = some entry)
    (first :
      FirstCommit bindingKey (stateAt bindingKey {} entries position) entry
        lease agent binding expectedRevision)
    (otherPresent : entries[otherPosition]? = some otherEntry)
    (otherFirst :
      FirstCommit bindingKey (stateAt bindingKey {} entries otherPosition)
        otherEntry lease otherAgent otherBinding otherRevision) :
    position = otherPosition := by
  rcases Nat.lt_trichotomy position otherPosition with
    isEarlier | same | isLater
  · obtain ⟨record, found, -, committed⟩ :=
      first.consumedLater present isEarlier
    have unconsumed := otherFirst.unconsumed record found
    simp [committed] at unconsumed
  · exact same
  · obtain ⟨record, found, -, committed⟩ :=
      otherFirst.consumedLater otherPresent isLater
    have unconsumed := first.unconsumed record found
    simp [committed] at unconsumed

/-- A commit entry that changes bindings is the first commit of its lease. -/
theorem firstCommit_of_bindings_changed
    {state : MetadataState}
    (dormant : state.leases.Dormant)
    (requested :
      entry.payload =
        .normal (.commitUploadLease lease agent binding expectedRevision))
    (changed : (stepEntry bindingKey state entry).bindings ≠ state.bindings) :
    FirstCommit bindingKey state entry lease agent binding
      expectedRevision := by
  have same := (applyEntry_sameBindings bindingKey dormant entry).bindings
  cases applied : appliedLinks bindingKey state entry with
  | none =>
      rw [applied] at same
      exact absurd same changed
  | some agentLinks =>
      simp only [appliedLinks, requested] at applied
      split at applied
      · cases applied
      rename_i accepted
      have accepted :
          (applyEntry bindingKey state entry).2.isRejected = false := by
        simpa using accepted
      simp only [boundLinks] at applied
      split at applied
      · rename_i validated
        obtain ⟨record, guards⟩ :=
          (validateCommit_eq_ok_true_iff bindingKey state).mp validated
        refine ⟨requested, ?_, ?_⟩
        · simp only [applyEntry, requested] at accepted ⊢
          obtain ⟨-, -, fenced⟩ := applyOne_of_accepted bindingKey
            { state with lastApplied := some entry.logId } accepted
          have stamped :
              validateCommit bindingKey
                  { state with lastApplied := some entry.logId } lease agent
                  binding expectedRevision = .ok true := validated
          rw [fenced]
          simp only [applyUnfenced, stamped]
        · intro other found
          rw [guards.found] at found
          cases found
          exact guards.uncommitted
      · cases applied

end ConsumedRuns

/--
A lease takes effect at most once over every run from the empty state, and
its exact retry is acknowledged forever.  At most one commit entry of a lease
changes the bindings.  In every state after a first commit the identical
request is answered `bound` and changes at most fences, and any other commit,
a cancellation, a renewal or an expiry of the lease is rejected.
-/
theorem lease_takes_effect_once
    (bindingKey : CacheKey → String)
    (entries : List Entry)
    (lease : BlockId) :
    (∀ position otherPosition entry otherEntry agent otherAgent binding
        otherBinding expectedRevision otherRevision,
      entries[position]? = some entry →
      entries[otherPosition]? = some otherEntry →
      entry.payload =
        .normal (.commitUploadLease lease agent binding expectedRevision) →
      otherEntry.payload =
        .normal (.commitUploadLease lease otherAgent otherBinding
          otherRevision) →
      (stateAt bindingKey {} entries (position + 1)).bindings ≠
        (stateAt bindingKey {} entries position).bindings →
      (stateAt bindingKey {} entries (otherPosition + 1)).bindings ≠
        (stateAt bindingKey {} entries otherPosition).bindings →
      position = otherPosition) ∧
    (∀ position entry agent binding expectedRevision,
      entries[position]? = some entry →
      FirstCommit bindingKey (stateAt bindingKey {} entries position) entry
        lease agent binding expectedRevision →
      ∀ later logId, position < later →
        let state := stateAt bindingKey {} entries later
        let reply := fun request =>
          applyEntry bindingKey state ⟨logId, .normal request⟩
        let retry :=
          reply (.commitUploadLease lease agent binding expectedRevision)
        retry.2 = .bound ∧
        retry.1.bindings = state.bindings ∧
        retry.1.blockRefs = state.blockRefs ∧
        retry.1.children = state.children ∧
        retry.1.leases = state.leases ∧
        retry.1.replicaRequirements = state.replicaRequirements ∧
        (∀ otherAgent otherBinding otherRevision,
          (otherAgent, otherBinding, otherRevision) ≠
            (agent, binding, expectedRevision) →
          (reply (.commitUploadLease lease otherAgent otherBinding
            otherRevision)).2.isRejected = true) ∧
        (∀ otherAgent,
          (reply (.cancelUploadLease lease otherAgent)).2.isRejected =
            true) ∧
        (∀ otherAgent generation ttl,
          (reply (.renewUploadLease lease otherAgent generation
            ttl)).2.isRejected = true) ∧
        (∀ generation deadlineTick,
          (reply (.expireUploadLease lease generation
            deadlineTick)).2.isRejected = true)) := by
  have consistent :
      ∀ position,
        (stateAt bindingKey {} entries position).Consistent bindingKey :=
    fun _ => stateAt_consistent .empty _
  constructor
  · intro position otherPosition entry otherEntry agent otherAgent binding
      otherBinding expectedRevision otherRevision present otherPresent
      requested otherRequested changed otherChanged
    rw [stateAt_succ present] at changed
    rw [stateAt_succ otherPresent] at otherChanged
    exact FirstCommit.position_unique present
      (firstCommit_of_bindings_changed
        (consistent position).leases.dormant requested changed)
      otherPresent
      (firstCommit_of_bindings_changed
        (consistent otherPosition).leases.dormant otherRequested
        otherChanged)
  · intro position entry agent binding expectedRevision present first later
      logId ordered state reply retry
    have consumed : ConsumedBy { state with lastApplied := some logId } lease
        agent binding expectedRevision :=
      first.consumedLater present ordered
    have stamped :
        MetadataState.Consistent bindingKey
          { state with lastApplied := some logId } :=
      (consistent later).stamped _ _
    have cover : FencesCover { state with lastApplied := some logId } :=
      stateAt_fencesCover bindingKey entries later
    have retried :
        retry =
          (fenceBlocks { state with lastApplied := some logId }
              (touchedBlocks bindingKey
                { state with lastApplied := some logId }
                (.commitUploadLease lease agent binding expectedRevision)),
            .bound) :=
      consumed.applyRetry stamped cover
    have others := consumed.applyOther stamped.leases
    rw [retried]
    exact ⟨rfl, rfl, rfl, rfl, rfl, rfl, others⟩

/-- The commit of the sample log is sent again, as it was and changed. -/
theorem lease_takes_effect_once_retried :
    let state := stateAt serdeBindingKey {} leaseLog 4
    let reply := fun request =>
      applyEntry serdeBindingKey state ⟨⟨⟨1, 1⟩, 5⟩, .normal request⟩
    let commit := fun revision =>
      reply (.commitUploadLease (.filled 9) (.filled 1) sampleBinding revision)
    state.bindings ≠ (stateAt serdeBindingKey {} leaseLog 3).bindings ∧
      (commit 0).2 = .bound ∧
      (commit 0).1.bindings = state.bindings ∧
      (commit 1).2.isRejected = true ∧
      (reply (.cancelUploadLease (.filled 9) (.filled 1))).2.isRejected =
        true := by
  dsimp only
  have bindings :
      (stateAt serdeBindingKey {} leaseLog 4).bindings.size = 1 ∧
        (stateAt serdeBindingKey {} leaseLog 3).bindings.size = 0 := by
    decide +kernel
  obtain ⟨one, none⟩ := bindings
  obtain ⟨bound, same, -, -, -, -, others, cancels, -⟩ :=
    (lease_takes_effect_once serdeBindingKey leaseLog (.filled 9)).2 3 _
      (.filled 1) sampleBinding 0 rfl leaseLog_firstCommit 4 ⟨⟨1, 1⟩, 5⟩
      (by decide)
  dsimp only at same
  refine ⟨?_, bound, same, others _ sampleBinding 1 (by simp),
    cancels (.filled 1)⟩
  intro unchanged
  rw [unchanged, none] at one
  exact Nat.zero_ne_one one

end KalpakDb
