import KalpakDb.MetadataRun

namespace KalpakDb

/-!
# The life of an upload lease

A lease is pending, committed, cancelled or expired.  A lease that has left
the pending phase never changes phase again, and its identity is fixed from
the start.  Both status reports, the totals over all leases and the evidence
about one block, count the same classification.
-/

open Std (ExtTreeMap)
open MachineWord

inductive LeasePhase where
  | pending
  | committed
  | cancelled
  | expired
  deriving DecidableEq

namespace LeaseState

/-- What it means for a recorded lease to be in each phase. -/
def InPhase (leases : LeaseState) (id : BlockId) : LeasePhase → Prop
  | .pending =>
      leases.Uncommitted id ∧ id ∉ leases.cancelled ∧
        leases.isExpired id = false
  | .committed =>
      ∃ record,
        leases.records[id]? = some record ∧ record.committed.isSome
  | .cancelled => id ∈ leases.cancelled
  | .expired => leases.isExpired id = true

/-- The branch an evidence report takes for one lease. -/
def classifyLease
    (leases : LeaseState)
    (id : BlockId)
    (lease : UploadLease) : LeasePhase :=
  if lease.committed.isSome then
    .committed
  else if leases.cancelled.contains id then
    .cancelled
  else if leases.isExpired id then
    .expired
  else
    .pending

end LeaseState

/-! ## Evidence about one block -/

structure LeasePhaseCounts where
  pending : Nat := 0
  committed : Nat := 0
  cancelled : Nat := 0
  expired : Nat := 0
  deriving DecidableEq

namespace LeasePhaseCounts

def count (counts : LeasePhaseCounts) : LeasePhase → LeasePhaseCounts
  | .pending => { counts with pending := counts.pending + 1 }
  | .committed => { counts with committed := counts.committed + 1 }
  | .cancelled => { counts with cancelled := counts.cancelled + 1 }
  | .expired => { counts with expired := counts.expired + 1 }

def of (counts : LeasePhaseCounts) : LeasePhase → Nat
  | .pending => counts.pending
  | .committed => counts.committed
  | .cancelled => counts.cancelled
  | .expired => counts.expired

theorem of_count
    (counts : LeasePhaseCounts)
    (counted phase : LeasePhase) :
    (counts.count counted).of phase =
      counts.of phase + if counted = phase then 1 else 0 := by
  cases counted <;> cases phase <;> rfl

end LeasePhaseCounts

/-- One local metadata observation about a block. -/
structure ReclamationEvidence where
  lastApplied : Option LogId
  logicalTick : UInt64
  blockReferenceFence : Option UInt64
  bindingReferences : UInt32
  requiredReplicas : UInt64
  leases : LeasePhaseCounts
  deriving DecidableEq

def reclamationEvidence
    (state : MetadataState)
    (id : BlockId) : ReclamationEvidence where
  lastApplied := state.lastApplied
  logicalTick := state.leases.clock
  blockReferenceFence := state.blockFences[id]?
  bindingReferences := state.blockRefs[id]?.getD 0
  requiredReplicas := state.replicaRequirements[id]?.getD 0
  leases :=
    state.leases.records.toList.foldl
      (fun counts entry =>
        if !entry.2.blocks.contains id then
          counts
        else
          counts.count (state.leases.classifyLease entry.1 entry.2))
      {}

/-- The number of leases of one phase among those selected by a test. -/
def LeaseState.countPhase
    (leases : LeaseState)
    (selected : UploadLease → Bool)
    (phase : LeasePhase) : Nat :=
  leases.records.toList.countP fun entry =>
    selected entry.2 && leases.classifyLease entry.1 entry.2 = phase

/-- The evidence report counts the leases reserving the block, by phase. -/
theorem reclamationEvidence_of
    (state : MetadataState)
    (id : BlockId)
    (phase : LeasePhase) :
    (reclamationEvidence state id).leases.of phase =
      state.leases.countPhase (fun lease => lease.blocks.contains id)
        phase := by
  have accumulated :
      ∀ (entries : List (BlockId × UploadLease))
        (counts : LeasePhaseCounts),
        (entries.foldl
            (fun counts entry =>
              if !entry.2.blocks.contains id then
                counts
              else
                counts.count (state.leases.classifyLease entry.1 entry.2))
            counts).of phase =
          counts.of phase +
            entries.countP fun entry =>
              entry.2.blocks.contains id &&
                state.leases.classifyLease entry.1 entry.2 = phase := by
    intro entries
    induction entries with
    | nil =>
        intro counts
        rfl
    | cons entry rest inductionHypothesis =>
        intro counts
        rw [List.foldl_cons, inductionHypothesis, List.countP_cons]
        cases reserves : entry.2.blocks.contains id with
        | false =>
            simp
        | true =>
            simp [LeasePhaseCounts.of_count]
            omega
  have whole := accumulated state.leases.records.toList {}
  have zero : LeasePhaseCounts.of {} phase = 0 := by
    cases phase <;> rfl
  rw [zero, Nat.zero_add] at whole
  exact whole

/-! ## Every lease is in exactly one phase -/

namespace LeaseState

variable {bindingKey : CacheKey → String} {leases : LeaseState}
  {id : BlockId} {record : UploadLease}

/-- A lease is in a phase exactly when the reports classify it so. -/
theorem inPhase_iff_classifyLease
    (wellFormed : leases.WellFormed bindingKey)
    (found : leases.records[id]? = some record)
    (phase : LeasePhase) :
    leases.InPhase id phase ↔ leases.classifyLease id record = phase := by
  have uncommitted :
      leases.Uncommitted id ↔ record.committed = none := by
    simp [Uncommitted, found]
  have cancelledOnly :
      id ∈ leases.cancelled → record.committed = none :=
    fun cancelled => uncommitted.mp (wellFormed.cancelledValid id cancelled)
  have expiredOnly :
      leases.isExpired id = true →
        record.committed = none ∧ id ∉ leases.cancelled := by
    intro due
    obtain ⟨pending, notCancelled, -⟩ := isExpired_iff.mp due
    exact ⟨uncommitted.mp pending, notCancelled⟩
  unfold classifyLease
  simp only [ExtTreeMap.contains_iff_mem]
  cases committed : record.committed with
  | some commit =>
      have notCancelled : id ∉ leases.cancelled := by
        intro cancelled
        simp [committed] at cancelledOnly
        exact cancelledOnly cancelled
      have notExpired : leases.isExpired id = false := by
        by_contra due
        simp [committed] at expiredOnly
        simp [expiredOnly] at due
      cases phase <;>
        simp [InPhase, uncommitted, found, committed, notCancelled,
          notExpired]
  | none =>
      by_cases cancelled : id ∈ leases.cancelled
      · have notExpired : leases.isExpired id = false := by
          by_contra due
          exact (expiredOnly (by simpa using due)).2 cancelled
        cases phase <;>
          simp [InPhase, found, committed, cancelled, notExpired]
      · cases due : leases.isExpired id with
        | true =>
            cases phase <;>
              simp [InPhase, found, committed, cancelled, due]
        | false =>
            cases phase <;>
              simp [InPhase, uncommitted, found, committed, cancelled, due]

theorem existsUnique_phase
    (wellFormed : leases.WellFormed bindingKey)
    (known : id ∈ leases.records) :
    ∃! phase, leases.InPhase id phase := by
  obtain ⟨record, found⟩ := Option.isSome_iff_exists.mp
    (ExtTreeMap.mem_iff_isSome_getElem?.mp known)
  refine ⟨leases.classifyLease id record, ?_, ?_⟩
  · exact (inPhase_iff_classifyLease wellFormed found _).mpr rfl
  · intro phase inPhase
    exact ((inPhase_iff_classifyLease wellFormed found phase).mp
      inPhase).symm

/-! ## The status totals -/

/-- Counting by any test that decides a phase counts that phase. -/
theorem countPhase_eq_countP
    (wellFormed : leases.WellFormed bindingKey)
    {phase : LeasePhase}
    {test : BlockId × UploadLease → Bool}
    (decides :
      ∀ id record, leases.records[id]? = some record →
        (test (id, record) = true ↔ leases.InPhase id phase)) :
    leases.records.toList.countP test =
      leases.countPhase (fun _ => true) phase := by
  unfold countPhase
  apply List.countP_congr
  rintro ⟨id, record⟩ member
  have found := FiniteMap.mem_toList.mp member
  rw [decides id record found,
    inPhase_iff_classifyLease wellFormed found]
  simp

/-- The phases partition the records. -/
theorem sum_countPhase (leases : LeaseState) :
    leases.countPhase (fun _ => true) .pending +
        leases.countPhase (fun _ => true) .committed +
        leases.countPhase (fun _ => true) .cancelled +
        leases.countPhase (fun _ => true) .expired =
      leases.records.size := by
  rw [← ExtTreeMap.length_toList]
  unfold countPhase
  induction leases.records.toList with
  | nil =>
      rfl
  | cons entry rest inductionHypothesis =>
      simp only [Bool.true_and, List.countP_cons, List.length_cons]
        at inductionHypothesis ⊢
      cases leases.classifyLease entry.1 entry.2 <;>
        simp <;> omega

/-- The totals never underflow, and count the phases of all leases. -/
theorem statusCounts_eq
    (wellFormed : leases.WellFormed bindingKey) :
    leases.statusCounts =
      some {
        total := leases.records.size
        pending := leases.countPhase (fun _ => true) .pending
        committed := leases.countPhase (fun _ => true) .committed
        cancelled := leases.countPhase (fun _ => true) .cancelled
        expired := leases.countPhase (fun _ => true) .expired
        currentTick := leases.clock
        expiryMarkers := leases.expired.size } := by
  have committed :
      ((FiniteMap.values leases.records).filter
          fun lease => lease.committed.isSome).length =
        leases.countPhase (fun _ => true) .committed := by
    rw [← List.countP_eq_length_filter, FiniteMap.values, List.countP_map]
    apply countPhase_eq_countP wellFormed
    intro id record found
    simp [InPhase, found]
  have expired :
      (leases.records.keys.filter leases.isExpired).length =
        leases.countPhase (fun _ => true) .expired := by
    rw [← List.countP_eq_length_filter,
      ← ExtTreeMap.map_fst_toList_eq_keys, List.countP_map]
    apply countPhase_eq_countP wellFormed
    intro id record found
    rfl
  have cancelledKnown : ∀ id, id ∈ leases.cancelled → id ∈ leases.records := by
    intro id cancelled
    obtain ⟨record, found, -⟩ := wellFormed.cancelledValid id cancelled
    exact ExtTreeMap.mem_iff_isSome_getElem?.mpr
      (Option.isSome_of_eq_some found)
  have cancelled :
      leases.cancelled.size =
        leases.countPhase (fun _ => true) .cancelled := by
    rw [FiniteMap.size_eq_length_filter_of_subset cancelledKnown,
      ← List.countP_eq_length_filter,
      ← ExtTreeMap.map_fst_toList_eq_keys, List.countP_map]
    apply countPhase_eq_countP wellFormed
    intro id record found
    exact ExtTreeMap.contains_iff_mem
  have partitioned := leases.sum_countPhase
  unfold statusCounts
  simp only [committed, expired, cancelled]
  rw [checkedSizeSub_of_le (by omega)]
  simp only [Option.bind_eq_bind, Option.bind_some]
  rw [checkedSizeSub_of_le (by omega)]
  simp only [Option.bind_some]
  rw [checkedSizeSub_of_le (by omega)]
  simp only [Option.bind_some, Option.pure_def, Option.some.injEq,
    LeaseStatusCounts.mk.injEq, and_true, true_and]
  omega

end LeaseState

/-! ## Later states keep what a lease has become -/

/-- The later lease table preserves identities and terminal phases. -/
structure LeaseState.Follows (earlier later : LeaseState) : Prop where
  identity :
    ∀ (id : BlockId) (record : UploadLease),
      earlier.records[id]? = some record →
      ∃ kept : UploadLease, later.records[id]? = some kept ∧
        kept.agent = record.agent ∧ kept.blocks = record.blocks ∧
        kept.createdAt = record.createdAt
  committed :
    ∀ (id : BlockId) (record : UploadLease),
      earlier.records[id]? = some record →
      record.committed.isSome →
      later.records[id]? = some record
  cancelled : ∀ id, id ∈ earlier.cancelled → id ∈ later.cancelled
  expired :
    ∀ id, earlier.isExpired id = true → later.isExpired id = true

namespace LeaseState.Follows

variable {bindingKey : CacheKey → String}
  {earlier middle later leases : LeaseState}

theorem refl (leases : LeaseState) : leases.Follows leases where
  identity := fun _ record found => ⟨record, found, rfl, rfl, rfl⟩
  committed := fun _ _ found _ => found
  cancelled := fun _ => id
  expired := fun _ => id

theorem trans
    (first : earlier.Follows middle)
    (second : middle.Follows later) :
    earlier.Follows later where
  identity := by
    intro id record found
    obtain ⟨kept, keptFound, agent, blocks, created⟩ :=
      first.identity id record found
    obtain ⟨last, lastFound, lastAgent, lastBlocks, lastCreated⟩ :=
      second.identity id kept keptFound
    exact ⟨last, lastFound, lastAgent.trans agent, lastBlocks.trans blocks,
      lastCreated.trans created⟩
  committed := by
    intro id record found committed
    exact second.committed id record
      (first.committed id record found committed) committed
  cancelled := fun id member => second.cancelled id (first.cancelled id member)
  expired := fun id due => second.expired id (first.expired id due)

/-- A terminal phase is permanent. -/
theorem inPhase
    (follows : earlier.Follows later)
    {id : BlockId}
    {phase : LeasePhase}
    (terminal : phase ≠ .pending)
    (inPhase : earlier.InPhase id phase) :
    later.InPhase id phase := by
  cases phase with
  | pending =>
      exact absurd rfl terminal
  | committed =>
      obtain ⟨record, found, committed⟩ := inPhase
      exact ⟨record, follows.committed id record found committed, committed⟩
  | cancelled =>
      exact follows.cancelled id inPhase
  | expired =>
      exact follows.expired id inPhase

/-- When records are kept, expiry survives as long as its evidence does. -/
theorem of_sameRecords
    (sameRecords : later.records = earlier.records)
    (cancelled : ∀ id, id ∈ earlier.cancelled → id ∈ later.cancelled)
    (notCancelled :
      ∀ id, earlier.isExpired id = true → id ∈ later.cancelled →
        id ∈ earlier.cancelled)
    (evidence :
      ∀ id, earlier.isExpired id = true →
        id ∈ earlier.expired ∨ earlier.PastDeadline id →
        id ∈ later.expired ∨ later.PastDeadline id) :
    earlier.Follows later where
  identity := by
    intro id record found
    exact ⟨record, sameRecords ▸ found, rfl, rfl, rfl⟩
  committed := fun _ _ found _ => sameRecords ▸ found
  cancelled := cancelled
  expired := by
    intro id due
    obtain ⟨pending, uncancelled, marked⟩ := isExpired_iff.mp due
    refine isExpired_iff.mpr ⟨?_, ?_, evidence id due marked⟩
    · unfold Uncommitted
      rw [sameRecords]
      exact pending
    · exact fun member => uncancelled (notCancelled id due member)

/-- Overwriting one record with an equal identity loses nothing. -/
theorem of_recordInserted
    {id : BlockId}
    {record : UploadLease}
    (identityKept :
      ∀ old : UploadLease, leases.records[id]? = some old →
        record.agent = old.agent ∧ record.blocks = old.blocks ∧
          record.createdAt = old.createdAt ∧ old.committed = none)
    (notExpired : leases.isExpired id = false) :
    leases.Follows
      { leases with records := leases.records.insert id record } where
  identity := by
    intro other old found
    by_cases same : id = other
    · subst other
      obtain ⟨agent, blocks, created, -⟩ := identityKept old found
      exact ⟨record, by simp, agent, blocks, created⟩
    · exact ⟨old, by simp [ExtTreeMap.getElem?_insert, same, found],
        rfl, rfl, rfl⟩
  committed := by
    intro other old found committed
    by_cases same : id = other
    · subst other
      obtain ⟨-, -, -, uncommitted⟩ := identityKept old found
      simp [uncommitted] at committed
    · simp [ExtTreeMap.getElem?_insert, same, found]
  cancelled := fun _ member => member
  expired := by
    intro other due
    have different : id ≠ other := by
      rintro rfl
      simp [due] at notExpired
    obtain ⟨⟨old, found, pending⟩, uncancelled, marked⟩ :=
      isExpired_iff.mp due
    exact isExpired_iff.mpr
      ⟨⟨old, by simp [ExtTreeMap.getElem?_insert, different, found],
        pending⟩, uncancelled, marked⟩

/-- Changing activation and revisions only keeps every lease as it is. -/
theorem of_revisionsChanged
    (active : Bool)
    (revisions : ExtTreeMap String UInt64) :
    leases.Follows
      { leases with
        initialized := active
        revisions := revisions } :=
  of_sameRecords rfl (fun _ => id) (fun _ _ => id) (fun _ _ => id)

end LeaseState.Follows

section Runs

variable {bindingKey : CacheKey → String} {state next : MetadataState}
  {request : Request} {response : Response}

theorem bindAll_follows
    (agent : AgentId)
    (links : List ChainBinding) :
    state.leases.Follows (bindAll bindingKey state agent links).leases := by
  rw [bindAll_frame, LeaseState.bumpRevisions_frame]
  exact .of_revisionsChanged _ _

/-- No transition removes a lease, renames it or ends a terminal phase. -/
theorem transition_follows
    (step : Transition bindingKey state request next response) :
    state.leases.Follows next.leases := by
  cases step with
  | refused =>
      exact .refl _
  | acknowledged =>
      exact .refl _
  | @reserved lease agent blocks owner nonempty bounded fresh =>
      obtain ⟨revisions, shape⟩ := activateLeases_frame state
      rw [shape]
      have activated :
          state.leases.Follows
            { state.leases with
              initialized := true
              revisions := revisions } :=
        .of_revisionsChanged _ _
      refine activated.trans (.of_recordInserted ?_ ?_)
      · intro old found
        simp [fresh] at found
      · by_contra due
        obtain ⟨⟨old, found, -⟩, -⟩ :=
          LeaseState.isExpired_iff.mp (by simpa using due)
        simp [fresh] at found
  | @committed lease agent binding expectedRevision record guards =>
      have sameLeases :
          (bindAll bindingKey state agent [binding]).leases =
            { state.leases with
              revisions :=
                (bindAll bindingKey state agent
                  [binding]).leases.revisions } := by
        rw [bindAll_frame, LeaseState.bumpRevisions_frame]
      have foundAfter :
          (bindAll bindingKey state agent [binding]).leases.records[lease]? =
            some record := by
        rw [sameLeases]
        exact guards.found
      rw [bindOne_eq_bindAll, recordCommit_eq_insert foundAfter]
      refine (bindAll_follows agent [binding]).trans
        (.of_recordInserted ?_ ?_)
      · intro old oldFound
        rw [foundAfter] at oldFound
        cases oldFound
        exact ⟨rfl, rfl, rfl, guards.uncommitted⟩
      · rw [sameLeases]
        exact guards.notExpired
  | @cancelled lease agent record found owner uncommitted notExpired =>
      refine .of_sameRecords rfl ?_ ?_ (fun _ _ => id)
      · intro id member
        exact ExtTreeMap.mem_insertIfNew.mpr (Or.inr member)
      · intro id due member
        rcases ExtTreeMap.mem_insertIfNew.mp member with same | earlier
        · have same := Std.LawfulEqOrd.eq_of_compare same
          subst same
          simp [due] at notExpired
        · exact earlier
  | @renewed lease agent expected ttl deadlineTick record found owner
      uncommitted notCancelled notExpired =>
      refine .of_sameRecords rfl (fun _ => id) (fun _ _ => id) ?_
      intro id due marked
      refine marked.imp_right ?_
      rintro ⟨deadline, deadlineFound, past⟩
      have different : lease ≠ id := by
        rintro rfl
        simp [due] at notExpired
      exact ⟨deadline,
        by simp [ExtTreeMap.getElem?_insert, different, deadlineFound],
        past⟩
  | advanced ticked =>
      refine .of_sameRecords rfl (fun _ => id) (fun _ _ => id) ?_
      intro id due marked
      refine marked.imp_right ?_
      rintro ⟨deadline, found, past⟩
      exact ⟨deadline, found,
        UInt64.le_trans past (le_of_checkedAdd ticked)⟩
  | expired due found =>
      refine .of_sameRecords rfl (fun _ => id) (fun _ _ => id) ?_
      intro id _ marked
      refine marked.imp_left ?_
      intro member
      exact ExtTreeMap.mem_insertIfNew.mpr (Or.inr member)
  | required =>
      exact .refl _
  | registered =>
      exact .refl _
  | chained agent bindings =>
      exact bindAll_follows agent bindings
  | bound agent link =>
      exact bindAll_follows agent [link]

theorem stepEntry_follows
    (consistent : state.Consistent bindingKey)
    (entry : Entry) :
    state.leases.Follows (stepEntry bindingKey state entry).leases := by
  refine applyEntry_preserves bindingKey state
    (fun next => state.leases.Follows next.leases) ?_
    consistent.leases.dormant ?_ ?_
  · exact .refl _
  · intro membership
    exact .refl _
  · intro request next response _ _ step _
    have follows := transition_follows step
    exact follows

/-- Along a run, later states keep what each lease has become. -/
theorem runFrom_follows
    (consistent : state.Consistent bindingKey)
    (entries : List Entry) :
    state.leases.Follows (runFrom bindingKey state entries).leases := by
  induction entries generalizing state with
  | nil =>
      exact .refl _
  | cons entry rest inductionHypothesis =>
      exact (stepEntry_follows consistent entry).trans
        (inductionHypothesis (consistent.applyEntry entry))

end Runs

/--
The upload-lease lifecycle over every run from the empty state: each recorded
lease is in exactly one phase, which is the one the evidence report uses; a
terminal phase and the identity of a lease survive any further entries; and
the status totals never underflow, count exactly the leases of each phase and
add up to the number of leases.
-/
theorem lease_lifecycle
    (bindingKey : CacheKey → String)
    (entries more : List Entry) :
    let leases := (runFrom bindingKey {} entries).leases
    let later := (runFrom bindingKey {} (entries ++ more)).leases
    (∀ id, id ∈ leases.records → ∃! phase, leases.InPhase id phase) ∧
    (∀ id phase, phase ≠ .pending →
      leases.InPhase id phase → later.InPhase id phase) ∧
    (∀ (id : BlockId) (record : UploadLease),
      leases.records[id]? = some record →
      ∃ kept : UploadLease, later.records[id]? = some kept ∧
        kept.agent = record.agent ∧ kept.blocks = record.blocks ∧
        kept.createdAt = record.createdAt) ∧
    (∃ counts,
      leases.statusCounts = some counts ∧
      counts.pending + counts.committed + counts.cancelled +
          counts.expired = counts.total ∧
      counts.total = leases.records.size ∧
      counts.pending = leases.countPhase (fun _ => true) .pending ∧
      counts.committed = leases.countPhase (fun _ => true) .committed ∧
      counts.cancelled = leases.countPhase (fun _ => true) .cancelled ∧
      counts.expired = leases.countPhase (fun _ => true) .expired) ∧
    (∀ (id : BlockId) (record : UploadLease) (phase : LeasePhase),
      leases.records[id]? = some record →
      (leases.InPhase id phase ↔
        leases.classifyLease id record = phase)) ∧
    (∀ (block : BlockId) (phase : LeasePhase),
      (reclamationEvidence (runFrom bindingKey {} entries)
          block).leases.of phase =
        leases.countPhase (fun lease => lease.blocks.contains block)
          phase) := by
  intro leases later
  have consistent : (runFrom bindingKey {} entries).Consistent bindingKey :=
    runFrom_consistent .empty entries
  have follows : leases.Follows later := by
    have laterShape :
        later = (runFrom bindingKey (runFrom bindingKey {} entries)
          more).leases := by
      simp only [later, runFrom, StepRun.after_append]
    rw [laterShape]
    exact runFrom_follows consistent more
  refine ⟨?_, ?_, follows.identity, ?_, ?_, ?_⟩
  · intro id known
    exact LeaseState.existsUnique_phase consistent.leases known
  · intro id phase terminal inPhase
    exact follows.inPhase terminal inPhase
  · exact ⟨_, LeaseState.statusCounts_eq consistent.leases,
      leases.sum_countPhase, rfl, rfl, rfl, rfl, rfl⟩
  · intro id record phase found
    exact LeaseState.inPhase_iff_classifyLease consistent.leases found phase
  · intro block phase
    exact reclamationEvidence_of _ block phase

end KalpakDb
