import KalpakDb.ReplicaAgreement

namespace KalpakDb

/-!
# Recovery from older snapshots

An older layout lacks some fields of the state.  After a log whose requests
never fill those fields, the import loses the block fences and nothing else.
The recovered replica then agrees with one that applied the whole log exactly
as long as the capacity gate treats both alike.
-/

open Std (ExtTreeMap ExtTreeSet)
open MachineWord

/-! ## Logs a layout can represent -/

/-- The layout has a field for every effect of the request. -/
def SnapshotVersion.representsRequest
    (version : SnapshotVersion) : Request → Bool
  | .registerAgent _ _ => true
  | .bindPrefix _ _ _ _ => true
  | .bindChain _ _ => true
  | .requireReplicas _ _ => version != .legacy
  | .beginUploadLease _ _ _ => version != .legacy && version != .v2
  | .commitUploadLease _ _ _ _ => version != .legacy && version != .v2
  | .cancelUploadLease _ _ => version == .v4 || version == .v5
  | .renewUploadLease _ _ _ _ => version == .v5
  | .advanceLeaseClock _ => version == .v5
  | .expireUploadLease _ _ _ => version == .v5

/-- Blank entries and membership changes fit every layout. -/
def SnapshotVersion.represents
    (version : SnapshotVersion) : EntryPayload → Bool
  | .normal request => version.representsRequest request
  | .blank => true
  | .membership _ => true

/-- No deadline was ever issued: all that the clock drives is at rest. -/
structure LeaseState.Untimed (leases : LeaseState) : Prop where
  clock : leases.clock = 0
  deadlines : leases.deadlines = ∅
  expired : leases.expired = ∅

/-- The fields that the layout lacks are empty. -/
def MetadataState.FitsVersion
    (state : MetadataState) : SnapshotVersion → Prop
  | .legacy => state.leases = {} ∧ state.replicaRequirements = ∅
  | .v2 => state.leases = {}
  | .v3 => state.leases.cancelled = ∅ ∧ state.leases.Untimed
  | .v4 => state.leases.Untimed
  | .v5 => True

section Represented

variable {bindingKey : CacheKey → String} {state : MetadataState}
  {version : SnapshotVersion} {next : MetadataState}

/-- All that the import of a fitting state drops is its fences. -/
theorem migrated_of_fits (fits : state.FitsVersion version) :
    state.migrated version = state.withFences ∅ := by
  rcases state with
    ⟨fences, leases, requirements, agents, bindings, children, refs,
      applied, membership⟩
  cases version with
  | legacy =>
      obtain ⟨noLeases, noRequirements⟩ := fits
      simp only at noLeases noRequirements
      rw [noLeases, noRequirements]
      rfl
  | v2 =>
      simp only [MetadataState.FitsVersion] at fits
      rw [fits]
      rfl
  | v3 =>
      rcases leases with
        ⟨initialized, records, revisions, cancelled, clock, deadlines,
          expired⟩
      obtain ⟨noMarks, atRest, noDeadlines, noExpiries⟩ := fits
      simp only at noMarks atRest noDeadlines noExpiries
      rw [noMarks, atRest, noDeadlines, noExpiries]
      rfl
  | v4 =>
      rcases leases with
        ⟨initialized, records, revisions, cancelled, clock, deadlines,
          expired⟩
      obtain ⟨atRest, noDeadlines, noExpiries⟩ := fits
      simp only at atRest noDeadlines noExpiries
      rw [atRest, noDeadlines, noExpiries]
      rfl
  | v5 =>
      rfl

/-- Raised revisions fit every layout: before activation there are none. -/
theorem fits_of_bumped
    (fits : state.FitsVersion version)
    (keys : List String)
    (leases : next.leases = state.leases.bumpRevisions keys)
    (requirements : next.replicaRequirements = state.replicaRequirements) :
    next.FitsVersion version := by
  cases version with
  | legacy =>
      obtain ⟨noLeases, noRequirements⟩ := fits
      refine ⟨?_, requirements.trans noRequirements⟩
      rw [leases, noLeases, LeaseState.bumpRevisions_of_inactive rfl]
  | v2 =>
      simp only [MetadataState.FitsVersion] at fits ⊢
      rw [leases, fits, LeaseState.bumpRevisions_of_inactive rfl]
  | v3 =>
      rw [LeaseState.bumpRevisions_frame] at leases
      obtain ⟨noMarks, untimed⟩ := fits
      simp only [MetadataState.FitsVersion, leases]
      exact ⟨noMarks, untimed.clock, untimed.deadlines, untimed.expired⟩
  | v4 =>
      rw [LeaseState.bumpRevisions_frame] at leases
      simp only [MetadataState.FitsVersion, leases]
      exact ⟨fits.clock, fits.deadlines, fits.expired⟩
  | v5 =>
      trivial

/-- A represented request never fills a field that the layout lacks. -/
theorem fits_transition
    (fits : state.FitsVersion version)
    {request : Request}
    {response : Response}
    (represented : version.representsRequest request = true)
    (transition : Transition bindingKey state request next response) :
    next.FitsVersion version := by
  cases transition with
  | refused =>
      exact fits
  | acknowledged =>
      exact fits
  | reserved owner nonempty bounded fresh recordsFit blocksFit =>
      obtain ⟨revisions, shape⟩ := activateLeases_frame state
      rw [shape]
      cases version with
      | legacy => simp [SnapshotVersion.representsRequest] at represented
      | v2 => simp [SnapshotVersion.representsRequest] at represented
      | v3 => exact ⟨fits.1, fits.2.clock, fits.2.deadlines, fits.2.expired⟩
      | v4 => exact ⟨fits.clock, fits.deadlines, fits.expired⟩
      | v5 => trivial
  | @committed lease agent binding expectedRevision record guards =>
      have bound :
          (bindAll bindingKey state agent [binding]).FitsVersion version :=
        fits_of_bumped fits _ (by rw [bindAll_frame]) (by rw [bindAll_frame])
      rw [bindOne_eq_bindAll]
      cases version with
      | legacy => simp [SnapshotVersion.representsRequest] at represented
      | v2 => simp [SnapshotVersion.representsRequest] at represented
      | v3 =>
          exact ⟨bound.1, bound.2.clock, bound.2.deadlines, bound.2.expired⟩
      | v4 => exact ⟨bound.clock, bound.deadlines, bound.expired⟩
      | v5 => trivial
  | cancelled found owner uncommitted notExpired =>
      cases version with
      | v4 => exact ⟨fits.clock, fits.deadlines, fits.expired⟩
      | v5 => trivial
      | _ => simp [SnapshotVersion.representsRequest] at represented
  | renewed =>
      cases version with
      | v5 => trivial
      | _ => simp [SnapshotVersion.representsRequest] at represented
  | advanced =>
      cases version with
      | v5 => trivial
      | _ => simp [SnapshotVersion.representsRequest] at represented
  | expired =>
      cases version with
      | v5 => trivial
      | _ => simp [SnapshotVersion.representsRequest] at represented
  | required =>
      cases version with
      | legacy => simp [SnapshotVersion.representsRequest] at represented
      | _ => exact fits
  | registered =>
      cases version <;> exact fits
  | chained agent bindings =>
      exact fits_of_bumped fits _ (by rw [bindAll_frame])
        (by rw [bindAll_frame])
  | bound agent link =>
      exact fits_of_bumped fits _ (by rw [bindAll_frame])
        (by rw [bindAll_frame])

/-- Positions, memberships and fences do not matter to the layout. -/
theorem fits_of_sameFields
    (fits : state.FitsVersion version)
    (leases : next.leases = state.leases)
    (requirements : next.replicaRequirements = state.replicaRequirements) :
    next.FitsVersion version := by
  cases version <;>
    simp only [MetadataState.FitsVersion, leases, requirements] <;>
    exact fits

theorem fits_stepEntry
    (consistent : state.Consistent bindingKey)
    (fits : state.FitsVersion version)
    {entry : Entry}
    (represented : version.represents entry.payload = true) :
    (stepEntry bindingKey state entry).FitsVersion version := by
  refine applyEntry_preserves bindingKey state
    (fun next => next.FitsVersion version) ?_ consistent.leases.dormant ?_ ?_
  · exact fits_of_sameFields fits rfl rfl
  · intro membership
    exact fits_of_sameFields fits rfl rfl
  · intro request next response payload _ transition _
    rw [payload] at represented
    have stamped :
        { state with lastApplied := some entry.logId }.FitsVersion version :=
      fits_of_sameFields fits rfl rfl
    exact fits_of_sameFields (fits_transition stamped represented transition)
      rfl rfl

/-- After a represented log the state fits the layout. -/
theorem fits_runFrom
    (consistent : state.Consistent bindingKey)
    (fits : state.FitsVersion version)
    (entries : List Entry)
    (represented :
      ∀ entry ∈ entries, version.represents entry.payload = true) :
    (runFrom bindingKey state entries).FitsVersion version := by
  induction entries generalizing state with
  | nil =>
      exact fits
  | cons entry rest inductionHypothesis =>
      have next := fits_stepEntry consistent fits
        (represented entry (by simp))
      exact inductionHypothesis (consistent.applyEntry entry) next
        (fun later member => represented later (by simp [member]))

theorem fits_empty (version : SnapshotVersion) :
    ({} : MetadataState).FitsVersion version := by
  cases version with
  | legacy => exact ⟨rfl, rfl⟩
  | v2 => rfl
  | v3 => exact ⟨rfl, rfl, rfl, rfl⟩
  | v4 => exact ⟨rfl, rfl, rfl⟩
  | v5 => trivial

/-- A represented log is recovered from its snapshot up to its fences. -/
theorem importSnapshot_represented
    (codecs : SnapshotCodecs)
    {entries : List Entry}
    (increasing : IncreasingIndices entries)
    (represented :
      ∀ entry ∈ entries, version.represents entry.payload = true) :
    importSnapshot bindingKey codecs version
        (runFrom bindingKey {} entries) =
      .ok ((runFrom bindingKey {} entries).withFences ∅) := by
  have empty : ({} : MetadataState).Consistent bindingKey := .empty
  have consistent : (runFrom bindingKey {} entries).Consistent bindingKey :=
    runFrom_consistent empty entries
  have positioned : (runFrom bindingKey {} entries).Positioned := by
    have whole := stateAt_positioned empty .empty increasing
      (fun _ _ => UInt64.zero_le) entries.length
    unfold stateAt StepRun.before at whole
    rw [List.take_length] at whole
    exact whole
  rw [importSnapshot_eq codecs version consistent positioned,
    migrated_of_fits (fits_runFrom .empty (fits_empty version) entries
      represented)]

end Represented

/-! ## Agreement with the recovered replica -/

/-- Two states hold the same replicated contents. -/
structure MetadataState.SameContents (left right : MetadataState) : Prop where
  agents : left.agents = right.agents
  bindings : left.bindings = right.bindings
  children : left.children = right.children
  blockRefs : left.blockRefs = right.blockRefs
  replicaRequirements : left.replicaRequirements = right.replicaRequirements
  leases : left.leases = right.leases

theorem MetadataState.SameButFences.sameContents
    {left right : MetadataState}
    (same : MetadataState.SameButFences left right) :
    left.SameContents right := by
  unfold MetadataState.SameButFences at same
  rw [same]
  exact ⟨rfl, rfl, rfl, rfl, rfl, rfl⟩

/--
Replicas agree whatever snapshot they recovered from, exactly as long as the
fence-capacity gate treats them alike.  One replica applies a log; the other
imports the snapshot of an earlier part of it, in any layout that represents
that part, and applies the rest.  The import is accepted, and the two give
the same replies to the rest and end with the same contents exactly when at
every later entry the gate gives both replicas the same verdict.
-/
theorem recovered_replicas_agree_iff
    (bindingKey : CacheKey → String)
    (codecs : SnapshotCodecs)
    (version : SnapshotVersion)
    (earlier later : List Entry)
    (increasing : IncreasingIndices (earlier ++ later))
    (represented :
      ∀ entry ∈ earlier, version.represents entry.payload = true) :
    ∃ imported,
      importSnapshot bindingKey codecs version
          (runFrom bindingKey {} earlier) = .ok imported ∧
      ((replies bindingKey (runFrom bindingKey {} earlier) later =
            replies bindingKey imported later ∧
          (runFrom bindingKey (runFrom bindingKey {} earlier) later
            ).SameContents (runFrom bindingKey imported later)) ↔
        SameVerdicts bindingKey (runFrom bindingKey {} earlier) imported
          later) := by
  have increasingEarlier : IncreasingIndices earlier :=
    (List.pairwise_append.mp increasing).1
  refine ⟨_, importSnapshot_represented codecs increasingEarlier represented,
    ?_⟩
  have same :
      MetadataState.SameButFences (runFrom bindingKey {} earlier)
        ((runFrom bindingKey {} earlier).withFences ∅) := rfl
  obtain ⟨answers, agree⟩ :=
    replies_eq_iff_sameVerdicts bindingKey same later
  constructor
  · rintro ⟨equal, -⟩
    exact answers.mp equal
  · intro verdicts
    exact ⟨answers.mpr verdicts, (agree verdicts).sameContents⟩

/-- The reservation is cancelled, and its block bound. -/
def cancelledLog : List Entry :=
  [⟨⟨⟨1, 1⟩, 3⟩,
      .normal (.cancelUploadLease (.filled 9) (.filled 1))⟩,
    ⟨⟨⟨1, 1⟩, 4⟩,
      .normal (.bindPrefix (.filled 1)
        ⟨⟨"model", "tokenizer", "layout"⟩, .filled 7⟩ [.filled 2] none)⟩]

theorem recovered_replicas_agree_iff_cancelled :
    ∃ imported,
      importSnapshot serdeBindingKey BincodeLayout.bincode .v3
          (runFrom serdeBindingKey {} reservedLog) = .ok imported ∧
      replies serdeBindingKey (runFrom serdeBindingKey {} reservedLog)
          cancelledLog =
        replies serdeBindingKey imported cancelledLog ∧
      (runFrom serdeBindingKey (runFrom serdeBindingKey {} reservedLog)
        cancelledLog).SameContents
          (runFrom serdeBindingKey imported cancelledLog) := by
  obtain ⟨imported, accepted, agreement⟩ :=
    recovered_replicas_agree_iff serdeBindingKey BincodeLayout.bincode .v3
      reservedLog cancelledLog (by unfold IncreasingIndices; decide)
      (by decide)
  refine ⟨imported, accepted, agreement.mpr ?_⟩
  rw [importSnapshot_represented BincodeLayout.bincode
    (by unfold IncreasingIndices; decide) (by decide)] at accepted
  cases accepted
  rw [cancelledLog, sameVerdicts_cons, sameVerdicts_cons]
  refine ⟨by decide +kernel, by decide +kernel, ?_⟩
  intro position entry present
  simp at present

/-! ## A full fence map -/

/-- Binding a new key touches its own blocks. -/
theorem touchedBlocks_bindPrefix
    {bindingKey : CacheKey → String}
    {state : MetadataState}
    {key : CacheKey}
    (unbound : state.bindings[bindingKey key]? = none)
    (agent : AgentId)
    (blocks : List BlockId) :
    touchedBlocks bindingKey state (.bindPrefix agent key blocks none) =
      (∅ : ExtTreeSet BlockId).insertMany blocks := by
  simp [touchedBlocks, touchBinding, unbound]

theorem applyEntry_bindPrefix
    {bindingKey : CacheKey → String}
    {state : MetadataState}
    {key : CacheKey}
    (unbound : state.bindings[bindingKey key]? = none)
    (logId : LogId)
    (agent : AgentId)
    (blocks : List BlockId) :
    applyEntry bindingKey state
        ⟨logId, .normal (.bindPrefix agent key blocks none)⟩ =
      if fencesExhausted state ((∅ : ExtTreeSet BlockId).insertMany blocks)
      then
        ({ state with lastApplied := some logId },
          .rejected "block fence capacity exhausted")
      else
        (fenceBlocks
          (bindOne bindingKey { state with lastApplied := some logId } agent
            key blocks none)
          ((∅ : ExtTreeSet BlockId).insertMany blocks), .bound) := by
  have touched :
      touchedBlocks bindingKey { state with lastApplied := some logId }
          (.bindPrefix agent key blocks none) =
        (∅ : ExtTreeSet BlockId).insertMany blocks :=
    touchedBlocks_bindPrefix unbound agent blocks
  simp only [applyEntry, applyOne, touched, applyUnfenced,
    Response.isRejected, Bool.false_eq_true, if_false]
  rfl

/-- One binding of the given blocks. -/
def fillingLog (blocks : List BlockId) : List Entry :=
  [⟨⟨⟨1, 1⟩, 1⟩,
    .normal (.bindPrefix (.filled 1)
      ⟨⟨"model", "tokenizer", "layout"⟩, .filled 7⟩ blocks none)⟩]

/-- One more binding, of one more block. -/
def overflowingLog (extra : BlockId) : List Entry :=
  [⟨⟨⟨1, 1⟩, 2⟩,
    .normal (.bindPrefix (.filled 1)
      ⟨⟨"model", "tokenizer", "layout"⟩, .filled 8⟩ [extra] none)⟩]

section Full

variable {blocks : List BlockId} {extra : BlockId}
  (distinct : blocks.Nodup)
  (full : blocks.length = maxBlockFences)
  (unlisted : extra ∉ blocks)

include distinct full

/-- The first binding is admitted and fences every one of its blocks. -/
theorem runFrom_fillingLog :
    runFrom serdeBindingKey {} (fillingLog blocks) =
      fenceBlocks
        (bindOne serdeBindingKey { lastApplied := some ⟨⟨1, 1⟩, 1⟩ }
          (.filled 1) ⟨⟨"model", "tokenizer", "layout"⟩, .filled 7⟩
          blocks none)
        ((∅ : ExtTreeSet BlockId).insertMany blocks) := by
  have size := FiniteMap.length_toList_insertMany distinct
  rw [full] at size
  simp only [fillingLog, runFrom, StepRun.after_cons, StepRun.after_nil,
    stepEntry]
  rw [applyEntry_bindPrefix (by simp)]
  simp [fencesExhausted, size]

theorem size_fillingLog_fences :
    (runFrom serdeBindingKey {} (fillingLog blocks)).blockFences.size =
      maxBlockFences := by
  have size := FiniteMap.length_toList_insertMany distinct
  rw [full] at size
  rw [runFrom_fillingLog distinct full, fenceBlocks,
    FiniteMap.size_insertAll _ (FiniteMap.nodup_toList_set _)]
  simp [bindOne, size]

/-- The second key is still unbound. -/
theorem fillingLog_unbound :
    (runFrom serdeBindingKey {} (fillingLog blocks)).bindings[
      serdeBindingKey ⟨⟨"model", "tokenizer", "layout"⟩, .filled 8⟩]? =
        none := by
  have different :
      serdeBindingKey ⟨⟨"model", "tokenizer", "layout"⟩, .filled 7⟩ ≠
        serdeBindingKey ⟨⟨"model", "tokenizer", "layout"⟩, .filled 8⟩ := by
    decide +kernel
  rw [runFrom_fillingLog distinct full]
  simp [fenceBlocks, bindOne, different]

include unlisted

/-- The gate refuses the second binding to the replica with a full map. -/
theorem fillingLog_exhausted :
    fencesExhausted (runFrom serdeBindingKey {} (fillingLog blocks))
      ((∅ : ExtTreeSet BlockId).insertMany [extra]) = true := by
  have unfenced :
      (runFrom serdeBindingKey {} (fillingLog blocks)).blockFences.contains
        extra = false := by
    rw [← ExtTreeMap.isSome_getElem?_eq_contains,
      runFrom_fillingLog distinct full, getElem?_fenceBlocks]
    simp [bindOne, unlisted]
  simp [fencesExhausted, unfenced, size_fillingLog_fences distinct full]

/--
A replica with a full fence map refuses a binding, which the replica that
recovered from its snapshot accepts.
-/
theorem diverges_of_full :
    IncreasingIndices (fillingLog blocks ++ overflowingLog extra) ∧
    (∀ entry ∈ fillingLog blocks,
      SnapshotVersion.legacy.represents entry.payload = true) ∧
    ∃ imported,
      importSnapshot serdeBindingKey BincodeLayout.bincode .legacy
          (runFrom serdeBindingKey {} (fillingLog blocks)) = .ok imported ∧
      replies serdeBindingKey
          (runFrom serdeBindingKey {} (fillingLog blocks))
          (overflowingLog extra) =
        [.rejected "block fence capacity exhausted"] ∧
      replies serdeBindingKey imported (overflowingLog extra) = [.bound] ∧
      (runFrom serdeBindingKey
          (runFrom serdeBindingKey {} (fillingLog blocks))
          (overflowingLog extra)).bindings ≠
        (runFrom serdeBindingKey imported (overflowingLog extra)
          ).bindings := by
  have increasing :
      IncreasingIndices (fillingLog blocks ++ overflowingLog extra) := by
    simp [IncreasingIndices, fillingLog, overflowingLog]
  have represented :
      ∀ entry ∈ fillingLog blocks,
        SnapshotVersion.legacy.represents entry.payload = true := by
    simp [fillingLog, SnapshotVersion.represents,
      SnapshotVersion.representsRequest]
  have unbound := fillingLog_unbound distinct full
  have refused := fillingLog_exhausted distinct full unlisted
  have accepted :
      importSnapshot serdeBindingKey BincodeLayout.bincode .legacy
          (runFrom serdeBindingKey {} (fillingLog blocks)) =
        .ok ((runFrom serdeBindingKey {} (fillingLog blocks)).withFences ∅) :=
    importSnapshot_represented BincodeLayout.bincode
      (List.pairwise_append.mp increasing).1 represented
  generalize runFrom serdeBindingKey {} (fillingLog blocks) = state at *
  have admitted :
      fencesExhausted (state.withFences ∅)
        ((∅ : ExtTreeSet BlockId).insertMany [extra]) = false := by
    simp [fencesExhausted, maxBlockFences, ExtTreeSet.size_insert]
  have unboundThere :
      (state.withFences ∅).bindings[
        serdeBindingKey ⟨⟨"model", "tokenizer", "layout"⟩, .filled 8⟩]? =
          none := unbound
  have kept := applyEntry_bindPrefix unbound ⟨⟨1, 1⟩, 2⟩ (.filled 1) [extra]
  have bound :=
    applyEntry_bindPrefix unboundThere ⟨⟨1, 1⟩, 2⟩ (.filled 1) [extra]
  rw [if_pos refused] at kept
  rw [admitted] at bound
  refine ⟨increasing, represented, _, accepted, ?_, ?_, ?_⟩
  · simp [replies, overflowingLog, replyEntry, kept]
  · simp [replies, overflowingLog, replyEntry, bound]
  · intro same
    have found := congrArg
      (fun bindings : ExtTreeMap String BindingRecord => bindings[
        serdeBindingKey ⟨⟨"model", "tokenizer", "layout"⟩, .filled 8⟩]?)
      same
    simp [runFrom, overflowingLog, stepEntry, kept, bound, unbound,
      fenceBlocks, bindOne] at found

end Full

/-- The block whose identifier spells a number. -/
def numberedBlock (number : Nat) : BlockId :=
  ⟨ByteCodec.leBytes 32 number, ByteCodec.length_leBytes 32 number⟩

theorem numberedBlock_injective
    {first second : Nat}
    (firstSmall : first ≤ maxBlockFences)
    (secondSmall : second ≤ maxBlockFences)
    (same : numberedBlock first = numberedBlock second) :
    first = second := by
  have bound : maxBlockFences < 256 ^ 32 := by decide
  have values := congrArg (fun id => ByteCodec.leValue id.bytes) same
  simp only [numberedBlock] at values
  rw [ByteCodec.leValue_leBytes (by omega),
    ByteCodec.leValue_leBytes (by omega)] at values
  exact values

/-- As many blocks as the fence map can hold. -/
def numberedBlocks : List BlockId :=
  (List.range maxBlockFences).map numberedBlock

theorem numberedBlocks_nodup : numberedBlocks.Nodup := by
  refine List.Nodup.map_on ?_ List.nodup_range
  intro first firstMember second secondMember same
  exact numberedBlock_injective (List.mem_range.mp firstMember).le
    (List.mem_range.mp secondMember).le same

/-- After that many blocks were fenced, one more forks the replicas. -/
theorem recovered_replica_diverges :
    IncreasingIndices (fillingLog numberedBlocks ++
      overflowingLog (numberedBlock maxBlockFences)) ∧
    (∀ entry ∈ fillingLog numberedBlocks,
      SnapshotVersion.legacy.represents entry.payload = true) ∧
    ∃ imported,
      importSnapshot serdeBindingKey BincodeLayout.bincode .legacy
          (runFrom serdeBindingKey {} (fillingLog numberedBlocks)) =
        .ok imported ∧
      replies serdeBindingKey
          (runFrom serdeBindingKey {} (fillingLog numberedBlocks))
          (overflowingLog (numberedBlock maxBlockFences)) =
        [.rejected "block fence capacity exhausted"] ∧
      replies serdeBindingKey imported
          (overflowingLog (numberedBlock maxBlockFences)) = [.bound] ∧
      (runFrom serdeBindingKey
          (runFrom serdeBindingKey {} (fillingLog numberedBlocks))
          (overflowingLog (numberedBlock maxBlockFences))).bindings ≠
        (runFrom serdeBindingKey imported
          (overflowingLog (numberedBlock maxBlockFences))).bindings := by
  refine diverges_of_full numberedBlocks_nodup ?_ ?_
  · rw [numberedBlocks, List.length_map, List.length_range]
  · intro listed
    obtain ⟨number, small, same⟩ := List.mem_map.mp listed
    have small := List.mem_range.mp small
    exact absurd (numberedBlock_injective small.le le_rfl same) small.ne

end KalpakDb
