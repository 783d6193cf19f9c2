import KalpakDb.ReferenceCounts

namespace KalpakDb

/-!
# Reference fences

A request computes the blocks it may touch from its own contents and the
state before it runs.  This set covers every block whose references the
request changes.  The fence of a block therefore holds the position of an
entry at or after the last change, and never moves backwards.
-/

open Std (ExtTreeMap ExtTreeSet)

/-- A lease that reserves a block. -/
def Reserves (state : MetadataState) (lease block : BlockId) : Prop :=
  ∃ record : UploadLease,
    state.leases.records[lease]? = some record ∧ block ∈ record.blocks

/-- Two states that hold the same references to a block. -/
structure SameReferences
    (block : BlockId)
    (earlier later : MetadataState) : Prop where
  occurrences : occurrences later block = occurrences earlier block
  reservations :
    ∀ lease, Reserves later lease block ↔ Reserves earlier lease block
  deadlines :
    ∀ lease, Reserves earlier lease block →
      later.leases.deadlines[lease]? = earlier.leases.deadlines[lease]?
  requirement :
    later.replicaRequirements[block]? = earlier.replicaRequirements[block]?

namespace SameReferences

variable {block : BlockId} {first middle last : MetadataState}

theorem refl (state : MetadataState) : SameReferences block state state :=
  ⟨rfl, fun _ => Iff.rfl, fun _ _ => rfl, rfl⟩

theorem symm
    (same : SameReferences block first last) :
    SameReferences block last first where
  occurrences := same.occurrences.symm
  reservations := fun lease => (same.reservations lease).symm
  deadlines := fun lease reserves =>
    (same.deadlines lease ((same.reservations lease).mp reserves)).symm
  requirement := same.requirement.symm

theorem trans
    (early : SameReferences block first middle)
    (late : SameReferences block middle last) :
    SameReferences block first last where
  occurrences := late.occurrences.trans early.occurrences
  reservations := fun lease =>
    (late.reservations lease).trans (early.reservations lease)
  deadlines := fun lease reserves =>
    (late.deadlines lease ((early.reservations lease).mpr reserves)).trans
      (early.deadlines lease reserves)
  requirement := late.requirement.trans early.requirement

end SameReferences

/-! ## The touched blocks -/

section Touched

variable {bindingKey : CacheKey → String} {state : MetadataState}
  {block : BlockId}

/-- A block that a binding of the key would bring in or replace. -/
def TouchedBy
    (bindingKey : CacheKey → String)
    (state : MetadataState)
    (block : BlockId)
    (link : ChainBinding) : Prop :=
  block ∈ link.blocks ∨
    ∃ old : BindingRecord,
      state.bindings[bindingKey link.key]? = some old ∧ block ∈ old.blocks

theorem mem_touchBinding
    {touched : ExtTreeSet BlockId}
    {link : ChainBinding} :
    block ∈ touchBinding bindingKey state touched link.key link.blocks ↔
      block ∈ touched ∨ TouchedBy bindingKey state block link := by
  unfold touchBinding TouchedBy
  cases found : state.bindings[bindingKey link.key]? with
  | none =>
      simp [ExtTreeSet.mem_insertMany_list]
  | some old =>
      simp [ExtTreeSet.mem_insertMany_list, or_assoc]

theorem mem_touchChain
    {touched : ExtTreeSet BlockId}
    {links : List ChainBinding} :
    block ∈ links.foldl
        (fun touched item =>
          touchBinding bindingKey state touched item.key item.blocks)
        touched ↔
      block ∈ touched ∨
        ∃ link ∈ links, TouchedBy bindingKey state block link := by
  induction links generalizing touched with
  | nil =>
      simp
  | cons link rest inductionHypothesis =>
      rw [List.foldl_cons, inductionHypothesis, mem_touchBinding]
      simp [or_assoc]

/-- The links a request asks to bind. -/
def Request.links : Request → List ChainBinding
  | .bindPrefix _ key blocks parent => [⟨key, blocks, parent⟩]
  | .bindChain _ links => links
  | .commitUploadLease _ _ binding _ => [binding]
  | _ => []

/-- Every link of a request is covered by its touched blocks. -/
theorem mem_touchedBlocks_of_link
    {request : Request}
    {link : ChainBinding}
    (member : link ∈ request.links)
    (touchedBy : TouchedBy bindingKey state block link) :
    block ∈ touchedBlocks bindingKey state request := by
  cases request with
  | bindPrefix agent key blocks parent =>
      cases List.mem_singleton.mp member
      exact mem_touchBinding.mpr (Or.inr touchedBy)
  | bindChain agent links =>
      exact mem_touchChain.mpr (Or.inr ⟨link, member, touchedBy⟩)
  | commitUploadLease lease agent binding expectedRevision =>
      cases List.mem_singleton.mp member
      exact mem_touchBinding.mpr (Or.inr touchedBy)
  | _ =>
      simp [Request.links] at member

end Touched

/-! ## Untouched blocks keep their references -/

section Untouched

variable {bindingKey : CacheKey → String} {state next : MetadataState}
  {block : BlockId}

/-- Binding links that do not touch a block keeps its occurrences. -/
theorem occurrences_bindAll_untouched
    (agent : AgentId)
    {links : List ChainBinding}
    (untouched :
      ∀ link ∈ links, ¬ TouchedBy bindingKey state block link) :
    occurrences (bindAll bindingKey state agent links) block =
      occurrences state block := by
  induction links generalizing state with
  | nil =>
      rfl
  | cons link rest inductionHypothesis =>
      have head := untouched link (by simp)
      unfold TouchedBy at head
      simp only [not_or, not_exists, not_and] at head
      have balance := FiniteMap.total_insert
        (fun _ (record : BindingRecord) => record.blocks.count block)
        state.bindings (bindingKey link.key) ⟨agent, link.blocks⟩
      have oldCount :
          (state.bindings[bindingKey link.key]?.elim 0
            fun old => old.blocks.count block) = 0 := by
        cases found : state.bindings[bindingKey link.key]? with
        | none =>
            rfl
        | some old =>
            exact List.count_eq_zero.mpr (head.2 old found)
      rw [oldCount, List.count_eq_zero.mpr head.1] at balance
      have first :
          occurrences
              (bindOne bindingKey state agent link.key link.blocks
                link.parent) block =
            occurrences state block := balance
      rw [bindAll_cons, ← first]
      apply inductionHypothesis
      intro later member touchedBy
      refine untouched later (List.mem_cons_of_mem link member) ?_
      refine touchedBy.imp_right ?_
      rintro ⟨old, found, inOld⟩
      simp only [bindOne, ExtTreeMap.getElem?_insert] at found
      split at found
      · cases found
        exact absurd inOld head.1
      · exact ⟨old, found, inOld⟩

/-- A requirement changes only for the listed blocks. -/
theorem raiseRequirements_unlisted
    {requirements : ExtTreeMap BlockId UInt64}
    {blocks : List BlockId}
    (replicas : UInt64)
    (unlisted : block ∉ blocks) :
    (raiseRequirements requirements blocks replicas)[block]? =
      requirements[block]? := by
  induction blocks generalizing requirements with
  | nil =>
      rfl
  | cons first rest inductionHypothesis =>
      simp only [List.mem_cons, not_or] at unlisted
      refine (inductionHypothesis unlisted.2).trans ?_
      simp [ExtTreeMap.getElem?_insert, Ne.symm unlisted.1]

/-- Replacing bindings by a chain that does not touch a block. -/
theorem sameReferences_bindAll
    (agent : AgentId)
    {links : List ChainBinding}
    (untouched :
      ∀ link ∈ links, ¬ TouchedBy bindingKey state block link) :
    SameReferences block state (bindAll bindingKey state agent links) := by
  have occurrences := occurrences_bindAll_untouched agent untouched
  have shape := bindAll_frame bindingKey state agent links
  rw [LeaseState.bumpRevisions_frame] at shape
  refine ⟨occurrences, ?_, ?_, ?_⟩
  · intro lease
    unfold Reserves
    rw [shape]
  · intro lease _
    rw [shape]
  · rw [shape]

/-- Overwriting a lease without changing its blocks. -/
theorem sameReferences_recordCommit
    {lease : BlockId}
    {record : UploadLease}
    (found : state.leases.records[lease]? = some record)
    (commit : LeaseCommit) :
    SameReferences block state (recordCommit state lease commit) := by
  rw [recordCommit_eq_insert found]
  refine ⟨rfl, ?_, fun _ _ => rfl, rfl⟩
  intro other
  unfold Reserves
  by_cases same : lease = other
  · subst other
    simp [found]
  · simp [ExtTreeMap.getElem?_insert, same]

/-- A transition keeps all references to a block it does not touch. -/
theorem transition_sameReferences
    {request : Request}
    {response : Response}
    (step : Transition bindingKey state request next response)
    (untouched : block ∉ touchedBlocks bindingKey state request) :
    SameReferences block state next := by
  have unlinked :
      ∀ link ∈ request.links, ¬ TouchedBy bindingKey state block link :=
    fun link member touchedBy =>
      untouched (mem_touchedBlocks_of_link member touchedBy)
  cases step with
  | @reserved lease agent blocks owner nonempty bounded fresh =>
      have unlisted : block ∉ blocks := by
        simpa [touchedBlocks, ExtTreeSet.mem_insertMany_list] using untouched
      obtain ⟨revisions, shape⟩ := activateLeases_frame state
      rw [shape]
      refine ⟨rfl, ?_, fun _ _ => rfl, rfl⟩
      intro other
      unfold Reserves insertReservation
      by_cases same : lease = other
      · subst other
        simp [unlisted, fresh]
      · simp [ExtTreeMap.getElem?_insert, same]
  | @committed lease agent binding expectedRevision record guards =>
      have bound :
          SameReferences block state
            (bindAll bindingKey state agent [binding]) :=
        sameReferences_bindAll agent unlinked
      have found :
          (bindAll bindingKey state agent [binding]).leases.records[lease]? =
            some record := by
        rw [bindAll_frame, LeaseState.bumpRevisions_frame]
        exact guards.found
      exact bound.trans (sameReferences_recordCommit found _)
  | @renewed lease agent expected ttl deadlineTick record found =>
      have unreserved : block ∉ record.blocks := by
        simpa [touchedBlocks, found, ExtTreeSet.mem_insertMany_list]
          using untouched
      refine ⟨rfl, fun _ => Iff.rfl, ?_, rfl⟩
      rintro other ⟨otherRecord, otherFound, reserves⟩
      have different : lease ≠ other := by
        rintro rfl
        rw [found] at otherFound
        cases otherFound
        exact unreserved reserves
      simp [ExtTreeMap.getElem?_insert, different]
  | @required blocks replicas inRange fits =>
      have unlisted : block ∉ blocks := by
        simpa [touchedBlocks, ExtTreeSet.mem_insertMany_list] using untouched
      exact ⟨rfl, fun _ => Iff.rfl, fun _ _ => rfl,
        raiseRequirements_unlisted replicas unlisted⟩
  | chained agent links =>
      exact sameReferences_bindAll agent unlinked
  | bound agent link =>
      exact sameReferences_bindAll agent unlinked
  | _ =>
      exact ⟨rfl, fun _ => Iff.rfl, fun _ _ => rfl, rfl⟩

end Untouched

/-! ## Fences along a run -/

section Runs

variable {bindingKey : CacheKey → String} {state : MetadataState}
  {block : BlockId}

/-- An entry that changes references to a block fences it at its position. -/
theorem stepEntry_fences
    (dormant : state.leases.Dormant)
    (entry : Entry)
    (block : BlockId) :
    SameReferences block state (stepEntry bindingKey state entry) ∨
      (stepEntry bindingKey state entry).blockFences[block]? =
        some entry.logId.index := by
  refine applyEntry_preserves bindingKey state
    (fun next => SameReferences block state next ∨
      next.blockFences[block]? = some entry.logId.index)
    ?_ dormant ?_ ?_
  · exact Or.inl ⟨rfl, fun _ => Iff.rfl, fun _ _ => rfl, rfl⟩
  · intro membership
    exact Or.inl ⟨rfl, fun _ => Iff.rfl, fun _ _ => rfl, rfl⟩
  · intro request next response _ _ step _
    by_cases touched :
        block ∈ touchedBlocks bindingKey
          { state with lastApplied := some entry.logId } request
    · refine Or.inr ?_
      rw [getElem?_fenceBlocks, if_pos touched,
        transition_appliedIndex step]
      rfl
    · have same := transition_sameReferences step touched
      exact Or.inl ⟨same.occurrences, same.reservations, same.deadlines,
        same.requirement⟩

/-- No entry removes a fence; an entry at a later position cannot lower it. -/
theorem stepEntry_fence_le
    (dormant : state.leases.Dormant)
    (positioned : state.Positioned)
    {entry : Entry}
    (later : state.appliedIndex ≤ entry.logId.index)
    {fence : UInt64}
    (found : state.blockFences[block]? = some fence) :
    ∃ raised,
      (stepEntry bindingKey state entry).blockFences[block]? = some raised ∧
        fence ≤ raised := by
  refine applyEntry_preserves bindingKey state
    (fun next => ∃ raised,
      next.blockFences[block]? = some raised ∧ fence ≤ raised)
    ?_ dormant ?_ ?_
  · exact ⟨fence, found, UInt64.le_refl _⟩
  · intro membership
    exact ⟨fence, found, UInt64.le_refl _⟩
  · intro request next response _ _ step _
    rw [getElem?_fenceBlocks, transition_appliedIndex step,
      (transition_frame step).1]
    split
    · exact ⟨entry.logId.index, rfl,
        UInt64.le_trans (positioned.fencesPast block fence found) later⟩
    · exact ⟨fence, found, UInt64.le_refl _⟩

theorem mem_fences_stepEntry
    (dormant : state.leases.Dormant)
    (entry : Entry)
    (fenced : block ∈ state.blockFences) :
    block ∈ (stepEntry bindingKey state entry).blockFences := by
  refine applyEntry_preserves bindingKey state
    (fun next => block ∈ next.blockFences) fenced dormant ?_ ?_
  · intro membership
    exact fenced
  · intro request next response _ _ step _
    rw [ExtTreeMap.mem_iff_isSome_getElem?, getElem?_fenceBlocks,
      (transition_frame step).1]
    split
    · rfl
    · exact ExtTreeMap.mem_iff_isSome_getElem?.mp fenced

/-- Every referenced block has a known fence. -/
def FencesCover (state : MetadataState) : Prop :=
  ∀ block,
    (0 < occurrences state block ∨ ∃ lease, Reserves state lease block) →
    block ∈ state.blockFences

theorem fencesCover_empty : FencesCover {} := by
  rintro block (occurs | ⟨lease, record, found, -⟩)
  · simp [occurrences] at occurs
  · simp at found

/-- Every entry keeps all referenced blocks fenced. -/
theorem stepEntry_fencesCover
    (dormant : state.leases.Dormant)
    (cover : FencesCover state)
    (entry : Entry) :
    FencesCover (stepEntry bindingKey state entry) := by
  intro block referenced
  have fences :
      SameReferences block state (stepEntry bindingKey state entry) ∨
        (stepEntry bindingKey state entry).blockFences[block]? =
          some entry.logId.index :=
    stepEntry_fences dormant entry block
  rcases fences with same | fenced
  · refine mem_fences_stepEntry dormant entry (cover block ?_)
    rw [same.occurrences] at referenced
    exact referenced.imp_right
      (fun ⟨lease, reserves⟩ => ⟨lease, (same.reservations lease).mp reserves⟩)
  · exact ExtTreeMap.mem_iff_isSome_getElem?.mpr
      (Option.isSome_of_eq_some fenced)

theorem stateAt_fencesCover
    (bindingKey : CacheKey → String)
    (entries : List Entry)
    (position : Nat) :
    FencesCover (stateAt bindingKey {} entries position) := by
  refine StepRun.holds_before FencesCover fencesCover_empty ?_ position
  intro position entry _ earlier
  have consistent :
      (stateAt bindingKey {} entries position).Consistent bindingKey :=
    stateAt_consistent .empty position
  exact stepEntry_fencesCover consistent.leases.dormant earlier entry

/-- Touching only fenced blocks never exhausts the fence capacity. -/
theorem fencesExhausted_of_covered
    (bounded : state.blockFences.size ≤ maxBlockFences)
    {touched : ExtTreeSet BlockId}
    (covered : ∀ block, block ∈ touched → block ∈ state.blockFences) :
    fencesExhausted state touched = false := by
  have noneNew :
      (touched.toList.filter fun block =>
        !state.blockFences.contains block) = [] := by
    apply List.filter_eq_nil_iff.mpr
    intro block member
    have fenced := covered block (ExtTreeSet.mem_toList.mp member)
    simpa using fenced
  unfold fencesExhausted
  rw [noneNew]
  simpa using bounded

/-- The fence of a block as a level that unknown history lies below. -/
def fenceLevel (block : BlockId) (state : MetadataState) : WithBot Nat :=
  state.blockFences[block]?.map UInt64.toNat

theorem fenceLevel_of_found
    {fence : UInt64}
    (found : state.blockFences[block]? = some fence) :
    fenceLevel block state = (fence.toNat : WithBot Nat) := by
  simp [fenceLevel, found]
  rfl

theorem fenceLevel_of_none
    (absent : state.blockFences[block]? = none) :
    fenceLevel block state = ⊥ := by
  simp [fenceLevel, absent]
  rfl

end Runs

section IncreasingRuns

variable {bindingKey : CacheKey → String} {entries : List Entry}
  (increasing : IncreasingIndices entries)
  {position : Nat} {entry : Entry}
  (present : entries[position]? = some entry)
  (block : BlockId)

include increasing

theorem stateAt_fencesPast
    {fence : UInt64}
    (found :
      (stateAt bindingKey {} entries position).blockFences[block]? =
        some fence) :
    fence ≤ (stateAt bindingKey {} entries position).appliedIndex :=
  (stateAt_positioned .empty .empty increasing (fun _ _ => UInt64.zero_le)
    position).fencesPast block fence found

include present

/-- An entry of the run keeps or raises a fence. -/
theorem stateAt_fence_le_step
    {fence : UInt64}
    (found :
      (stateAt bindingKey {} entries position).blockFences[block]? =
        some fence) :
    ∃ raised,
      (stateAt bindingKey {} entries (position + 1)).blockFences[block]? =
          some raised ∧
        fence ≤ raised := by
  have consistent :
      (stateAt bindingKey {} entries position).Consistent bindingKey :=
    stateAt_consistent .empty position
  have positioned :
      (stateAt bindingKey {} entries position).Positioned :=
    stateAt_positioned .empty .empty increasing
      (fun _ _ => UInt64.zero_le) position
  have later :
      (stateAt bindingKey {} entries position).appliedIndex ≤
        entry.logId.index :=
    appliedIndex_le_of_increasing .empty increasing
      (fun _ _ => UInt64.zero_le) present
  rw [stateAt_succ present]
  exact stepEntry_fence_le consistent.leases.dormant positioned later found

theorem fenceLevel_le_step :
    fenceLevel block (stateAt bindingKey {} entries position) ≤
      fenceLevel block
        (stepEntry bindingKey (stateAt bindingKey {} entries position)
          entry) := by
  cases found :
      (stateAt bindingKey {} entries position).blockFences[block]? with
  | none =>
      rw [fenceLevel_of_none found]
      exact bot_le
  | some fence =>
      obtain ⟨raised, raisedFound, ordered⟩ :=
        stateAt_fence_le_step increasing present block found
      rw [stateAt_succ present] at raisedFound
      rw [fenceLevel_of_found found, fenceLevel_of_found raisedFound]
      exact WithBot.coe_le_coe.mpr (UInt64.le_iff_toNat_le.mp ordered)

theorem fenceLevel_lt_step
    (changed :
      ¬ SameReferences block (stateAt bindingKey {} entries position)
        (stepEntry bindingKey (stateAt bindingKey {} entries position)
          entry)) :
    fenceLevel block (stateAt bindingKey {} entries position) <
      fenceLevel block
        (stepEntry bindingKey (stateAt bindingKey {} entries position)
          entry) := by
  have consistent :
      (stateAt bindingKey {} entries position).Consistent bindingKey :=
    stateAt_consistent .empty position
  have fenced :=
    (stepEntry_fences consistent.leases.dormant entry block).resolve_left
      changed
  rw [fenceLevel_of_found fenced]
  cases found :
      (stateAt bindingKey {} entries position).blockFences[block]? with
  | none =>
      rw [fenceLevel_of_none found]
      exact WithBot.bot_lt_coe _
  | some fence =>
      rw [fenceLevel_of_found found]
      cases position with
      | zero =>
          simp at found
      | succ position =>
          have past := stateAt_fencesPast increasing block found
          have beyond :
              (stateAt bindingKey {} entries (position + 1)).appliedIndex <
                entry.logId.index :=
            appliedIndex_lt_of_increasing .empty increasing present
          exact WithBot.coe_lt_coe.mpr
            (UInt64.lt_iff_toNat_lt.mp (UInt64.lt_of_le_of_lt past beyond))

end IncreasingRuns

/--
Reference fences are complete over every run with increasing indices: an
entry that changes the references to a block fences it at its own index, no
entry removes or lowers a fence, and two observations of one fence value
enclose no change of the references to the block.
-/
theorem reference_fences_complete
    (bindingKey : CacheKey → String)
    (entries : List Entry)
    (increasing : IncreasingIndices entries)
    (block : BlockId) :
    (∀ position entry, entries[position]? = some entry →
      ¬ SameReferences block (stateAt bindingKey {} entries position)
          (stateAt bindingKey {} entries (position + 1)) →
      (stateAt bindingKey {} entries (position + 1)).blockFences[block]? =
        some entry.logId.index) ∧
    (∀ position fence,
      (stateAt bindingKey {} entries position).blockFences[block]? =
        some fence →
      ∃ raised,
        (stateAt bindingKey {} entries (position + 1)).blockFences[block]? =
            some raised ∧
          fence ≤ raised) ∧
    (∀ earlier later fence, earlier ≤ later →
      (stateAt bindingKey {} entries earlier).blockFences[block]? =
        some fence →
      (stateAt bindingKey {} entries later).blockFences[block]? =
        some fence →
      ∀ position, earlier ≤ position → position < later →
        SameReferences block (stateAt bindingKey {} entries position)
          (stateAt bindingKey {} entries (position + 1))) := by
  refine ⟨?_, ?_, ?_⟩
  · intro position entry present changed
    have consistent :
        (stateAt bindingKey {} entries position).Consistent bindingKey :=
      stateAt_consistent .empty position
    rw [stateAt_succ present] at changed ⊢
    exact (stepEntry_fences consistent.leases.dormant entry
      block).resolve_left changed
  · intro position fence found
    cases present : entries[position]? with
    | none =>
        rw [stateAt_succ_of_none present]
        exact ⟨fence, found, UInt64.le_refl _⟩
    | some entry =>
        exact stateAt_fence_le_step increasing present block found
  · intro earlier later fence ordered foundEarlier foundLater position
      afterEarlier beforeLater
    cases present : entries[position]? with
    | none =>
        rw [stateAt_succ_of_none present]
        exact .refl _
    | some entry =>
        have level :
            fenceLevel block (stateAt bindingKey {} entries earlier) =
              fenceLevel block (stateAt bindingKey {} entries later) := by
          rw [fenceLevel_of_found foundEarlier,
            fenceLevel_of_found foundLater]
        have unchanged := StepRun.no_event_between (fenceLevel block)
          (fun state entry =>
            ¬ SameReferences block state (stepEntry bindingKey state entry))
          (fun _ _ found => fenceLevel_le_step increasing found block)
          (fun _ _ found => fenceLevel_lt_step increasing found block)
          afterEarlier beforeLater present level
        rw [stateAt_succ present]
        exact not_not.mp unchanged

/-- Rebinding a key fences the replaced and the new blocks at its index. -/
theorem reference_fences_complete_rebound :
    IncreasingIndices reboundLog ∧
    (stateAt serdeBindingKey {} reboundLog 2).blockFences[BlockId.filled 2]? =
      some 2 ∧
    (∃ raised,
      (stateAt serdeBindingKey {} reboundLog 2).blockFences[
          BlockId.filled 2]? = some raised ∧
        1 ≤ raised) := by
  have increasing : IncreasingIndices reboundLog := by
    unfold IncreasingIndices
    decide
  have complete := reference_fences_complete serdeBindingKey reboundLog
    increasing (.filled 2)
  refine ⟨increasing, complete.1 1 _ rfl ?_, complete.2.1 1 1 ?_⟩
  · intro same
    have equal := same.occurrences
    revert equal
    decide +kernel
  · decide +kernel

end KalpakDb
