import KalpakDb.StoreCalls

namespace KalpakDb

/-!
# What compaction does to the index

Compaction swaps one sealed segment after the other.  From the moment at
which a rewritten file has taken over the name of its segment, the dead
blocks of that segment are gone from the index, even if a later step fails.
This holds on any store, so it is stated on the segments of the index alone.
-/

open Std (ExtTreeMap)
open Contract

/-- The segment in which a block is indexed. -/
def segmentOf (index : ExtTreeMap BlockId Location) (id : BlockId) :
    Option Nat :=
  index[id]?.map Location.segment

theorem mem_iff_segmentOf
    {index : ExtTreeMap BlockId Location}
    {id : BlockId} :
    id ∈ index ↔ (segmentOf index id).isSome = true := by
  rw [ExtTreeMap.mem_iff_isSome_getElem?, segmentOf, Option.isSome_map]

/-- The dead blocks of the swapped segments are gone; all others stay. -/
def Dropped
    (live : BlockId → Bool)
    (swapped : Nat → Bool)
    (before after : ExtTreeMap BlockId Location) : Prop :=
  ∀ id,
    segmentOf after id =
      (segmentOf before id).filter fun segment =>
        live id || !swapped segment

theorem Dropped.refl
    (live : BlockId → Bool)
    (index : ExtTreeMap BlockId Location) :
    Dropped live (fun _ => false) index index := by
  intro id
  cases segmentOf index id <;> simp [Option.filter]

/-- Dropping in some segments and then in others. -/
theorem Dropped.trans
    {live : BlockId → Bool}
    {first second : Nat → Bool}
    {before middle after : ExtTreeMap BlockId Location}
    (early : Dropped live first before middle)
    (late : Dropped live second middle after) :
    Dropped live (fun segment => first segment || second segment)
      before after := by
  intro id
  rw [late, early, Option.filter_filter]
  congr
  funext segment
  cases live id <;> simp

/-- One more round. -/
theorem Dropped.succ
    {live : BlockId → Bool}
    {done : Nat}
    {before middle after : ExtTreeMap BlockId Location}
    (early :
      Dropped live (fun segment => decide (segment < done)) before middle)
    (late : Dropped live (· == done) middle after) :
    Dropped live (fun segment => decide (segment < done + 1))
      before after := by
  have bothRounds :
      (fun segment => decide (segment < done) || segment == done) =
        fun segment => decide (segment < done + 1) := by
    funext segment
    rw [Bool.eq_iff_iff]
    simp only [Bool.or_eq_true, decide_eq_true_eq, beq_iff_eq]
    omega
  rw [← bothRounds]
  exact early.trans late

/-- Which segments were swapped matters only where there are dead blocks. -/
theorem Dropped.congr
    {live : BlockId → Bool}
    {first second : Nat → Bool}
    {before after : ExtTreeMap BlockId Location}
    (dropped : Dropped live first before after)
    (same :
      ∀ id segment,
        segmentOf before id = some segment →
        live id = false →
          first segment = second segment) :
    Dropped live second before after := by
  intro id
  rw [dropped]
  cases here : segmentOf before id with
  | none =>
      rfl
  | some segment =>
      cases dead : live id with
      | true => rfl
      | false => simp [Option.filter, same id segment here dead]

/-- The blocks that are left. -/
theorem Dropped.mem_iff
    {live : BlockId → Bool}
    {swapped : Nat → Bool}
    {before after : ExtTreeMap BlockId Location}
    (dropped : Dropped live swapped before after)
    {id : BlockId} :
    id ∈ after ↔
      ∃ location : Location,
        before[id]? = some location ∧
          (live id = true ∨ swapped location.segment = false) := by
  rw [mem_iff_segmentOf, dropped]
  cases found : before[id]? <;> simp [segmentOf, found, Option.filter]

/-- Entries of one segment replace what the index said of their blocks. -/
theorem segmentOf_insertMany
    {segment : Nat}
    {moved : List (BlockId × Location)}
    (inSegment : ∀ entry ∈ moved, entry.2.segment = segment)
    (index : ExtTreeMap BlockId Location)
    (id : BlockId) :
    segmentOf (index.insertMany moved) id =
      if id ∈ moved.map Prod.fst then some segment
      else segmentOf index id := by
  induction moved generalizing index with
  | nil =>
      simp
  | cons entry rest inductionHypothesis =>
      have later := inductionHypothesis
        (fun other member => inSegment other (List.mem_cons_of_mem _ member))
        (index.insert entry.1 entry.2)
      rw [ExtTreeMap.insertMany_cons, later]
      by_cases inRest : id ∈ rest.map Prod.fst
      · simp [inRest]
      · by_cases same : entry.1 = id
        · simp [inRest, same, segmentOf, inSegment entry (by simp)]
        · have different : compare entry.1 id ≠ .eq :=
            fun equal => same (Std.LawfulEqOrd.eq_of_compare equal)
          simp [inRest, Ne.symm same, segmentOf, ExtTreeMap.getElem?_insert,
            different]

theorem segmentOf_eraseAll
    (index : ExtTreeMap BlockId Location)
    (ids : List BlockId)
    (id : BlockId) :
    segmentOf (FiniteMap.eraseAll index ids) id =
      if id ∈ ids then none else segmentOf index id := by
  rw [segmentOf, FiniteMap.getElem?_eraseAll]
  split <;> rfl

section Hash

variable (blake3 : Bytes → BlockId) {order : IterationOrder} {segment : Nat}
  {index : ExtTreeMap BlockId Location}

/-- Copy the live records of a segment and give the copy the segment's name. -/
def installRewrite
    (segment : Nat)
    (kept : List (BlockId × Location)) :
    StorageM (Nat × Nat × Nat × List (BlockId × Location)) := do
  match (← get).store.files[segment]? with
  | none => throw .panicked
  | some old =>
      truncateTemporary segment
      let temporary ← openTemporary segment
      let (offset, moved) ←
        kept.foldlM (rewriteRecord blake3 old temporary segment) (0, [])
      ioStep
      let oldLen ← fileLen old
      let handle ← openTemporary segment
      renameTemporary segment
      pure (handle, oldLen, offset, moved)

omit blake3 in
/-- Swap in a rewritten file and count what it saved. -/
def publishRewrite
    (segment : Nat)
    (dropped : List (BlockId × Location))
    (stats : CompactStats)
    (installed : Nat × Nat × Nat × List (BlockId × Location)) :
    StorageM CompactStats := do
  let (handle, oldLen, offset, moved) := installed
  modify fun node =>
    { node with
      store := node.store.swapSegment segment handle dropped moved }
  syncDir
  pure {
    segmentsRewritten := stats.segmentsRewritten + 1
    blocksDropped := stats.blocksDropped + dropped.length
    bytesReclaimed := stats.bytesReclaimed + (oldLen - offset) }

theorem rewriteSegment_eq
    (segment : Nat)
    (kept dropped : List (BlockId × Location))
    (stats : CompactStats) :
    rewriteSegment blake3 segment kept dropped stats =
      installRewrite blake3 segment kept >>=
        publishRewrite segment dropped stats := by
  unfold rewriteSegment installRewrite publishRewrite
  rw [bind_assoc]
  refine congrArg (get >>= ·) (funext fun node => ?_)
  cases node.store.files[segment]? with
  | none => rfl
  | some old => simp only [bind_assoc, pure_bind]

/-- The entries of a segment that compaction keeps or drops. -/
def segmentEntries
    (order : IterationOrder)
    (segment : Nat)
    (index : ExtTreeMap BlockId Location) : List (BlockId × Location) :=
  order.arrange (index.toList.filter fun entry => entry.2.segment = segment)

/-- Compaction up to the rename that gives a segment its new file. -/
def compactUntilRename
    (live : BlockId → Bool)
    (order : IterationOrder)
    (segment : Nat) : StorageM Unit := do
  let _ ← (List.range segment).foldlM (compactSegment blake3 live order) {}
  let index := (← get).store.index
  let _ ← installRewrite blake3 segment
    ((segmentEntries order segment index).filter fun entry => live entry.1)
  pure ()

/-- The rewrite of a segment gets as far as the rename. -/
def renameReached
    (live : BlockId → Bool)
    (order : IterationOrder)
    (node : Node)
    (segment : Nat) : Bool :=
  (execute (compactUntilRename blake3 live order segment) node).1.isOk

variable {blake3} {node : Node}

/-! ## One segment -/

theorem ends_rewriteRecord_store
    (old temporary segment : Nat)
    (rewritten : Nat × List (BlockId × Location))
    (entry : BlockId × Location) :
    Ends (rewriteRecord blake3 old temporary segment rewritten entry) node
      (fun next final =>
        final.store = node.store ∧
          ∃ location : Location,
            location.segment = segment ∧
              next.2 = rewritten.2 ++ [(entry.1, location)])
      (fun _ final => final.store = node.store) := by
  simp only [rewriteRecord]
  split
  · rfl
  · simp only [ends_bind]
    refine (keepsStore_readAt _ _ _ node).imp ?_
    intro payload read sameRead
    split
    · exact sameRead
    · simp only [ends_bind, ends_pure]
      refine (keepsStore_writeBatch _ _ read).mono ?_ ?_
      · intro _ final same
        exact ⟨same.trans sameRead, _, rfl, rfl⟩
      · intro _ final same
        exact same.trans sameRead

theorem ends_rewriteRecords_store
    (old temporary segment : Nat)
    (kept : List (BlockId × Location)) :
    Ends (kept.foldlM (rewriteRecord blake3 old temporary segment) (0, []))
      node
      (fun rewritten final =>
        final.store = node.store ∧
        rewritten.2.map Prod.fst = kept.map Prod.fst ∧
        ∀ entry ∈ rewritten.2, entry.2.segment = segment)
      (fun _ final => final.store = node.store) := by
  refine (ends_foldlM
    (fun rewritten remaining state =>
      state.store = node.store ∧
      rewritten.2.map Prod.fst ++ remaining.map Prod.fst =
        kept.map Prod.fst ∧
      ∀ entry ∈ rewritten.2, entry.2.segment = segment) ?_ ?_).imp ?_
  · rintro rewritten entry rest state ⟨same, ids, inSegment⟩
    refine (ends_rewriteRecord_store old temporary segment rewritten
      entry).mono ?_ ?_
    · rintro next final ⟨kept, location, placed, moved⟩
      refine ⟨kept.trans same, ?_, ?_⟩
      · rw [moved, ← ids]
        simp
      · rw [moved]
        intro other member
        rcases List.mem_append.mp member with before | last
        · exact inSegment other before
        · rw [List.mem_singleton.mp last]
          exact placed
    · exact fun _ _ kept => kept.trans same
  · exact ⟨rfl, rfl, by simp⟩
  · rintro rewritten final ⟨same, ids, inSegment⟩
    exact ⟨same, by simpa using ids, inSegment⟩

theorem keepsStore_truncateTemporary (segment : Nat) :
    KeepsStore (truncateTemporary segment) :=
  .bind (keepsStore_openTemporary segment) fun _ => .modify fun _ => rfl

theorem keepsStore_fileLen (handle : Nat) : KeepsStore (fileLen handle) :=
  .bind keepsStore_ioStep fun _ => .bind (keepsStore_fileOf handle) fun _ =>
    .pure _

/-- Until the rename nothing in memory has changed. -/
theorem ends_installRewrite_store
    (blake3 : Bytes → BlockId)
    (node : Node)
    (segment : Nat)
    (kept : List (BlockId × Location)) :
    Ends (installRewrite blake3 segment kept) node
      (fun installed final =>
        final.store = node.store ∧
        installed.2.2.2.map Prod.fst = kept.map Prod.fst ∧
        ∀ entry ∈ installed.2.2.2, entry.2.segment = segment)
      (fun _ final => final.store = node.store) := by
  simp only [installRewrite, ends_bind, ends_get]
  cases node.store.files[segment]? with
  | none => rfl
  | some old =>
      have failing (_ : Failure) (final : Node)
          (same : final.store = node.store) : final.store = node.store :=
        same
      simp only [ends_bind]
      refine (keepsStore_truncateTemporary segment).ends_before rfl ?_ failing
      intro _ truncated same
      refine (keepsStore_openTemporary segment).ends_before same ?_ failing
      intro temporary opened same
      refine (ends_rewriteRecords_store old temporary segment kept).mono ?_
        (fun _ _ kept => kept.trans same)
      rintro ⟨offset, moved⟩ copied ⟨keptStore, ids, inSegment⟩
      simp only
      refine keepsStore_ioStep.ends_before (keptStore.trans same) ?_ failing
      intro _ synced same
      refine (keepsStore_fileLen old).ends_before same ?_ failing
      intro oldLen measured same
      refine (keepsStore_openTemporary segment).ends_before same ?_ failing
      intro handle reopened same
      refine (keepsStore_renameTemporary segment).ends_before same ?_ failing
      intro _ renamed same
      exact ⟨same, ids, inSegment⟩

/-- The entries of a segment are those that the index has for it. -/
theorem mem_segmentEntries
    {entry : BlockId × Location} :
    entry ∈ segmentEntries order segment index ↔
      index[entry.1]? = some entry.2 ∧ entry.2.segment = segment := by
  rw [segmentEntries, (order.arrange_perm _).mem_iff, List.mem_filter,
    FiniteMap.mem_toList, decide_eq_true_iff]

/-- The identifiers of the entries that compaction keeps or drops. -/
theorem mem_ids_segmentEntries
    (select : BlockId → Bool)
    {id : BlockId} :
    id ∈ ((segmentEntries order segment index).filter
        fun entry => select entry.1).map Prod.fst ↔
      segmentOf index id = some segment ∧ select id = true := by
  simp only [List.mem_map, List.mem_filter, mem_segmentEntries, segmentOf,
    Option.map_eq_some_iff]
  constructor
  · rintro ⟨⟨listed, location⟩, ⟨⟨found, placed⟩, selected⟩, rfl⟩
    exact ⟨⟨location, found, placed⟩, selected⟩
  · rintro ⟨⟨location, found, placed⟩, selected⟩
    exact ⟨(id, location), ⟨⟨found, placed⟩, selected⟩, rfl⟩

/-- The swap drops the dead blocks of its segment from the index. -/
theorem dropped_swapSegment
    {live : BlockId → Bool}
    {store : BlockStore}
    {moved : List (BlockId × Location)}
    (ids :
      moved.map Prod.fst =
        ((segmentEntries order segment store.index).filter
          fun entry => live entry.1).map Prod.fst)
    (inSegment : ∀ entry ∈ moved, entry.2.segment = segment)
    (handle : Nat) :
    Dropped live (· == segment) store.index
      (store.swapSegment segment handle
        ((segmentEntries order segment store.index).filter
          fun entry => !live entry.1) moved).index := by
  intro id
  simp only [BlockStore.swapSegment, segmentOf_insertMany inSegment, ids,
    segmentOf_eraseAll, mem_ids_segmentEntries live,
    mem_ids_segmentEntries fun id => !live id]
  cases here : segmentOf store.index id with
  | none =>
      simp
  | some found =>
      by_cases same : found = segment
      · cases live id <;> simp [same, Option.filter]
      · simp [same, Option.filter]

/-- Whether a rewrite drops anything. -/
theorem dropped_of_noneDead
    {live : BlockId → Bool}
    (noneDead :
      ((segmentEntries order segment index).filter
        fun entry => !live entry.1) = []) :
    Dropped live (· == segment) index index := by
  intro id
  have listed : id ∉ ((segmentEntries order segment index).filter
      fun entry => !live entry.1).map Prod.fst := by
    rw [noneDead]
    exact List.not_mem_nil
  rw [mem_ids_segmentEntries fun id => !live id] at listed
  cases here : segmentOf index id with
  | none =>
      rfl
  | some found =>
      by_cases same : found = segment
      · subst same
        simpa [here, Option.filter] using listed
      · simp [same, Option.filter]

/--
Compacting a segment drops its dead blocks, unless it fails before the
rename: then the index is unchanged.
-/
theorem ends_compactSegment_index
    (live : BlockId → Bool)
    (order : IterationOrder)
    (stats : CompactStats)
    (segment : Nat) :
    let kept := (segmentEntries order segment node.store.index).filter
      fun entry => live entry.1
    let renamed :=
      (execute (installRewrite blake3 segment kept) node).1.isOk = true
    Ends (compactSegment blake3 live order stats segment) node
      (fun next final =>
        Dropped live (· == segment) node.store.index final.store.index ∧
        (∀ id, segmentOf node.store.index id = some segment →
          live id = false →
            renamed ∧ stats.blocksDropped < next.blocksDropped) ∧
        stats.blocksDropped ≤ next.blocksDropped)
      (fun _ final =>
        (renamed →
          Dropped live (· == segment) node.store.index final.store.index) ∧
        (¬ renamed → final.store.index = node.store.index)) := by
  intro kept renamed
  have contract := ends_installRewrite_store blake3 node segment kept
  simp only [compactSegment, ends_bind, ends_get]
  split
  · rename_i nothingDead
    have unchanged : Dropped live (· == segment) node.store.index node.store.index :=
      dropped_of_noneDead (List.isEmpty_iff.mp nothingDead)
    refine ⟨unchanged, ?_, Nat.le_refl _⟩
    intro id here dead
    have gone := unchanged id
    simp [here, dead, Option.filter] at gone
  · rename_i someDead
    rw [rewriteSegment_eq, ends_bind]
    rcases ran : execute (installRewrite blake3 segment kept) node with
      ⟨error | ⟨handle, oldLen, offset, moved⟩, middle⟩
    · rw [ends_of_error ran] at contract
      have stopped : ¬ renamed := by
        simp [renamed, ran, Except.isOk, Except.toBool]
      refine (ends_of_error ran).mpr ⟨fun reached => absurd reached stopped, ?_⟩
      exact fun _ => congrArg BlockStore.index contract
    · rw [ends_of_ok ran] at contract
      obtain ⟨same, ids, inSegment⟩ := contract
      have reached : renamed := by
        simp [renamed, ran, Except.isOk, Except.toBool]
      have swapped := dropped_swapSegment ids inSegment handle
      rw [← same] at swapped
      have counted := List.length_pos_iff.mpr
        (mt List.isEmpty_iff.mpr someDead)
      refine (ends_of_ok ran).mpr ?_
      simp only [publishRewrite, ends_bind, ends_modify, syncDir]
      refine ends_ioStep ?_ ?_
      · intro fault
        refine ⟨same ▸ swapped, fun _ _ _ => ⟨reached, ?_⟩, ?_⟩
        · exact Nat.lt_add_of_pos_right counted
        · exact Nat.le_add_right _ _
      · exact ⟨fun _ => same ▸ swapped, fun stopped => absurd reached stopped⟩

/-! ## All segments -/

section Rounds

variable {live : BlockId → Bool} {stats : CompactStats}

/-- Once the rounds before it are done, a rename depends on its own round. -/
theorem renameReached_of_ok
    {segment : Nat}
    {middle : Node}
    (ok :
      execute
          ((List.range segment).foldlM (compactSegment blake3 live order) {})
          node =
        (.ok stats, middle)) :
    renameReached blake3 live order node segment =
      (execute
        (installRewrite blake3 segment
          ((segmentEntries order segment middle.store.index).filter
            fun entry => live entry.1)) middle).1.isOk := by
  rw [renameReached, compactUntilRename, execute_bind, ok]
  simp only [execute_bind, execute_get, execute_pure]
  rcases execute (installRewrite blake3 segment _) middle with
    ⟨error | installed, final⟩ <;> rfl

/-- A round that fails keeps the later renames from happening. -/
theorem renameReached_of_error
    {segment : Nat}
    {error : Failure}
    {middle : Node}
    (failure :
      execute
          ((List.range segment).foldlM (compactSegment blake3 live order) {})
          node =
        (.error error, middle)) :
    renameReached blake3 live order node segment = false := by
  rw [renameReached, compactUntilRename, execute_bind, failure]
  rfl

/-- The rounds of a compaction that were completed. -/
theorem ends_compactRounds
    (count : Nat) :
    Ends ((List.range count).foldlM (compactSegment blake3 live order) {})
      node
      (fun stats final =>
        Dropped live (fun segment => decide (segment < count))
          node.store.index final.store.index ∧
        (stats.blocksDropped = 0 →
          ∀ id, id ∈ node.store.index → id ∈ final.store.index))
      (fun _ _ => True) := by
  refine ends_foldlM_range
    (fun done (stats : CompactStats) (state : Node) =>
      Dropped live (fun segment => decide (segment < done))
        node.store.index state.store.index ∧
      (stats.blocksDropped = 0 →
        ∀ id, id ∈ node.store.index → id ∈ state.store.index)) ?_ ?_
  · rintro segment stats state within ⟨dropped, noneLost⟩
    refine (ends_compactSegment_index live order stats segment).mono ?_
      (fun _ _ _ => trivial)
    rintro next final ⟨round, counted, grows⟩
    constructor
    · exact dropped.succ round
    · intro none id indexed
      have before := noneLost (by omega) id indexed
      rw [round.mem_iff]
      rw [ExtTreeMap.mem_iff_isSome_getElem?, Option.isSome_iff_exists]
        at before
      obtain ⟨location, found⟩ := before
      refine ⟨location, found, ?_⟩
      by_contra lost
      simp only [not_or, Bool.not_eq_true, beq_eq_false_iff_ne, ne_eq,
        not_not] at lost
      have more := (counted id (by simp [segmentOf, found, lost.2]) lost.1).2
      omega
  · refine ⟨?_, fun _ _ indexed => indexed⟩
    simpa using Dropped.refl live node.store.index

/-- A round that returned has renamed, if there was something to drop. -/
theorem renameReached_of_round
    {segment total : Nat}
    (within : segment < total)
    {final : Node}
    (ok :
      execute
          ((List.range total).foldlM (compactSegment blake3 live order) {})
          node =
        (.ok stats, final))
    {id : BlockId}
    (here : segmentOf node.store.index id = some segment)
    (dead : live id = false) :
    renameReached blake3 live order node segment = true := by
  obtain ⟨earlier, middle, before⟩ := foldlM_range_ok_of_le within.le ok
  obtain ⟨later, after, round⟩ :=
    foldlM_range_ok_of_le (Nat.succ_le_of_lt within) ok
  rw [execute_foldlM_range_succ, before] at round
  have stays : segmentOf middle.store.index id = some segment := by
    have dropped := ((ends_of_ok before).mp (ends_compactRounds segment)).1
    rw [dropped id, here]
    simp [Option.filter]
  rw [renameReached_of_ok before]
  exact (((ends_of_ok round).mp
    (ends_compactSegment_index live order earlier segment)).2.1 id stays
      dead).1

/-- The rounds after one that failed do not take place. -/
theorem renameReached_of_later
    {failing segment : Nat}
    (later : failing < segment)
    {middle final : Node}
    {error : Failure}
    (ok :
      execute
          ((List.range failing).foldlM (compactSegment blake3 live order) {})
          node =
        (.ok stats, middle))
    (failure :
      execute (compactSegment blake3 live order stats failing) middle =
        (.error error, final)) :
    renameReached blake3 live order node segment = false := by
  rcases ran :
      execute
        ((List.range segment).foldlM (compactSegment blake3 live order) {})
        node with
    ⟨other | result, reached⟩
  · exact renameReached_of_error ran
  · obtain ⟨count, state, returned⟩ :=
      foldlM_range_ok_of_le (Nat.succ_le_of_lt later) ran
    rw [execute_foldlM_range_succ, ok] at returned
    simp only [failure] at returned
    cases returned

/--
Compaction that fails has dropped the dead blocks of the segments whose
rename was reached.  If it returns and reports none, it has dropped none.
-/
theorem ends_compact_index
    (live : BlockId → Bool)
    (order : IterationOrder) :
    Ends (compact blake3 live order) node
      (fun stats final =>
        stats.blocksDropped = 0 →
          ∀ id, id ∈ node.store.index → id ∈ final.store.index)
      (fun _ final =>
        Dropped live (renameReached blake3 live order node)
          node.store.index final.store.index) := by
  simp only [compact, ends_bind, ends_get]
  generalize node.store.files.length - 1 = sealedCount
  rcases ran :
      execute
        ((List.range sealedCount).foldlM
          (compactSegment blake3 live order) {}) node with
    ⟨error | stats, final⟩
  · refine (ends_of_error ran).mpr ?_
    obtain ⟨failing, stats, middle, -, ok, failure⟩ := foldlM_range_error ran
    have dropped := ((ends_of_ok ok).mp (ends_compactRounds failing)).1
    obtain ⟨renamed, unrenamed⟩ := (ends_of_error failure).mp
      (ends_compactSegment_index live order stats failing)
    rw [← renameReached_of_ok ok] at renamed unrenamed
    have swapped :
        Dropped live
          (fun segment => decide (segment < failing) ||
            (segment == failing &&
              renameReached blake3 live order node failing))
          node.store.index final.store.index := by
      cases reached : renameReached blake3 live order node failing with
      | true => simpa using dropped.trans (renamed reached)
      | false =>
          rw [unrenamed (by simp [reached])]
          simpa using dropped
    refine swapped.congr ?_
    intro id segment here dead
    rcases Nat.lt_trichotomy segment failing with earlier | rfl | later
    · simp [earlier, renameReached_of_round earlier ok here dead]
    · simp
    · simp [renameReached_of_later later ok failure, later.ne', later.le]
  · refine (ends_of_ok ran).mpr ?_
    exact ((ends_of_ok ran).mp (ends_compactRounds sealedCount)).2

end Rounds

end Hash

end KalpakDb
