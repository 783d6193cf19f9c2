import KalpakDb.CompactionIndex
import KalpakDb.StoreRefinement
import KalpakDb.TieredReads

namespace KalpakDb

/-!
# The memory tiers and the cold index

Every call but compaction leaves the resident blocks indexed.  Compaction
sweeps the tiers only after the cold store has returned, so a compaction that
fails after the swap of a segment leaves the dead blocks of that segment in
memory.  The tiers stay within the index exactly if this never happens.
-/

open Std (ExtTreeMap)
open Contract

section Hash

variable {blake3 : Bytes → BlockId} {node : TieredNode}

/-- Every block in memory is in the cold index. -/
def TieredNode.Backed (node : TieredNode) : Prop :=
  ∀ id bytes, node.tiers.Resident id bytes → id ∈ node.cold.store.index

/--
If compaction fails, it fails before the rename of every segment with a dead
block that is in memory.
-/
def StopsInTime
    (blake3 : Bytes → BlockId)
    (node : TieredNode)
    (live : BlockId → Bool)
    (order : IterationOrder) : Prop :=
  (execute (compact blake3 live order) node.cold).1.isOk = false →
    ∀ id bytes,
      node.tiers.Resident id bytes →
      live id = false →
        ∀ location : Location,
          node.cold.store.index[id]? = some location →
            renameReached blake3 live order node.cold location.segment =
              false

/-- A block that is read through backed tiers is one the store contains. -/
theorem TieredNode.Backed.ends_getBlock
    (backed : node.Backed)
    (fault : Option Fault)
    (id : BlockId) :
    Ends (TieredStore.getBlock blake3 id) (node.withFault fault)
      (fun _ _ => TieredStore.contains node id = true)
      (fun _ _ => True) := by
  by_cases quarantined : node.tiers.quarantined.contains id = true
  · have refused : (node.withFault fault).tiers.quarantined.contains id =
        true := quarantined
    simp only [TieredStore.getBlock, ends_bind, ends_get, refused, if_true,
      ends_throw]
  · refine (TieredStore.ends_getBlock id).mono ?_ (fun _ _ _ => trivial)
    rintro bytes final ⟨source, -, same⟩
    have indexed : id ∈ node.cold.store.index := by
      rcases source with resident | ⟨-, found⟩
      · exact backed id bytes resident
      · rw [same] at found
        exact found
    simp [TieredStore.contains, quarantined, indexed]

/-- A compaction keeps the tiers backed exactly if it stops in time. -/
theorem TieredNode.Backed.compact_iff
    (backed : node.Backed)
    (live : BlockId → Bool)
    (order : IterationOrder) :
    ((TieredOp.compact live order).perform blake3 node).Backed ↔
      StopsInTime blake3 node live order := by
  have contract :
      Ends (compact blake3 live order) node.cold _ _ :=
    ends_compact_index live order
  have ends :
      Ends (TieredStore.compact blake3 live order) node
        (fun _ final => final.Backed ↔ StopsInTime blake3 node live order)
        (fun _ final =>
          final.Backed ↔ StopsInTime blake3 node live order) := by
    simp only [TieredStore.compact, onCold, ends_bind, ends_within]
    rcases ran : execute (compact blake3 live order) node.cold with
      ⟨error | stats, cold⟩
    · rw [ends_of_error ran] at contract ⊢
      have failed : (execute (compact blake3 live order) node.cold).1.isOk =
          false := by
        rw [ran]
        rfl
      constructor
      · intro after _ id bytes resident dead location found
        obtain ⟨other, same, alive | unreached⟩ :=
          contract.mem_iff.mp (after id bytes resident)
        · rw [dead] at alive
          cases alive
        · rw [found] at same
          cases same
          exact unreached
      · intro inTime id bytes resident
        have indexed := backed id bytes resident
        rw [ExtTreeMap.mem_iff_isSome_getElem?, Option.isSome_iff_exists]
          at indexed
        obtain ⟨location, found⟩ := indexed
        refine contract.mem_iff.mpr ⟨location, found, ?_⟩
        cases alive : live id with
        | true => exact Or.inl rfl
        | false =>
            exact Or.inr
              (inTime failed id bytes resident alive location found)
    · rw [ends_of_ok ran] at contract ⊢
      have returned : StopsInTime blake3 node live order := by
        intro failed
        rw [ran] at failed
        cases failed
      split
      · simp only [ends_bind, ends_modify, ends_pure]
        refine iff_of_true ?_ returned
        intro id bytes resident
        exact ExtTreeMap.contains_iff_mem.mp
          (TieredStore.resident_of_sweep resident).2
      · rename_i noneDropped
        refine iff_of_true ?_ returned
        intro id bytes resident
        exact contract (by omega) id (backed id bytes resident)
  exact ends.final

/-- One event of a history keeps the tiers backed, compaction in its case. -/
theorem TieredNode.Backed.step_iff
    (backed : node.Backed)
    (event : TierEvent) :
    (stepTier blake3 node event).Backed ↔
      ∀ fault live order,
        event = .call fault (.compact live order) →
          StopsInTime blake3 (node.withFault fault) live order := by
  cases event with
  | call fault op =>
      have start : (node.withFault fault).Backed := backed
      by_cases compaction : ∃ live order, op = .compact live order
      · obtain ⟨live, order, rfl⟩ := compaction
        rw [stepTier, start.compact_iff]
        constructor
        · rintro inTime _ _ _ ⟨⟩
          exact inTime
        · exact fun inTime => inTime fault live order rfl
      · refine iff_of_true ?_ ?_
        · have extended :
              (node.withFault fault).Extends blake3
                (op.perform blake3 (node.withFault fault)) :=
            op.perform_extends
              fun live order same => compaction ⟨live, order, same⟩
          obtain ⟨admits, keeps⟩ := extended
          intro id bytes resident
          rcases admits id bytes resident with before | ⟨-, indexed⟩
          · exact keeps id (start id bytes before)
          · exact indexed
        · rintro _ live order ⟨⟩
          exact absurd ⟨live, order, rfl⟩ compaction
  | tamper handle file =>
      exact iff_of_true backed (by rintro _ _ _ ⟨⟩)
  | reopen fault rollBytes warmBudget =>
      exact iff_of_true
        (fun id bytes resident => absurd resident TieredStore.resident_new)
        (by rintro _ _ _ ⟨⟩)

/--
The tiers hold only indexed blocks, and reads succeed only for blocks that
the store contains, in every state of a history if and only if each of its
compactions that fails does so before a block in memory is dropped.
-/
theorem tiers_backed_iff
    (blake3 : Bytes → BlockId)
    (cold : Node)
    (warmBudget : Nat)
    (events : List TierEvent) :
    (∀ position,
      let node := StepRun.before (stepTier blake3) ⟨.new warmBudget, cold⟩
        events position
      node.Backed ∧
        ∀ fault id,
          Ends (TieredStore.getBlock blake3 id) (node.withFault fault)
            (fun _ _ => TieredStore.contains node id = true)
            (fun _ _ => True)) ↔
      ∀ position fault live order,
        events[position]? = some (.call fault (.compact live order)) →
          StopsInTime blake3
            ((StepRun.before (stepTier blake3) ⟨.new warmBudget, cold⟩
              events position).withFault fault) live order := by
  constructor
  · intro holds position fault live order present
    have after := (holds (position + 1)).1
    rw [StepRun.before_succ present, (holds position).1.step_iff] at after
    exact after fault live order rfl
  · intro inTime position
    have backed : (StepRun.before (stepTier blake3) ⟨.new warmBudget, cold⟩
        events position).Backed := by
      refine StepRun.holds_before TieredNode.Backed ?_ ?_ position
      · exact fun id bytes resident =>
          absurd resident TieredStore.resident_new
      · intro position event present before
        rw [before.step_iff]
        rintro fault live order rfl
        exact inTime position fault live order present
    exact ⟨backed, fun fault id => backed.ends_getBlock fault id⟩

end Hash

/-- Three blocks in three segments; the second rewrite cannot be started. -/
def interruptedSweep : List TierEvent :=
  [.call none (.put oneByte), .call none (.put zeroByte),
    .call none (.put zeroPages),
    .call (some ⟨7, 0⟩) (.compact (fun _ => false) .sorted)]

/--
The first segment was already swapped, so its block is in memory only: it is
read although the store does not contain it.
-/
theorem dropped_block_still_served :
    let node := StepRun.after (stepTier sampleBlake3)
      ⟨.new 65536, (execute (openWithRoll 4096) {}).2⟩ interruptedSweep
    (execute (TieredStore.getBlock sampleBlake3 (sampleBlake3 [1])) node).1 =
        .ok [1] ∧
      node.tiers.quarantined.contains (sampleBlake3 [1]) = false ∧
      node.cold.store.index.contains (sampleBlake3 [1]) = false ∧
      TieredStore.contains node (sampleBlake3 [1]) = false := by
  decide +kernel

end KalpakDb
