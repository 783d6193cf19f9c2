import KalpakDb.StepRun
import KalpakDb.StoreCalls
import KalpakDb.TieredStore

namespace KalpakDb

/-!
# What the memory tiers hold

Bytes enter the warm cache and the pinned map from uploads, repairs and cold
reads.  Each of these leaves behind bytes with the right digest, of a block
that is then in the cold index.  Since the tiers never change what they hold,
no reader is ever given wrong bytes, whatever happens to the files.
-/

open Std (ExtTreeMap)
open Contract

/-! ## Residents -/

namespace TieredStore

variable {tiers : TieredStore}

/-- The tiers hold these bytes for a block. -/
def Resident (tiers : TieredStore) (id : BlockId) (bytes : Bytes) : Prop :=
  tiers.pinned[id]? = some bytes ∨ tiers.warm[id]? = some bytes

theorem resident_new
    {warmBudget : Nat}
    {id : BlockId}
    {bytes : Bytes} :
    ¬ (TieredStore.new warmBudget).Resident id bytes := by
  simp [Resident, TieredStore.new]

/-- An insertion is the last one for its address. -/
theorem resident_of_warmInsert
    {id other : BlockId}
    {payload bytes : Bytes}
    (resident : (tiers.warmInsert id payload).Resident other bytes) :
    tiers.Resident other bytes ∨ other = id ∧ bytes = payload := by
  unfold warmInsert at resident
  split at resident
  · rcases resident with pinned | warm
    · exact Or.inl (Or.inl pinned)
    · rw [ExtTreeMap.getElem?_insert] at warm
      split at warm
      · rename_i same
        cases warm
        exact Or.inr ⟨(Std.LawfulEqOrd.eq_of_compare same).symm, rfl⟩
      · exact Or.inl (Or.inr warm)
  · exact Or.inl resident

/-- A batch of insertions. -/
theorem resident_of_warmInserts
    {entries : List (BlockId × Payload)}
    {id : BlockId}
    {bytes : Bytes}
    (resident :
      (entries.foldl
        (fun tiers entry => tiers.warmInsert entry.1 entry.2.bytes)
        tiers).Resident id bytes) :
    tiers.Resident id bytes ∨
      ∃ payload, (id, payload) ∈ entries ∧ bytes = payload.bytes := by
  induction entries generalizing tiers with
  | nil =>
      exact Or.inl resident
  | cons entry rest inductionHypothesis =>
      rcases inductionHypothesis resident with earlier | later
      · rcases resident_of_warmInsert earlier with before | ⟨same, equal⟩
        · exact Or.inl before
        · exact Or.inr ⟨entry.2, by simp [same], equal⟩
      · obtain ⟨payload, member, equal⟩ := later
        exact Or.inr ⟨payload, List.mem_cons_of_mem _ member, equal⟩

@[simp] theorem warm_unpin (id : BlockId) :
    (tiers.unpin id).warm = tiers.warm := by
  unfold unpin
  split <;> rfl

theorem pinned_unpin (id other : BlockId) :
    (tiers.unpin id).pinned[other]? =
      if other = id then none else tiers.pinned[other]? := by
  unfold unpin
  cases found : tiers.pinned[id]? with
  | none =>
      by_cases same : other = id
      · simp [same, found]
      · simp [same]
  | some payload =>
      simp only [ExtTreeMap.getElem?_erase, Std.compare_eq_iff_eq,
        eq_comm (a := id)]

theorem resident_of_unpin
    {id other : BlockId}
    {bytes : Bytes}
    (resident : (tiers.unpin id).Resident other bytes) :
    tiers.Resident other bytes := by
  rw [Resident, pinned_unpin, warm_unpin] at resident
  refine resident.imp_left ?_
  split
  · exact fun impossible => nomatch impossible
  · exact fun pinned => pinned

theorem resident_of_evict
    {ids : List BlockId}
    {id : BlockId}
    {bytes : Bytes}
    (resident : (tiers.evict ids).Resident id bytes) :
    tiers.Resident id bytes ∧ (id ∈ ids → tiers.pinned[id]? = some bytes) := by
  rcases resident with pinned | warm
  · exact ⟨Or.inl pinned, fun _ => pinned⟩
  · rw [evict, FiniteMap.getElem?_eraseAll] at warm
    split at warm
    · cases warm
    · rename_i kept
      exact ⟨Or.inr warm, fun evicted => absurd evicted kept⟩

theorem resident_of_quarantine
    {id other : BlockId}
    {bytes : Bytes}
    (resident : (tiers.quarantine id).Resident other bytes) :
    tiers.Resident other bytes := by
  rcases resident_of_unpin resident with pinned | warm
  · exact Or.inl pinned
  · rw [ExtTreeMap.getElem?_erase] at warm
    split at warm
    · cases warm
    · exact Or.inr warm

/-- Unpinning several blocks keeps the others and the warm cache. -/
theorem unpins
    (ids : List BlockId)
    (tiers : TieredStore) :
    (ids.foldl unpin tiers).warm = tiers.warm ∧
      ∀ id,
        (ids.foldl unpin tiers).pinned[id]? =
          if id ∈ ids then none else tiers.pinned[id]? := by
  induction ids generalizing tiers with
  | nil =>
      simp
  | cons first rest inductionHypothesis =>
      obtain ⟨warm, pinned⟩ := inductionHypothesis (tiers.unpin first)
      refine ⟨warm.trans (warm_unpin first), ?_⟩
      intro id
      rw [List.foldl_cons, pinned, pinned_unpin]
      by_cases later : id ∈ rest
      · simp [later]
      · simp [later]

/-- A sweep leaves only blocks that the cold store backs. -/
theorem resident_of_sweep
    {backed : BlockId → Bool}
    {id : BlockId}
    {bytes : Bytes}
    (resident : (tiers.sweep backed).Resident id bytes) :
    tiers.Resident id bytes ∧ backed id = true := by
  obtain ⟨sameWarm, pinnedAfter⟩ :=
    unpins (tiers.pinned.keys.filter fun id => !backed id) tiers
  have kept
      {map : ExtTreeMap BlockId Bytes}
      (found :
        (if id ∈ map.keys.filter fun id => !backed id then none
          else map[id]?) = some bytes) :
      map[id]? = some bytes ∧ backed id = true := by
    split at found
    · cases found
    · rename_i notDead
      refine ⟨found, ?_⟩
      by_contra unbacked
      refine notDead (List.mem_filter.mpr ⟨?_, by simpa using unbacked⟩)
      rw [ExtTreeMap.mem_keys, ExtTreeMap.mem_iff_isSome_getElem?, found]
      rfl
  rcases resident with pinned | warm
  · simp only [sweep, evict] at pinned
    rw [pinnedAfter] at pinned
    exact (kept pinned).imp_left Or.inl
  · simp only [sweep, evict, sameWarm, FiniteMap.getElem?_eraseAll] at warm
    exact (kept warm).imp_left Or.inr

end TieredStore

/-! ## What a call changes -/

/-- New residents were verified, and their blocks are in the cold index. -/
def TieredNode.Admits
    (blake3 : Bytes → BlockId)
    (node final : TieredNode) : Prop :=
  ∀ id bytes,
    final.tiers.Resident id bytes →
      node.tiers.Resident id bytes ∨
        blake3 bytes = id ∧ id ∈ final.cold.store.index

/-- No block leaves the cold index. -/
def TieredNode.KeepsIndex (node final : TieredNode) : Prop :=
  ∀ id, id ∈ node.cold.store.index → id ∈ final.cold.store.index

section Calls

variable {blake3 : Bytes → BlockId} {node : TieredNode}

/-- The tiers stay as they are while the cold index changes. -/
theorem TieredNode.admits_cold
    (cold : Node) :
    node.Admits blake3 { node with cold := cold } :=
  fun _ _ resident => Or.inl resident

theorem TieredStore.ends_getBlock
    (id : BlockId) :
    Ends (TieredStore.getBlock blake3 id) node
      (fun bytes final =>
        (node.tiers.Resident id bytes ∨
          blake3 bytes = id ∧ id ∈ final.cold.store.index) ∧
        node.Admits blake3 final ∧
        final.cold.store = node.cold.store)
      (fun _ final =>
        node.Admits blake3 final ∧
        final.cold.store = node.cold.store) := by
  simp only [TieredStore.getBlock, ends_bind, ends_get]
  split
  · exact ⟨TieredNode.admits_cold node.cold, rfl⟩
  · cases pinned : node.tiers.pinned[id]? with
    | some payload =>
        exact ⟨Or.inl (Or.inl pinned), TieredNode.admits_cold node.cold, rfl⟩
    | none =>
        simp only
        cases warm : node.tiers.warm[id]? with
        | some payload =>
            exact ⟨Or.inl (Or.inr warm), TieredNode.admits_cold node.cold,
              rfl⟩
        | none =>
            simp only [onCold, ends_bind, ends_within, changeTiers,
              ends_modify, ends_pure]
            refine (ends_getBlock_any blake3 node.cold id).mono ?_ ?_
            · rintro bytes cold ⟨digest, indexed, fault, rfl⟩
              refine ⟨Or.inr ⟨digest, indexed⟩, ?_, rfl⟩
              intro other held resident
              rcases TieredStore.resident_of_warmInsert resident with
                before | ⟨rfl, rfl⟩
              · exact Or.inl before
              · exact Or.inr ⟨digest, indexed⟩
            · rintro error cold ⟨-, fault, rfl⟩
              exact ⟨TieredNode.admits_cold _, rfl⟩

/-- A call admits verified residents and loses no block of the index. -/
def TieredNode.Extends
    (blake3 : Bytes → BlockId)
    (node final : TieredNode) : Prop :=
  node.Admits blake3 final ∧ node.KeepsIndex final

theorem TieredNode.extends_of_sameStore
    {final : TieredNode}
    (admits : node.Admits blake3 final)
    (same : final.cold.store = node.cold.store) :
    node.Extends blake3 final :=
  ⟨admits, fun _ indexed => by rwa [same]⟩

theorem TieredNode.extends_of_sameIndex
    {cold : Node}
    (same : cold.store.index = node.cold.store.index) :
    node.Extends blake3 { node with cold := cold } :=
  ⟨admits_cold cold, fun _ indexed => by rwa [same]⟩

theorem TieredStore.ends_pin
    (id : BlockId) :
    Ends (TieredStore.pin blake3 id) node
      (fun _ final => node.Extends blake3 final)
      (fun _ final => node.Extends blake3 final) := by
  simp only [TieredStore.pin, ends_bind, ends_get]
  split
  · exact TieredNode.extends_of_sameIndex rfl
  · simp only [ends_bind]
    refine (TieredStore.ends_getBlock id).mono ?_ ?_
    · rintro bytes read ⟨source, admits, same⟩
      have unchanged := TieredNode.extends_of_sameStore admits same
      simp only [ends_get]
      split
      · exact unchanged
      · split
        · exact unchanged
        · simp only [changeTiers, ends_bind, ends_modify, ends_pure]
          refine TieredNode.extends_of_sameStore ?_ same
          rintro other held (pinned | warm)
          · rw [ExtTreeMap.getElem?_insert] at pinned
            split at pinned
            · rename_i equal
              cases pinned
              cases Std.LawfulEqOrd.eq_of_compare equal
              exact source
            · exact admits other held (Or.inl pinned)
          · exact admits other held (Or.inr warm)
    · rintro error final ⟨admits, same⟩
      exact TieredNode.extends_of_sameStore admits same

theorem TieredStore.ends_put
    (payload : Payload) :
    Ends (TieredStore.put blake3 payload) node
      (fun _ final => node.Extends blake3 final)
      (fun _ final => node.Extends blake3 final) := by
  simp only [TieredStore.put, onCold, ends_bind, ends_within, changeTiers,
    ends_modify, ends_pure]
  refine (ends_put_any payload).mono ?_ ?_
  · rintro _ cold ⟨rfl, published⟩
    refine ⟨?_, fun id indexed => (published id).mpr (Or.inl indexed)⟩
    intro id bytes resident
    rcases TieredStore.resident_of_warmInsert resident with
      before | ⟨rfl, rfl⟩
    · exact Or.inl before
    · exact Or.inr ⟨rfl, (published _).mpr (Or.inr rfl)⟩
  · intro error cold same
    exact TieredNode.extends_of_sameIndex same

theorem TieredStore.zip_digests (payloads : List Payload) :
    (payloads.map fun payload => blake3 payload.bytes).zip payloads =
      payloads.map fun payload => (blake3 payload.bytes, payload) := by
  nth_rewrite 2 [← List.map_id payloads]
  exact List.zip_map'

theorem TieredStore.ends_putMany
    (payloads : List Payload) :
    Ends (TieredStore.putMany blake3 payloads) node
      (fun _ final => node.Extends blake3 final)
      (fun _ final => node.Extends blake3 final) := by
  simp only [TieredStore.putMany, onCold, ends_bind, ends_within,
    changeTiers, ends_modify, ends_pure]
  refine (ends_putManyInner_any payloads false).mono ?_ ?_
  · rintro _ cold ⟨rfl, published⟩
    refine ⟨?_, fun id indexed => (published id).mpr (Or.inl indexed)⟩
    intro added bytes resident
    rcases TieredStore.resident_of_warmInserts resident with
      before | ⟨payload, member, rfl⟩
    · exact Or.inl before
    · have listed := (List.of_mem_zip member).1
      rw [TieredStore.zip_digests, List.mem_map] at member
      obtain ⟨found, -, same⟩ := member
      cases same
      exact Or.inr ⟨rfl, (published _).mpr (Or.inr listed)⟩
  · intro error cold same
    exact TieredNode.extends_of_sameIndex same

theorem TieredStore.ends_verifyCold
    (id : BlockId) :
    Ends (TieredStore.verifyCold blake3 id) node
      (fun _ final => node.Extends blake3 final)
      (fun _ final => node.Extends blake3 final) := by
  simp only [TieredStore.verifyCold, onCold, ends_bind, ends_observe,
    ends_within]
  refine (ends_getBlock_any blake3 node.cold id).mono ?_ ?_
  · rintro bytes cold ⟨-, -, fault, rfl⟩
    simp only [changeTiers, ends_modify]
    exact TieredNode.extends_of_sameStore (TieredNode.admits_cold _) rfl
  · rintro error cold ⟨-, fault, rfl⟩
    have unchanged :
        node.Extends blake3
          { node with cold := { node.cold with fault := fault } } :=
      TieredNode.extends_of_sameIndex rfl
    have removed :
        node.Extends blake3
          { tiers := node.tiers.quarantine id
            cold := { node.cold with fault := fault } } :=
      TieredNode.extends_of_sameStore
        (fun _ _ resident =>
          Or.inl (TieredStore.resident_of_quarantine resident)) rfl
    cases error with
    | blockNotFound missing => exact unchanged
    | panicked => exact unchanged
    | diverged => exact unchanged
    | corrupt found => exact removed
    | io failure => exact removed

theorem TieredStore.ends_repair
    (id : BlockId)
    (payload : Payload) :
    Ends (TieredStore.repair blake3 id payload) node
      (fun _ final => node.Extends blake3 final)
      (fun _ final => node.Extends blake3 final) := by
  simp only [TieredStore.repair, onCold, ends_bind, ends_within,
    changeTiers, ends_modify, ends_pure]
  refine (ends_repair_any id payload).mono ?_ ?_
  · rintro _ cold ⟨digest, published⟩
    refine ⟨?_, fun id indexed => (published id).mpr (Or.inl indexed)⟩
    intro other bytes resident
    rcases TieredStore.resident_of_warmInsert resident with
      before | ⟨rfl, rfl⟩
    · exact Or.inl before
    · exact Or.inr ⟨digest, (published _).mpr (Or.inr rfl)⟩
  · intro error cold same
    exact TieredNode.extends_of_sameIndex same

/-- Compaction only takes residents away. -/
theorem TieredStore.ends_compact
    (live : BlockId → Bool)
    (order : IterationOrder) :
    Ends (TieredStore.compact blake3 live order) node
      (fun _ final => node.Admits blake3 final)
      (fun _ final => node.Admits blake3 final) := by
  simp only [TieredStore.compact, onCold, ends_bind, ends_within]
  refine (ends_trivial (KalpakDb.compact blake3 live order)
    node.cold).mono ?_ ?_
  · intro stats cold _
    split
    · simp only [ends_bind, ends_modify, ends_pure]
      intro id bytes resident
      exact Or.inl (TieredStore.resident_of_sweep resident).1
    · exact TieredNode.admits_cold cold
  · intro error cold _
    exact TieredNode.admits_cold cold

/-- Every operation but compaction extends what it finds. -/
theorem TieredOp.perform_extends
    (op : TieredOp)
    (notCompaction : ∀ live order, op ≠ .compact live order) :
    node.Extends blake3 (op.perform blake3 node) := by
  cases op with
  | put payload => exact (TieredStore.ends_put payload).final
  | putMany payloads => exact (TieredStore.ends_putMany payloads).final
  | get id =>
      have ends :
          Ends (TieredStore.getBlock blake3 id) node
            (fun _ final => node.Extends blake3 final)
            (fun _ final => node.Extends blake3 final) :=
        (TieredStore.ends_getBlock id).mono
          (fun _ _ read => TieredNode.extends_of_sameStore read.2.1 read.2.2)
          (fun _ _ read => TieredNode.extends_of_sameStore read.1 read.2)
      exact ends.final
  | pin id => exact (TieredStore.ends_pin id).final
  | verifyCold id => exact (TieredStore.ends_verifyCold id).final
  | repair id payload => exact (TieredStore.ends_repair id payload).final
  | compact live order => exact absurd rfl (notCompaction live order)
  | evict ids =>
      exact TieredNode.extends_of_sameStore
        (fun _ _ resident =>
          Or.inl (TieredStore.resident_of_evict resident).1) rfl

theorem TieredOp.perform_admits (op : TieredOp) :
    node.Admits blake3 (op.perform blake3 node) := by
  by_cases compaction : ∃ live order, op = .compact live order
  · obtain ⟨live, order, rfl⟩ := compaction
    exact (TieredStore.ends_compact live order).final
  · refine (op.perform_extends ?_).1
    intro live order same
    exact compaction ⟨live, order, same⟩

end Calls

/-! ## Reads are verified, whatever happens to the files -/

/--
A call with some I/O failure ahead of it, a change of a segment file by
someone else, or a new process on the same directory.
-/
inductive TierEvent where
  | call (fault : Option Fault) (op : TieredOp)
  | tamper (handle : Nat) (file : SegmentFile)
  | reopen (fault : Option Fault) (rollBytes warmBudget : Nat)

def stepTier
    (blake3 : Bytes → BlockId)
    (node : TieredNode) : TierEvent → TieredNode
  | .call fault op => op.perform blake3 (node.withFault fault)
  | .tamper handle file =>
      { node with cold := node.cold.setFile handle file }
  | .reopen fault rollBytes warmBudget => {
      tiers := .new warmBudget
      cold := (execute (openWithRoll rollBytes)
        { disk := node.cold.disk, fault := fault }).2 }

/-- The tiers hold nothing but verified bytes. -/
def TieredStore.Verified
    (blake3 : Bytes → BlockId)
    (tiers : TieredStore) : Prop :=
  ∀ id bytes, tiers.Resident id bytes → blake3 bytes = id

section Runs

variable {blake3 : Bytes → BlockId} {node : TieredNode}

theorem stepTier_verified
    (verified : node.tiers.Verified blake3)
    (event : TierEvent) :
    (stepTier blake3 node event).tiers.Verified blake3 := by
  intro id bytes resident
  cases event with
  | call fault op =>
      rcases op.perform_admits id bytes resident with before | ⟨digest, -⟩
      · exact verified id bytes before
      · exact digest
  | tamper handle file =>
      exact verified id bytes resident
  | reopen fault rollBytes warmBudget =>
      exact absurd resident TieredStore.resident_new

theorem stepTier_verified_before
    (cold : Node)
    (warmBudget : Nat)
    (events : List TierEvent)
    (position : Nat) :
    (StepRun.before (stepTier blake3) ⟨.new warmBudget, cold⟩ events
      position).tiers.Verified blake3 := by
  refine StepRun.holds_before
    (fun node : TieredNode => node.tiers.Verified blake3) ?_ ?_ position
  · exact fun id bytes resident => absurd resident TieredStore.resident_new
  · exact fun _ event _ verified => stepTier_verified verified event

/--
Over any directory, and while its files are changed at will, a read through
the tiers or from the block store returns bytes of the requested digest or
an error.
-/
theorem tiered_reads_verified
    (blake3 : Bytes → BlockId)
    (cold : Node)
    (warmBudget : Nat)
    (events : List TierEvent)
    (position : Nat)
    (fault : Option Fault)
    (id : BlockId) :
    let node :=
      (StepRun.before (stepTier blake3) ⟨.new warmBudget, cold⟩ events
        position).withFault fault
    Ends (TieredStore.getBlock blake3 id) node
        (fun bytes _ => blake3 bytes = id) (fun _ _ => True) ∧
      Ends (getBlock blake3 id) node.cold
        (fun bytes _ => blake3 bytes = id) (fun _ _ => True) := by
  intro node
  have verified : node.tiers.Verified blake3 :=
    stepTier_verified_before cold warmBudget events position
  refine ⟨(TieredStore.ends_getBlock id).mono ?_ (fun _ _ _ => trivial),
    (ends_getBlock_any blake3 node.cold id).mono
      (fun _ _ read => read.1) (fun _ _ _ => trivial)⟩
  rintro bytes final ⟨resident | ⟨digest, -⟩, -⟩
  · exact verified id bytes resident
  · exact digest

end Runs

end KalpakDb
