import KalpakDb.CrashDurability
import KalpakDb.TieredReads

namespace KalpakDb

/-!
# The pinned tier and the quarantine

The bytes of the pinned blocks are counted apart from the map that holds
them, and a block whose cold record is damaged has to leave both memory tiers
and stay out of them until it is verified or repaired.  Whatever the calls
return and whatever happens to the files, the counter is the sum of the
lengths, and no block is pinned and quarantined at once.
-/

open Std (ExtTreeMap ExtTreeSet)
open Contract

/-! ## The ledger of the pinned tier -/

namespace TieredStore

variable {tiers other : TieredStore}

/-- The pinned tier and the quarantine are the same. -/
structure SameLedger (tiers other : TieredStore) : Prop where
  pinned : other.pinned = tiers.pinned
  pinnedBytes : other.pinnedBytes = tiers.pinnedBytes
  pinnedBudget : other.pinnedBudget = tiers.pinnedBudget
  quarantined : other.quarantined = tiers.quarantined

theorem SameLedger.refl (tiers : TieredStore) : tiers.SameLedger tiers :=
  ⟨rfl, rfl, rfl, rfl⟩

theorem SameLedger.trans
    {last : TieredStore}
    (first : tiers.SameLedger other)
    (second : other.SameLedger last) :
    tiers.SameLedger last where
  pinned := second.pinned.trans first.pinned
  pinnedBytes := second.pinnedBytes.trans first.pinnedBytes
  pinnedBudget := second.pinnedBudget.trans first.pinnedBudget
  quarantined := second.quarantined.trans first.quarantined

theorem sameLedger_warmInsert (id : BlockId) (payload : Bytes) :
    tiers.SameLedger (tiers.warmInsert id payload) := by
  unfold warmInsert
  split
  · exact ⟨rfl, rfl, rfl, rfl⟩
  · exact .refl tiers

theorem sameLedger_warmInserts (entries : List (BlockId × Payload)) :
    tiers.SameLedger
      (entries.foldl
        (fun tiers entry => tiers.warmInsert entry.1 entry.2.bytes)
        tiers) := by
  induction entries generalizing tiers with
  | nil =>
      exact .refl tiers
  | cons entry rest inductionHypothesis =>
      exact (sameLedger_warmInsert entry.1 entry.2.bytes).trans
        inductionHypothesis

theorem sameLedger_evict (ids : List BlockId) :
    tiers.SameLedger (tiers.evict ids) :=
  ⟨rfl, rfl, rfl, rfl⟩

/-- The lengths of all pinned payloads. -/
def pinnedTotal (tiers : TieredStore) : Nat :=
  FiniteMap.total (fun _ payload => payload.length) tiers.pinned

/-- The counter is exact and within the budget; no pinned block is bad. -/
structure Accounted (tiers : TieredStore) : Prop where
  balanced : tiers.pinnedBytes = tiers.pinnedTotal
  bounded : tiers.pinnedBytes ≤ tiers.pinnedBudget
  separate :
    ∀ id, tiers.quarantined.contains id = true → tiers.pinned[id]? = none

theorem accounted_new (warmBudget : Nat) :
    (TieredStore.new warmBudget).Accounted where
  balanced := by simp [TieredStore.new, pinnedTotal]
  bounded := Nat.zero_le _
  separate := by simp [TieredStore.new]

theorem Accounted.sameLedger
    (accounted : tiers.Accounted)
    (same : tiers.SameLedger other) :
    other.Accounted where
  balanced := by
    unfold pinnedTotal
    rw [same.pinned, same.pinnedBytes]
    exact accounted.balanced
  bounded := by
    rw [same.pinnedBytes, same.pinnedBudget]
    exact accounted.bounded
  separate := by
    rw [same.quarantined, same.pinned]
    exact accounted.separate

/-- A pinned payload is part of what was counted. -/
theorem Accounted.length_le
    (accounted : tiers.Accounted)
    {id : BlockId}
    {payload : Bytes}
    (found : tiers.pinned[id]? = some payload) :
    payload.length ≤ tiers.pinnedBytes := by
  rw [accounted.balanced]
  exact FiniteMap.measure_le_total (fun _ bytes => bytes.length) found

@[simp] theorem quarantined_unpin (id : BlockId) :
    (tiers.unpin id).quarantined = tiers.quarantined := by
  unfold unpin
  split
  · rfl
  · rfl

theorem Accounted.unpin
    (accounted : tiers.Accounted)
    (id : BlockId) :
    (tiers.unpin id).Accounted := by
  have separate :
      ∀ other,
        (tiers.unpin id).quarantined.contains other = true →
          (tiers.unpin id).pinned[other]? = none := by
    intro other quarantined
    rw [quarantined_unpin] at quarantined
    rw [pinned_unpin]
    split
    · rfl
    · exact accounted.separate other quarantined
  cases found : tiers.pinned[id]? with
  | none =>
      have same : tiers.unpin id = tiers := by
        rw [TieredStore.unpin, found]
      rw [same]
      exact accounted
  | some payload =>
      have unpinned : tiers.unpin id =
          { tiers with
            pinned := tiers.pinned.erase id
            pinnedBytes := tiers.pinnedBytes - payload.length } := by
        rw [TieredStore.unpin, found]
      have balance :=
        FiniteMap.total_erase (fun _ bytes => bytes.length) found
      have bounded := accounted.bounded
      have balanced := accounted.balanced
      unfold pinnedTotal at balanced
      refine ⟨?_, ?_, separate⟩
      · rw [unpinned]
        unfold pinnedTotal
        dsimp only
        omega
      · rw [unpinned]
        dsimp only
        omega

theorem Accounted.unpins
    (accounted : tiers.Accounted)
    (ids : List BlockId) :
    (ids.foldl TieredStore.unpin tiers).Accounted := by
  induction ids generalizing tiers with
  | nil =>
      exact accounted
  | cons id rest inductionHypothesis =>
      exact inductionHypothesis (accounted.unpin id)

/-- Bad blocks stay bad while others leave the pinned tier. -/
theorem quarantined_unpins (ids : List BlockId) :
    (ids.foldl unpin tiers).quarantined = tiers.quarantined := by
  induction ids generalizing tiers with
  | nil =>
      rfl
  | cons id rest inductionHypothesis =>
      exact inductionHypothesis.trans (quarantined_unpin id)

theorem Accounted.sweep
    (accounted : tiers.Accounted)
    (backed : BlockId → Bool) :
    (tiers.sweep backed).Accounted :=
  (accounted.unpins _).sameLedger (sameLedger_evict _)

theorem quarantined_sweep (backed : BlockId → Bool) :
    (tiers.sweep backed).quarantined = tiers.quarantined :=
  quarantined_unpins _

/-- A bad block leaves the pinned tier as one that is unpinned. -/
theorem quarantine_eq_unpin (id : BlockId) :
    tiers.quarantine id =
      { tiers.unpin id with
        quarantined := tiers.quarantined.insert id
        warm := tiers.warm.erase id } := by
  unfold quarantine unpin
  dsimp only
  split
  · rfl
  · rfl

theorem Accounted.quarantine
    (accounted : tiers.Accounted)
    (id : BlockId) :
    (tiers.quarantine id).Accounted := by
  have unpinned := accounted.unpin id
  rw [quarantine_eq_unpin]
  refine ⟨unpinned.balanced, unpinned.bounded, ?_⟩
  intro other quarantined
  dsimp only at quarantined ⊢
  rw [pinned_unpin]
  split
  · rfl
  · rename_i different
    refine accounted.separate other ?_
    rw [ExtTreeSet.contains_insert] at quarantined
    simpa [Ne.symm different] using quarantined

theorem contains_quarantine
    {id other : BlockId}
    (quarantined : tiers.quarantined.contains other = true) :
    (tiers.quarantine id).quarantined.contains other = true := by
  rw [quarantine_eq_unpin, ExtTreeSet.contains_insert, quarantined,
    Bool.or_true]

theorem Accounted.release
    (accounted : tiers.Accounted)
    (id : BlockId) :
    (tiers.release id).Accounted where
  balanced := accounted.balanced
  bounded := accounted.bounded
  separate := by
    intro other quarantined
    refine accounted.separate other ?_
    rw [TieredStore.release, ExtTreeSet.contains_erase] at quarantined
    exact ((Bool.and_eq_true _ _).mp quarantined).2

theorem contains_release
    {id other : BlockId}
    (quarantined : tiers.quarantined.contains other = true) :
    other = id ∨ (tiers.release id).quarantined.contains other = true := by
  by_cases same : other = id
  · exact Or.inl same
  · right
    rw [TieredStore.release, ExtTreeSet.contains_erase, quarantined,
      Bool.and_true]
    simpa using Ne.symm same

/-- A block that fits the budget and is not bad may be pinned. -/
theorem Accounted.pin
    (accounted : tiers.Accounted)
    {id : BlockId}
    {payload : Bytes}
    (unpinned : tiers.pinned[id]? = none)
    (sane : tiers.quarantined.contains id = false)
    (fits : tiers.pinnedBytes + payload.length ≤ tiers.pinnedBudget) :
    Accounted
      { tiers with
        pinned := tiers.pinned.insert id payload
        pinnedBytes := tiers.pinnedBytes + payload.length } where
  balanced := by
    have balance := FiniteMap.total_insert (fun _ bytes => bytes.length)
      tiers.pinned id payload
    rw [unpinned] at balance
    have before := accounted.balanced
    unfold pinnedTotal at before ⊢
    simp only [Option.elim_none] at balance
    dsimp only
    omega
  bounded := fits
  separate := by
    intro other quarantined
    dsimp only at quarantined ⊢
    rw [ExtTreeMap.getElem?_insert]
    split
    · rename_i same
      rw [← Std.LawfulEqOrd.eq_of_compare same, sane] at quarantined
      cases quarantined
    · exact accounted.separate other quarantined

end TieredStore

/-! ## Calls -/

/-- The ledger stays in order, and only some bad blocks are released. -/
structure TieredNode.Settles
    (released : BlockId → Prop)
    (node final : TieredNode) : Prop where
  accounted : node.tiers.Accounted → final.tiers.Accounted
  quarantined :
    ∀ id,
      node.tiers.quarantined.contains id = true →
        released id ∨ final.tiers.quarantined.contains id = true

theorem TieredNode.settles_of_sameLedger
    {released : BlockId → Prop}
    {node final : TieredNode}
    (same : node.tiers.SameLedger final.tiers) :
    node.Settles released final where
  accounted accounted := accounted.sameLedger same
  quarantined id quarantined := by
    rw [same.quarantined]
    exact Or.inr quarantined

section Calls

variable {blake3 : Bytes → BlockId} {node : TieredNode}

/-- A read that returns was not of a bad block. -/
theorem TieredStore.ends_getBlock_ledger (id : BlockId) :
    Ends (TieredStore.getBlock blake3 id) node
      (fun _ final =>
        node.tiers.quarantined.contains id = false ∧
          node.tiers.SameLedger final.tiers)
      (fun _ final => node.tiers.SameLedger final.tiers) := by
  simp only [TieredStore.getBlock, ends_bind, ends_get]
  split
  · exact .refl node.tiers
  · rename_i sane
    have sane : node.tiers.quarantined.contains id = false :=
      Bool.eq_false_iff.mpr sane
    cases node.tiers.pinned[id]? with
    | some payload =>
        exact ⟨sane, .refl node.tiers⟩
    | none =>
        simp only
        cases node.tiers.warm[id]? with
        | some payload =>
            exact ⟨sane, .refl node.tiers⟩
        | none =>
            simp only [onCold, ends_bind, ends_within, changeTiers,
              ends_modify, ends_pure]
            exact (ends_trivial _ node.cold).mono
              (fun payload _ _ =>
                ⟨sane, TieredStore.sameLedger_warmInsert id payload⟩)
              (fun _ _ _ => .refl node.tiers)

/-- A bad block is not served. -/
theorem TieredStore.execute_getBlock_quarantined
    {id : BlockId}
    (quarantined : node.tiers.quarantined.contains id = true) :
    execute (TieredStore.getBlock blake3 id) node =
      (.error (.corrupt id), node) := by
  refine Ends.execute_eq ?_
  simp only [TieredStore.getBlock, ends_bind, ends_get, quarantined,
    if_true, ends_throw]

theorem TieredStore.ends_pin_ledger (id : BlockId) :
    Ends (TieredStore.pin blake3 id) node
      (fun _ final => node.Settles (fun _ => False) final)
      (fun _ final => node.Settles (fun _ => False) final) := by
  simp only [TieredStore.pin, ends_bind, ends_get]
  split
  · exact TieredNode.settles_of_sameLedger (.refl node.tiers)
  · simp only [ends_bind]
    refine (TieredStore.ends_getBlock_ledger id).mono ?_
      (fun _ _ same => TieredNode.settles_of_sameLedger same)
    rintro payload read ⟨sane, same⟩
    have unchanged : node.Settles (fun _ => False) read :=
      TieredNode.settles_of_sameLedger same
    simp only [ends_get]
    split
    · exact unchanged
    · rename_i unpinned
      split
      · exact unchanged
      · rename_i fits
        simp only [changeTiers, ends_bind, ends_modify, ends_pure]
        refine ⟨fun accounted => ?_, unchanged.quarantined⟩
        refine (unchanged.accounted accounted).pin ?_ ?_ (by omega)
        · simpa using unpinned
        · rw [same.quarantined]
          exact sane

theorem TieredStore.ends_put_ledger (payload : Payload) :
    Ends (TieredStore.put blake3 payload) node
      (fun _ final => node.tiers.SameLedger final.tiers)
      (fun _ final => node.tiers.SameLedger final.tiers) := by
  simp only [TieredStore.put, onCold, ends_bind, ends_within, changeTiers,
    ends_modify, ends_pure]
  exact (ends_trivial _ node.cold).mono
    (fun id _ _ => TieredStore.sameLedger_warmInsert id payload.bytes)
    (fun _ _ _ => .refl node.tiers)

theorem TieredStore.ends_putMany_ledger (payloads : List Payload) :
    Ends (TieredStore.putMany blake3 payloads) node
      (fun _ final => node.tiers.SameLedger final.tiers)
      (fun _ final => node.tiers.SameLedger final.tiers) := by
  simp only [TieredStore.putMany, onCold, ends_bind, ends_within,
    changeTiers, ends_modify, ends_pure]
  exact (ends_trivial _ node.cold).mono
    (fun ids _ _ => TieredStore.sameLedger_warmInserts (ids.zip payloads))
    (fun _ _ _ => .refl node.tiers)

/-- A block is released by a verification that returns. -/
theorem TieredStore.ends_verifyCold_ledger (id : BlockId) :
    Ends (TieredStore.verifyCold blake3 id) node
      (fun _ final => node.Settles (· = id) final)
      (fun _ final => node.Settles (fun _ => False) final) := by
  simp only [TieredStore.verifyCold, onCold, ends_bind, ends_observe,
    ends_within]
  have removed (cold : Node) :
      node.Settles (fun _ => False)
        { tiers := node.tiers.quarantine id, cold := cold } :=
    ⟨fun accounted => accounted.quarantine id,
      fun _ quarantined => Or.inr
        (TieredStore.contains_quarantine quarantined)⟩
  have unchanged (cold : Node) :
      node.Settles (fun _ => False) { node with cold := cold } :=
    TieredNode.settles_of_sameLedger (.refl node.tiers)
  refine (ends_trivial _ node.cold).mono ?_ ?_
  · intro bytes cold _
    simp only [changeTiers, ends_modify]
    exact ⟨fun accounted => accounted.release id,
      fun _ quarantined => TieredStore.contains_release quarantined⟩
  · intro error cold _
    cases error with
    | blockNotFound missing => exact unchanged cold
    | panicked => exact unchanged cold
    | diverged => exact unchanged cold
    | corrupt found => exact removed cold
    | io failure => exact removed cold

/-- A block is released by a repair that returns. -/
theorem TieredStore.ends_repair_ledger
    (id : BlockId)
    (payload : Payload) :
    Ends (TieredStore.repair blake3 id payload) node
      (fun _ final => node.Settles (· = id) final)
      (fun _ final => node.Settles (fun _ => False) final) := by
  simp only [TieredStore.repair, onCold, ends_bind, ends_within,
    changeTiers, ends_modify, ends_pure]
  refine (ends_trivial _ node.cold).mono ?_
    (fun _ _ _ => TieredNode.settles_of_sameLedger (.refl node.tiers))
  intro _ cold _
  have same : (node.tiers.release id).SameLedger _ :=
    TieredStore.sameLedger_warmInsert id payload.bytes
  refine ⟨fun accounted => (accounted.release id).sameLedger same, ?_⟩
  intro other quarantined
  dsimp only
  rw [same.quarantined]
  exact TieredStore.contains_release quarantined

theorem TieredStore.ends_compact_ledger
    (live : BlockId → Bool)
    (order : IterationOrder) :
    Ends (TieredStore.compact blake3 live order) node
      (fun _ final => node.Settles (fun _ => False) final)
      (fun _ final => node.Settles (fun _ => False) final) := by
  simp only [TieredStore.compact, onCold, ends_bind, ends_within]
  refine (ends_trivial _ node.cold).mono ?_
    (fun _ _ _ => TieredNode.settles_of_sameLedger (.refl node.tiers))
  intro stats cold _
  split
  · simp only [ends_bind, ends_modify, ends_pure]
    refine ⟨fun accounted => accounted.sweep _, ?_⟩
    intro id quarantined
    dsimp only
    rw [TieredStore.quarantined_sweep]
    exact Or.inr quarantined
  · exact TieredNode.settles_of_sameLedger (.refl node.tiers)

/-- Only the block of a call that returns is released. -/
theorem TieredNode.settles_of_ends
    {α : Type}
    {code : TieredM α}
    {id : BlockId}
    (ends :
      Ends code node (fun _ final => node.Settles (· = id) final)
        (fun _ final => node.Settles (fun _ => False) final)) :
    node.Settles
      (fun other => other = id ∧ (execute code node).1.isOk = true)
      (execute code node).2 := by
  rcases ran : execute code node with ⟨error | value, final⟩
  · rw [ends_of_error ran] at ends
    exact ⟨ends.accounted, fun other quarantined =>
      (ends.quarantined other quarantined).imp_left False.elim⟩
  · rw [ends_of_ok ran] at ends
    exact ⟨ends.accounted, fun other quarantined =>
      (ends.quarantined other quarantined).imp_left
        fun same => ⟨same, rfl⟩⟩

end Calls

/-! ## Histories -/

/-- A block leaves the quarantine when it is verified or repaired. -/
def TieredOp.Releases
    (blake3 : Bytes → BlockId)
    (node : TieredNode)
    (id : BlockId) : TieredOp → Prop
  | .verifyCold verified =>
      id = verified ∧
        (execute (TieredStore.verifyCold blake3 verified) node).1.isOk = true
  | .repair repaired payload =>
      id = repaired ∧
        (execute (TieredStore.repair blake3 repaired payload)
          node).1.isOk = true
  | _ => False

/-- A new process starts without a quarantine. -/
def TierEvent.Releases
    (blake3 : Bytes → BlockId)
    (node : TieredNode)
    (id : BlockId) : TierEvent → Prop
  | .call fault op => op.Releases blake3 (node.withFault fault) id
  | .tamper _ _ => False
  | .reopen _ _ _ => True

section Histories

variable {blake3 : Bytes → BlockId} {node : TieredNode}

theorem TieredOp.perform_settles (op : TieredOp) :
    node.Settles (fun id => op.Releases blake3 node id)
      (op.perform blake3 node) := by
  cases op with
  | put payload =>
      exact TieredNode.settles_of_sameLedger
        (TieredStore.ends_put_ledger payload).final
  | putMany payloads =>
      exact TieredNode.settles_of_sameLedger
        (TieredStore.ends_putMany_ledger payloads).final
  | get id =>
      have ends : Ends (TieredStore.getBlock blake3 id) node
          (fun _ final => node.tiers.SameLedger final.tiers)
          (fun _ final => node.tiers.SameLedger final.tiers) :=
        (TieredStore.ends_getBlock_ledger id).imp fun _ _ read => read.2
      exact TieredNode.settles_of_sameLedger ends.final
  | pin id =>
      exact (TieredStore.ends_pin_ledger id).final
  | verifyCold id =>
      exact TieredNode.settles_of_ends
        (TieredStore.ends_verifyCold_ledger id)
  | repair id payload =>
      exact TieredNode.settles_of_ends
        (TieredStore.ends_repair_ledger id payload)
  | compact live order =>
      exact (TieredStore.ends_compact_ledger live order).final
  | evict ids =>
      exact TieredNode.settles_of_sameLedger
        (TieredStore.sameLedger_evict ids)

theorem stepTier_settles (event : TierEvent) :
    node.Settles (fun id => event.Releases blake3 node id)
      (stepTier blake3 node event) := by
  cases event with
  | call fault op =>
      have settles :
          (node.withFault fault).Settles _
            (op.perform blake3 (node.withFault fault)) :=
        op.perform_settles
      exact ⟨settles.accounted, settles.quarantined⟩
  | tamper handle file =>
      exact TieredNode.settles_of_sameLedger (.refl node.tiers)
  | reopen fault rollBytes warmBudget =>
      exact ⟨fun _ => TieredStore.accounted_new warmBudget,
        fun _ _ => Or.inl trivial⟩

theorem accounted_before
    (blake3 : Bytes → BlockId)
    (cold : Node)
    (warmBudget : Nat)
    (events : List TierEvent)
    (position : Nat) :
    (StepRun.before (stepTier blake3) ⟨.new warmBudget, cold⟩ events
      position).tiers.Accounted :=
  StepRun.holds_before (fun node : TieredNode => node.tiers.Accounted)
    (TieredStore.accounted_new warmBudget)
    (fun _ event _ accounted => (stepTier_settles event).accounted accounted)
    position

/-- A bad block stays bad until it is released. -/
theorem quarantined_until
    {start : TieredNode}
    {events : List TierEvent}
    {id : BlockId}
    {position later : Nat}
    (ordered : position ≤ later)
    (quarantined :
      (StepRun.before (stepTier blake3) start events
        position).tiers.quarantined.contains id = true)
    (unreleased :
      ∀ between event,
        position ≤ between →
        between < later →
        events[between]? = some event →
          ¬ event.Releases blake3
            (StepRun.before (stepTier blake3) start events between) id) :
    (StepRun.before (stepTier blake3) start events
      later).tiers.quarantined.contains id = true := by
  induction later, ordered using Nat.le_induction with
  | base =>
      exact quarantined
  | succ between isLater inductionHypothesis =>
      have before := inductionHypothesis fun earlier event from' until' =>
        unreleased earlier event from' (until'.trans (Nat.lt_succ_self _))
      cases present : events[between]? with
      | none =>
          rw [StepRun.before_succ_of_none present]
          exact before
      | some event =>
          rw [StepRun.before_succ present]
          exact ((stepTier_settles event).quarantined id before).resolve_left
            (unreleased between event isLater (Nat.lt_succ_self _) present)

/-- Taking blocks out one by one never takes more than was counted. -/
def TieredStore.NoUnderflow : List BlockId → TieredStore → Prop
  | [], _ => True
  | id :: rest, tiers =>
      (∀ payload,
        tiers.pinned[id]? = some payload →
          payload.length ≤ tiers.pinnedBytes) ∧
        TieredStore.NoUnderflow rest (tiers.unpin id)

theorem TieredStore.Accounted.noUnderflow
    {tiers : TieredStore}
    (accounted : tiers.Accounted)
    (ids : List BlockId) :
    TieredStore.NoUnderflow ids tiers := by
  induction ids generalizing tiers with
  | nil =>
      trivial
  | cons id rest inductionHypothesis =>
      exact ⟨fun _ found => accounted.length_le found,
        inductionHypothesis (accounted.unpin id)⟩

/--
In every state of a history the counter is the sum of the pinned lengths and
within the budget, no subtraction underflows, and a quarantined block is not
pinned and not served, until a call that verifies or repairs it returns.
-/
theorem pinned_tier_accounted
    (blake3 : Bytes → BlockId)
    (cold : Node)
    (warmBudget : Nat)
    (events : List TierEvent)
    (position : Nat) :
    let run := StepRun.before (stepTier blake3) ⟨.new warmBudget, cold⟩ events
    let tiers := (run position).tiers
    tiers.pinnedBytes =
        FiniteMap.total (fun _ payload => payload.length) tiers.pinned ∧
      tiers.pinnedBytes ≤ tiers.pinnedBudget ∧
      (∀ ids, TieredStore.NoUnderflow ids tiers) ∧
      ∀ id,
        tiers.quarantined.contains id = true →
          ∀ later,
            position ≤ later →
            (∀ between event,
              position ≤ between →
              between < later →
              events[between]? = some event →
                ¬ event.Releases blake3 (run between) id) →
            (run later).tiers.pinned[id]? = none ∧
              ∀ fault,
                (execute (TieredStore.getBlock blake3 id)
                  ((run later).withFault fault)).1 =
                  .error (.corrupt id) := by
  intro run tiers
  have accounted : tiers.Accounted :=
    accounted_before blake3 cold warmBudget events position
  refine ⟨accounted.balanced, accounted.bounded, accounted.noUnderflow, ?_⟩
  intro id quarantined later ordered unreleased
  have still : (run later).tiers.quarantined.contains id = true :=
    quarantined_until ordered quarantined unreleased
  refine ⟨?_, fun fault => ?_⟩
  · exact (accounted_before blake3 cold warmBudget events later).separate id
      still
  · have served : execute (TieredStore.getBlock blake3 id)
        ((run later).withFault fault) = _ :=
      TieredStore.execute_getBlock_quarantined still
    rw [served]

end Histories

/-- The file of a pinned block is emptied, verified, and uploaded again. -/
def damagedPin : List TierEvent :=
  [.call none (.put oneByte), .call none (.pin (sampleBlake3 [1])),
    .tamper 0 .empty, .call none (.verifyCold (sampleBlake3 [1])),
    .call none (.put oneByte)]

/-- The states of that history. -/
def damagedRun : Nat → TieredNode :=
  StepRun.before (stepTier sampleBlake3)
    ⟨.new 65536, (execute (openWithRoll 4096) {}).2⟩ damagedPin

theorem pinned_tier_accounted_damaged :
    (damagedRun 3).tiers.pinned[sampleBlake3 [1]]? = some [1] ∧
      (damagedRun 4).tiers.quarantined.contains (sampleBlake3 [1]) = true ∧
      (damagedRun 4).tiers.pinnedBytes = 0 ∧
      (damagedRun 5).tiers.warm[sampleBlake3 [1]]? = some [1] ∧
      (damagedRun 5).tiers.pinned[sampleBlake3 [1]]? = none ∧
      (execute (TieredStore.getBlock sampleBlake3 (sampleBlake3 [1]))
        ((damagedRun 5).withFault none)).1 =
        .error (.corrupt (sampleBlake3 [1])) := by
  have states :
      (damagedRun 3).tiers.pinned[sampleBlake3 [1]]? = some [1] ∧
        (damagedRun 4).tiers.quarantined.contains (sampleBlake3 [1]) =
          true ∧
        (damagedRun 4).tiers.pinnedBytes = 0 ∧
        (damagedRun 5).tiers.warm[sampleBlake3 [1]]? = some [1] := by
    decide +kernel
  obtain ⟨pinned, quarantined, counted, warm⟩ := states
  obtain ⟨-, -, -, tracked⟩ := pinned_tier_accounted sampleBlake3
    (execute (openWithRoll 4096) {}).2 65536 damagedPin 4
  have isRun : StepRun.before (stepTier sampleBlake3)
      ⟨.new 65536, (execute (openWithRoll 4096) {}).2⟩ damagedPin =
        damagedRun := rfl
  rw [isRun] at tracked
  obtain ⟨unpinned, refused⟩ := tracked (sampleBlake3 [1]) quarantined 5
    (Nat.le_succ 4) (by
      intro between event fromFour untilFive present
      obtain rfl : between = 4 := by omega
      cases present
      exact id)
  exact ⟨pinned, quarantined, counted, warm, unpinned, refused none⟩

end KalpakDb
