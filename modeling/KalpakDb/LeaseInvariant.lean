import KalpakDb.BindingEffects

namespace KalpakDb

/-!
# The lease invariant

`LeaseState.WellFormed` is the condition that snapshot validation tests,
stated as a proposition.  Validation accepts exactly the well-formed lease
states, and every transition of the state machine keeps them well formed.
-/

open Std (ExtTreeMap)
open MachineWord

/-- A renewal that was issued at or before the current tick. -/
structure LeaseDeadline.Issued
    (deadline : LeaseDeadline)
    (clock : UInt64) : Prop where
  renewed : deadline.generation ≠ 0
  positiveTtl : 1 ≤ deadline.ttlTicks
  boundedTtl : deadline.ttlTicks ≤ maxTtlTicks
  issuedBy :
    ∃ issued,
      checkedSub deadline.deadlineTick deadline.ttlTicks = some issued ∧
        issued ≤ clock

/-- A bounded reservation whose commit, if any, bound exactly its blocks. -/
structure UploadLease.Valid
    (bindingKey : CacheKey → String)
    (revisions : ExtTreeMap String UInt64)
    (lease : UploadLease) : Prop where
  nonempty : lease.blocks ≠ []
  bounded : lease.blocks.length ≤ maxLeaseBlocks
  commitValid :
    ∀ commit, lease.committed = some commit →
      validBinding commit.binding = true ∧
        commit.binding.blocks = lease.blocks ∧
        bindingKey commit.binding.key ∈ revisions

namespace LeaseState

/-- A lease that is recorded and has not been committed. -/
def Uncommitted (leases : LeaseState) (id : BlockId) : Prop :=
  ∃ record,
    leases.records[id]? = some record ∧ record.committed = none

/-- The current deadline of a lease has passed. -/
def PastDeadline (leases : LeaseState) (id : BlockId) : Prop :=
  ∃ deadline,
    leases.deadlines[id]? = some deadline ∧
      deadline.deadlineTick ≤ leases.clock

/-- What validation tests of a lease state, without the tests. -/
structure WellFormed
    (bindingKey : CacheKey → String)
    (leases : LeaseState) : Prop where
  recordsBounded : leases.records.size ≤ maxLeases
  deadlineValid :
    ∀ (id : BlockId) (deadline : LeaseDeadline),
      leases.deadlines[id]? = some deadline →
      id ∈ leases.records ∧ deadline.Issued leases.clock
  expiredValid :
    ∀ id, id ∈ leases.expired →
      leases.Uncommitted id ∧ id ∉ leases.cancelled ∧ leases.PastDeadline id
  cancelledValid : ∀ id, id ∈ leases.cancelled → leases.Uncommitted id
  dormant : leases.Dormant
  reservedBounded : leases.reservedBlocks ≤ maxReservedBlocks
  recordValid :
    ∀ (id : BlockId) (record : UploadLease),
      leases.records[id]? = some record →
      record.Valid bindingKey leases.revisions

/-- A pending lease is expired by its marker or by its deadline. -/
theorem isExpired_iff {leases : LeaseState} {id : BlockId} :
    leases.isExpired id = true ↔
      leases.Uncommitted id ∧ id ∉ leases.cancelled ∧
        (id ∈ leases.expired ∨ leases.PastDeadline id) := by
  unfold isExpired Uncommitted PastDeadline
  simp only [Bool.and_eq_true, Bool.or_eq_true, Bool.not_eq_true',
    Option.any_eq_true, Option.isNone_iff_eq_none, decide_eq_true_eq,
    ExtTreeMap.contains_iff_mem, ← Bool.not_eq_true, and_assoc]

/-- A pending lease carries no expiry marker. -/
theorem not_mem_expired_of_pending
    {leases : LeaseState}
    {id : BlockId}
    (uncommitted : leases.Uncommitted id)
    (notCancelled : id ∉ leases.cancelled)
    (notExpired : leases.isExpired id = false) :
    id ∉ leases.expired := by
  intro marked
  have due : leases.isExpired id = true :=
    isExpired_iff.mpr ⟨uncommitted, notCancelled, Or.inl marked⟩
  simp [due] at notExpired

/-- The reserved blocks are the sum over all records. -/
theorem reservedBlocks_eq_total (leases : LeaseState) :
    leases.reservedBlocks =
      FiniteMap.total (fun _ lease => lease.blocks.length)
        leases.records := by
  simp [reservedBlocks, FiniteMap.values, FiniteMap.total,
    Function.comp_def]

/-! ## Validation accepts exactly the well-formed states -/

section Validation

variable {bindingKey : CacheKey → String} {leases : LeaseState}

/-- The check of a deadline, as a proposition. -/
theorem invalidDeadline_eq_false_iff {entry : BlockId × LeaseDeadline} :
    leases.invalidDeadline entry = false ↔
      entry.1 ∈ leases.records ∧ entry.2.Issued leases.clock := by
  unfold invalidDeadline
  cases subtracted :
      checkedSub entry.2.deadlineTick entry.2.ttlTicks with
  | none =>
      constructor
      · simp
      · rintro ⟨-, issued⟩
        obtain ⟨tick, found, -⟩ := issued.issuedBy
        simp [subtracted] at found
  | some tick =>
      simp only [Bool.or_eq_false_iff, Bool.not_eq_false',
        ExtTreeMap.contains_iff_mem, beq_eq_false_iff_ne,
        Bool.and_eq_true, decide_eq_true_eq, decide_eq_false_iff_not,
        gt_iff_lt, UInt64.not_lt]
      constructor
      · rintro ⟨⟨⟨known, renewed⟩, positive, bounded⟩, past⟩
        exact ⟨known, renewed, positive, bounded, tick, subtracted, past⟩
      · rintro ⟨known, renewed, positive, bounded, other, found, past⟩
        rw [subtracted] at found
        cases found
        exact ⟨⟨⟨known, renewed⟩, positive, bounded⟩, past⟩

/-- Only an uncommitted lease may be cancelled. -/
theorem invalidCancellation_eq_false_iff {id : BlockId} :
    leases.invalidCancellation id = false ↔ leases.Uncommitted id := by
  unfold invalidCancellation Uncommitted
  cases found : leases.records[id]? with
  | none =>
      simp
  | some record =>
      simp

/-- Only a pending lease past its deadline may be marked. -/
theorem invalidExpiry_eq_false_iff {id : BlockId} :
    leases.invalidExpiry id = false ↔
      leases.Uncommitted id ∧ id ∉ leases.cancelled ∧
        leases.PastDeadline id := by
  change (leases.invalidCancellation id || leases.cancelled.contains id ||
    _) = false ↔ _
  rw [Bool.or_eq_false_iff, Bool.or_eq_false_iff,
    invalidCancellation_eq_false_iff, and_assoc]
  unfold PastDeadline
  cases found : leases.deadlines[id]? with
  | none =>
      simp
  | some deadline =>
      simp [← ExtTreeMap.contains_iff_mem]

/-- The check of a record, as a proposition. -/
theorem invalidRecord_eq_false_iff {lease : UploadLease} :
    leases.invalidRecord bindingKey lease = false ↔
      lease.Valid bindingKey leases.revisions := by
  unfold invalidRecord
  cases committed : lease.committed with
  | none =>
      simp only [Bool.or_false, Bool.or_eq_false_iff,
        decide_eq_false_iff_not, gt_iff_lt, not_lt]
      constructor
      · rintro ⟨nonempty, bounded⟩
        exact ⟨by simpa using nonempty, bounded, by simp [committed]⟩
      · intro valid
        exact ⟨by simpa using valid.nonempty, valid.bounded⟩
  | some commit =>
      simp only [Bool.or_eq_false_iff, decide_eq_false_iff_not, gt_iff_lt,
        not_lt, Bool.not_eq_false', bne_eq_false_iff_eq,
        ExtTreeMap.contains_iff_mem]
      constructor
      · rintro ⟨⟨nonempty, bounded⟩, ⟨valid, sameBlocks⟩, raised⟩
        refine ⟨by simpa using nonempty, bounded, ?_⟩
        intro other found
        rw [committed] at found
        cases found
        exact ⟨valid, sameBlocks, raised⟩
      · intro valid
        obtain ⟨bindingValid, sameBlocks, raised⟩ :=
          valid.commitValid commit committed
        exact ⟨⟨by simpa using valid.nonempty, valid.bounded⟩,
          ⟨bindingValid, sameBlocks⟩, raised⟩

/-- Snapshot validation accepts exactly the well-formed lease states. -/
theorem validate_eq_ok_iff :
    leases.validate bindingKey = .ok () ↔ leases.WellFormed bindingKey := by
  have dormancy :
      (!leases.initialized &&
          (!leases.records.isEmpty || !leases.revisions.isEmpty)) = false ↔
        leases.Dormant := by
    unfold Dormant
    cases leases.initialized with
    | true =>
        simp
    | false =>
        simp [ExtTreeMap.isEmpty_iff]
  unfold validate
  simp only [ite_eq_right_iff, reduceCtorEq, imp_false, Bool.not_eq_true,
    Bool.or_eq_false_iff, decide_eq_false_iff_not, gt_iff_lt, not_lt,
    List.any_eq_false, dormancy,
    invalidCancellation_eq_false_iff, invalidExpiry_eq_false_iff,
    invalidDeadline_eq_false_iff, invalidRecord_eq_false_iff, Prod.forall,
    FiniteMap.mem_toList, FiniteMap.mem_values, ExtTreeMap.mem_keys,
    forall_exists_index]
  constructor
  · rintro ⟨⟨⟨⟨⟨⟨records, deadlines⟩, expired⟩, cancelled⟩, dormant⟩,
      reserved⟩, valid⟩
    exact ⟨records, deadlines, expired, cancelled, dormant, reserved,
      fun id record found => valid record id found⟩
  · intro wellFormed
    exact ⟨⟨⟨⟨⟨⟨wellFormed.recordsBounded, wellFormed.deadlineValid⟩,
      wellFormed.expiredValid⟩, wellFormed.cancelledValid⟩,
      wellFormed.dormant⟩, wellFormed.reservedBounded⟩,
      fun record id found => wellFormed.recordValid id record found⟩

end Validation

/-! ## One lemma for each kind of change -/

namespace WellFormed

variable {bindingKey : CacheKey → String} {leases : LeaseState} {id : BlockId}

/-- A node starts with well-formed leases. -/
theorem empty : WellFormed bindingKey {} := by
  refine validate_eq_ok_iff.mp ?_
  have unreserved : reservedBlocks {} = 0 := reservedBlocks_of_empty rfl
  simp [validate, unreserved, FiniteMap.values]

/-- The first reservation sets a flag, which nothing contradicts. -/
theorem activated
    (wellFormed : leases.WellFormed bindingKey) :
    WellFormed bindingKey { leases with initialized := true } where
  recordsBounded := wellFormed.recordsBounded
  deadlineValid := wellFormed.deadlineValid
  expiredValid := wellFormed.expiredValid
  cancelledValid := wellFormed.cancelledValid
  dormant := by simp [Dormant]
  reservedBounded := wellFormed.reservedBounded
  recordValid := wellFormed.recordValid

/-- Every key keeps its revision, so every commit has one. -/
theorem revisionsRaised
    (wellFormed : leases.WellFormed bindingKey)
    (keys : List String) :
    (leases.bumpRevisions keys).WellFormed bindingKey := by
  have grows := bumpRevisions_grows leases keys
  have inactive :
      leases.initialized = false → leases.bumpRevisions keys = leases :=
    fun passive => bumpRevisions_of_inactive passive keys
  rw [bumpRevisions_frame] at grows inactive ⊢
  refine {
    recordsBounded := wellFormed.recordsBounded
    deadlineValid := wellFormed.deadlineValid
    expiredValid := wellFormed.expiredValid
    cancelledValid := wellFormed.cancelledValid
    dormant := ?_
    reservedBounded := wellFormed.reservedBounded
    recordValid := ?_ }
  · intro passive
    rw [inactive passive]
    exact wellFormed.dormant passive
  · intro id record found
    have valid := wellFormed.recordValid id record found
    refine ⟨valid.nonempty, valid.bounded, ?_⟩
    intro commit committed
    obtain ⟨bindingValid, sameBlocks, raised⟩ :=
      valid.commitValid commit committed
    exact ⟨bindingValid, sameBlocks, (grows _).2 raised⟩

/-- A new reservation that is within the limits. -/
theorem reserved
    (wellFormed : leases.WellFormed bindingKey)
    (active : leases.initialized = true)
    {record : UploadLease}
    (fresh : leases.records[id]? = none)
    (uncommitted : record.committed = none)
    (nonempty : record.blocks ≠ [])
    (bounded : record.blocks.length ≤ maxLeaseBlocks)
    (recordsFit : leases.records.size < maxLeases)
    (blocksFit :
      leases.reservedBlocks + record.blocks.length ≤ maxReservedBlocks) :
    WellFormed bindingKey
      { leases with records := leases.records.insert id record } := by
  have unknown : id ∉ leases.records := by
    rw [ExtTreeMap.mem_iff_isSome_getElem?, fresh]
    simp
  have keepsUncommitted :
      ∀ other, leases.Uncommitted other →
        Uncommitted
          { leases with records := leases.records.insert id record }
          other := by
    rintro other ⟨old, found, pending⟩
    have different : id ≠ other := by
      rintro rfl
      simp [fresh] at found
    exact ⟨old, by simp [ExtTreeMap.getElem?_insert, different, found],
      pending⟩
  refine {
    recordsBounded := ?_
    deadlineValid := ?_
    expiredValid := ?_
    cancelledValid := ?_
    dormant := ?_
    reservedBounded := ?_
    recordValid := ?_ }
  · rw [ExtTreeMap.size_insert, if_neg (by simpa using unknown)]
    omega
  · intro other deadline found
    obtain ⟨known, issued⟩ := wellFormed.deadlineValid other deadline found
    exact ⟨by simp [known], issued⟩
  · intro other marked
    obtain ⟨pending, notCancelled, past⟩ :=
      wellFormed.expiredValid other marked
    exact ⟨keepsUncommitted other pending, notCancelled, past⟩
  · intro other cancelled
    exact keepsUncommitted other (wellFormed.cancelledValid other cancelled)
  · intro passive
    simp [active] at passive
  · have balance := FiniteMap.total_insert
      (fun (_ : BlockId) (lease : UploadLease) => lease.blocks.length)
      leases.records id record
    simp only [fresh, Option.elim_none, Nat.add_zero] at balance
    rw [reservedBlocks_eq_total] at blocksFit ⊢
    simp only [balance]
    exact blocksFit
  · intro other lease found
    rw [ExtTreeMap.getElem?_insert] at found
    split at found
    · cases found
      exact ⟨nonempty, bounded, by simp [uncommitted]⟩
    · exact wellFormed.recordValid other lease found

/-- A lease is committed with a binding of its blocks. -/
theorem committed
    (wellFormed : leases.WellFormed bindingKey)
    {record : UploadLease}
    {commit : LeaseCommit}
    (found : leases.records[id]? = some record)
    (notCancelled : id ∉ leases.cancelled)
    (notMarked : id ∉ leases.expired)
    (valid : validBinding commit.binding = true)
    (sameBlocks : commit.binding.blocks = record.blocks)
    (raised : bindingKey commit.binding.key ∈ leases.revisions) :
    WellFormed bindingKey
      { leases with
        records := leases.records.insert id
          { record with committed := some commit } } := by
  have known : id ∈ leases.records :=
    ExtTreeMap.mem_iff_isSome_getElem?.mpr (by simp [found])
  have keepsUncommitted :
      ∀ other, other ≠ id → leases.Uncommitted other →
        Uncommitted
          { leases with
            records := leases.records.insert id
              { record with committed := some commit } }
          other := by
    rintro other different ⟨old, oldFound, pending⟩
    exact ⟨old,
      by simp [ExtTreeMap.getElem?_insert, Ne.symm different, oldFound],
      pending⟩
  refine {
    recordsBounded := ?_
    deadlineValid := ?_
    expiredValid := ?_
    cancelledValid := ?_
    dormant := ?_
    reservedBounded := ?_
    recordValid := ?_ }
  · rw [ExtTreeMap.size_insert, if_pos (by simpa using known)]
    exact wellFormed.recordsBounded
  · intro other deadline deadlineFound
    obtain ⟨otherKnown, issued⟩ :=
      wellFormed.deadlineValid other deadline deadlineFound
    exact ⟨by simp [otherKnown], issued⟩
  · intro other marked
    obtain ⟨pending, otherNotCancelled, past⟩ :=
      wellFormed.expiredValid other marked
    refine ⟨keepsUncommitted other ?_ pending, otherNotCancelled, past⟩
    rintro rfl
    exact notMarked marked
  · intro other cancelled
    refine keepsUncommitted other ?_
      (wellFormed.cancelledValid other cancelled)
    rintro rfl
    exact notCancelled cancelled
  · intro passive
    have active := initialized_of_record wellFormed.dormant found
    simp [active] at passive
  · have balance := FiniteMap.total_insert
      (fun (_ : BlockId) (lease : UploadLease) => lease.blocks.length)
      leases.records id { record with committed := some commit }
    simp only [found, Option.elim_some, Nat.add_right_cancel_iff] at balance
    have reserved := wellFormed.reservedBounded
    rw [reservedBlocks_eq_total] at reserved ⊢
    simp only [balance]
    exact reserved
  · intro other lease leaseFound
    rw [ExtTreeMap.getElem?_insert] at leaseFound
    split at leaseFound
    · cases leaseFound
      have oldValid := wellFormed.recordValid id record found
      refine ⟨oldValid.nonempty, oldValid.bounded, ?_⟩
      intro other committed
      cases committed
      exact ⟨valid, sameBlocks, raised⟩
    · exact wellFormed.recordValid other lease leaseFound

/-- An uncommitted lease is cancelled. -/
theorem cancelled
    (wellFormed : leases.WellFormed bindingKey)
    (uncommitted : leases.Uncommitted id)
    (notExpired : leases.isExpired id = false)
    (position : UInt64) :
    WellFormed bindingKey
      { leases with
        cancelled := leases.cancelled.insertIfNew id position } where
  recordsBounded := wellFormed.recordsBounded
  deadlineValid := wellFormed.deadlineValid
  expiredValid := by
    intro other marked
    obtain ⟨pending, notCancelled, past⟩ :=
      wellFormed.expiredValid other marked
    refine ⟨pending, ?_, past⟩
    intro cancelled
    rw [ExtTreeMap.mem_insertIfNew] at cancelled
    rcases cancelled with same | earlier
    · have same := Std.LawfulEqOrd.eq_of_compare same
      subst other
      exact not_mem_expired_of_pending uncommitted notCancelled notExpired
        marked
    · exact notCancelled earlier
  cancelledValid := by
    intro other cancelled
    rw [ExtTreeMap.mem_insertIfNew] at cancelled
    rcases cancelled with same | earlier
    · have same := Std.LawfulEqOrd.eq_of_compare same
      subst other
      exact uncommitted
    · exact wellFormed.cancelledValid other earlier
  dormant := wellFormed.dormant
  reservedBounded := wellFormed.reservedBounded
  recordValid := wellFormed.recordValid

/-- A lease without a marker gets a deadline. -/
theorem renewed
    (wellFormed : leases.WellFormed bindingKey)
    {deadline : LeaseDeadline}
    (known : id ∈ leases.records)
    (notMarked : id ∉ leases.expired)
    (issued : deadline.Issued leases.clock) :
    WellFormed bindingKey
      { leases with deadlines := leases.deadlines.insert id deadline } where
  recordsBounded := wellFormed.recordsBounded
  deadlineValid := by
    intro other found deadlineFound
    rw [ExtTreeMap.getElem?_insert] at deadlineFound
    split at deadlineFound
    · rename_i same
      have same := Std.LawfulEqOrd.eq_of_compare same
      subst other
      cases deadlineFound
      exact ⟨known, issued⟩
    · exact wellFormed.deadlineValid other found deadlineFound
  expiredValid := by
    intro other marked
    obtain ⟨pending, notCancelled, past, pastFound, reached⟩ :=
      wellFormed.expiredValid other marked
    have different : id ≠ other := by
      rintro rfl
      exact notMarked marked
    refine ⟨pending, notCancelled, past, ?_, reached⟩
    simp [ExtTreeMap.getElem?_insert, different, pastFound]
  cancelledValid := wellFormed.cancelledValid
  dormant := wellFormed.dormant
  reservedBounded := wellFormed.reservedBounded
  recordValid := wellFormed.recordValid

/-- What was issued before the clock is issued before a later one. -/
theorem ticked
    (wellFormed : leases.WellFormed bindingKey)
    {next : UInt64}
    (later : leases.clock ≤ next) :
    WellFormed bindingKey { leases with clock := next } where
  recordsBounded := wellFormed.recordsBounded
  deadlineValid := by
    intro id deadline found
    obtain ⟨known, valid⟩ := wellFormed.deadlineValid id deadline found
    obtain ⟨issued, subtracted, past⟩ := valid.issuedBy
    exact ⟨known, valid.renewed, valid.positiveTtl, valid.boundedTtl,
      issued, subtracted, UInt64.le_trans past later⟩
  expiredValid := by
    intro id marked
    obtain ⟨pending, notCancelled, deadline, found, reached⟩ :=
      wellFormed.expiredValid id marked
    exact ⟨pending, notCancelled, deadline, found,
      UInt64.le_trans reached later⟩
  cancelledValid := wellFormed.cancelledValid
  dormant := wellFormed.dormant
  reservedBounded := wellFormed.reservedBounded
  recordValid := wellFormed.recordValid

/-- In a well-formed state only a passed deadline makes a lease expired. -/
theorem pastDeadline_of_isExpired
    (wellFormed : leases.WellFormed bindingKey)
    (due : leases.isExpired id = true) :
    leases.PastDeadline id := by
  obtain ⟨-, -, marked | past⟩ := isExpired_iff.mp due
  · exact (wellFormed.expiredValid id marked).2.2
  · exact past

/-- A lease that is due gets its marker. -/
theorem expired
    (wellFormed : leases.WellFormed bindingKey)
    (due : leases.isExpired id = true)
    (position : UInt64) :
    WellFormed bindingKey
      { leases with
        expired := leases.expired.insertIfNew id position } where
  recordsBounded := wellFormed.recordsBounded
  deadlineValid := wellFormed.deadlineValid
  expiredValid := by
    intro other marked
    rw [ExtTreeMap.mem_insertIfNew] at marked
    rcases marked with same | earlier
    · have same := Std.LawfulEqOrd.eq_of_compare same
      subst other
      obtain ⟨pending, notCancelled, -⟩ := isExpired_iff.mp due
      exact ⟨pending, notCancelled, wellFormed.pastDeadline_of_isExpired due⟩
    · exact wellFormed.expiredValid other earlier
  cancelledValid := wellFormed.cancelledValid
  dormant := wellFormed.dormant
  reservedBounded := wellFormed.reservedBounded
  recordValid := wellFormed.recordValid

end WellFormed

end LeaseState

end KalpakDb
