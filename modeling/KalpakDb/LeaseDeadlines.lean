import KalpakDb.MetadataRun

namespace KalpakDb

/-!
# Acknowledged deadlines

A renewal that was acknowledged is a promise about all later states.  The
stored deadline of a lease changes only by renewals, each of which raises the
generation and extends the deadline, and the clock only moves forward.  So
retries, stale expiries and duplicate ticks cannot take a promise back.
-/

open Std (ExtTreeMap)
open MachineWord

/-! ## Deadlines only grow -/

/-- The same deadline, or one of a later generation that lies further off. -/
def LeaseDeadline.Extended (earlier later : LeaseDeadline) : Prop :=
  later = earlier ∨
    earlier.generation < later.generation ∧
      earlier.deadlineTick < later.deadlineTick

theorem LeaseDeadline.Extended.le
    {earlier later : LeaseDeadline}
    (extended : earlier.Extended later) :
    earlier.generation ≤ later.generation ∧
      earlier.deadlineTick ≤ later.deadlineTick := by
  rcases extended with rfl | ⟨generations, ticks⟩
  · exact ⟨UInt64.le_refl _, UInt64.le_refl _⟩
  · exact ⟨UInt64.le_of_lt generations, UInt64.le_of_lt ticks⟩

theorem LeaseDeadline.Extended.trans
    {first middle last : LeaseDeadline}
    (early : first.Extended middle)
    (late : middle.Extended last) :
    first.Extended last := by
  rcases late with rfl | ⟨generations, ticks⟩
  · exact early
  · exact Or.inr ⟨UInt64.lt_of_le_of_lt early.le.1 generations,
      UInt64.lt_of_le_of_lt early.le.2 ticks⟩

/-- Clock and deadlines of a later state. -/
structure LeaseState.KeepsDeadlines (earlier later : LeaseState) : Prop where
  clock : earlier.clock ≤ later.clock
  deadlines :
    ∀ (id : BlockId) (deadline : LeaseDeadline),
      earlier.deadlines[id]? = some deadline →
        ∃ kept, later.deadlines[id]? = some kept ∧ deadline.Extended kept

namespace LeaseState.KeepsDeadlines

theorem of_same
    {earlier later : LeaseState}
    (sameClock : later.clock = earlier.clock)
    (sameDeadlines : later.deadlines = earlier.deadlines) :
    earlier.KeepsDeadlines later where
  clock := by
    rw [sameClock]
    exact UInt64.le_refl _
  deadlines := by
    intro id deadline found
    exact ⟨deadline, by rw [sameDeadlines]; exact found, Or.inl rfl⟩

theorem refl (leases : LeaseState) : leases.KeepsDeadlines leases :=
  of_same rfl rfl

theorem trans
    {first middle last : LeaseState}
    (early : first.KeepsDeadlines middle)
    (late : middle.KeepsDeadlines last) :
    first.KeepsDeadlines last where
  clock := UInt64.le_trans early.clock late.clock
  deadlines := by
    intro id deadline found
    obtain ⟨kept, keptFound, extended⟩ := early.deadlines id deadline found
    obtain ⟨final, finalFound, further⟩ := late.deadlines id kept keptFound
    exact ⟨final, finalFound, extended.trans further⟩

end LeaseState.KeepsDeadlines

section Runs

variable {bindingKey : CacheKey → String} {state next : MetadataState}
  {request : Request} {response : Response} {entries : List Entry}
  {lease : BlockId} {agent : AgentId} {stored : LeaseDeadline} {entry : Entry}

/-- No transition shortens a deadline or turns the clock back. -/
theorem transition_keepsDeadlines
    (step : Transition bindingKey state request next response) :
    state.leases.KeepsDeadlines next.leases := by
  cases step with
  | reserved =>
      obtain ⟨revisions, shape⟩ := activateLeases_frame state
      rw [shape]
      exact .of_same rfl rfl
  | @renewed lease agent expected ttl deadlineTick record found owner
      uncommitted notCancelled notExpired ttlValid unsaturated current issued
      extending =>
      refine ⟨UInt64.le_refl _, ?_⟩
      intro id deadline deadlineFound
      by_cases same : lease = id
      · subst same
        refine ⟨_, ExtTreeMap.getElem?_insert_self, Or.inr ⟨?_, ?_⟩⟩
        · rw [deadlineFound, Option.map_some, Option.getD_some] at current
          rw [current]
          exact lt_add_one_of_ne_maxWord unsaturated
        · exact extending deadline deadlineFound
      · have different : compare lease id ≠ .eq :=
          fun equal => same (Std.LawfulEqOrd.eq_of_compare equal)
        refine ⟨deadline, ?_, Or.inl rfl⟩
        rw [ExtTreeMap.getElem?_insert, if_neg different]
        exact deadlineFound
  | advanced ticked =>
      refine ⟨le_of_checkedAdd ticked, ?_⟩
      intro id deadline found
      exact ⟨deadline, found, Or.inl rfl⟩
  | chained agent bindings =>
      rw [bindAll_frame, LeaseState.bumpRevisions_frame]
      exact .of_same rfl rfl
  | bound agent link =>
      rw [bindAll_frame, LeaseState.bumpRevisions_frame]
      exact .of_same rfl rfl
  | @committed lease agent binding expectedRevision record guards =>
      rw [bindOne_eq_bindAll, recordCommit, bindAll_frame,
        LeaseState.bumpRevisions_frame]
      exact .of_same rfl rfl
  | _ =>
      exact .of_same rfl rfl

theorem stepEntry_keepsDeadlines
    (consistent : state.Consistent bindingKey)
    (entry : Entry) :
    state.leases.KeepsDeadlines (stepEntry bindingKey state entry).leases := by
  refine applyEntry_preserves bindingKey state
    (fun next => state.leases.KeepsDeadlines next.leases) ?_
    consistent.leases.dormant ?_ ?_
  · exact .refl _
  · intro membership
    exact .refl _
  · intro request next response _ _ step _
    have keeps := transition_keepsDeadlines step
    exact keeps

theorem stateAt_keepsDeadlines
    {earlier later : Nat}
    (ordered : earlier ≤ later) :
    (stateAt bindingKey {} entries earlier).leases.KeepsDeadlines
      (stateAt bindingKey {} entries later).leases :=
  stateAt_related .empty
    (fun first last => first.leases.KeepsDeadlines last.leases)
    (fun _ => .refl _)
    (fun _ _ _ => .trans)
    (fun _ entry consistent => stepEntry_keepsDeadlines consistent entry)
    ordered

/-! ## Renewals, retries and expiries -/

/-- What an acknowledged renewal stores. -/
theorem renew_acknowledged
    {expected ttl generation deadlineTick : UInt64}
    (renewed :
      (renew state lease agent expected ttl).2 =
        .leaseRenewed generation deadlineTick) :
    expected ≠ maxWord ∧
      generation = expected + 1 ∧
      (renew state lease agent expected ttl).1.leases.deadlines[lease]? =
        some {
          generation := generation
          deadlineTick := deadlineTick
          ttlTicks := ttl } := by
  unfold renew at renewed ⊢
  cases found : state.leases.records[lease]? with
  | none =>
      simp [found] at renewed
  | some record =>
      simp only [found] at renewed ⊢
      split at renewed
      · cases renewed
      rename_i pending
      split at renewed
      · cases renewed
      rename_i valid
      rw [if_neg pending, if_neg valid]
      have unsaturated : expected ≠ maxWord :=
        fun same => valid (Or.inr same)
      split at renewed
      · rename_i old matched
        cases renewed
        obtain ⟨stored, sameRequest⟩ := Option.filter_eq_some_iff.mp matched
        simp only [Bool.and_eq_true, beq_iff_eq] at sameRequest
        refine ⟨unsaturated, sameRequest.1, ?_⟩
        simp only [stored, ← sameRequest.2]
      · split at renewed
        · cases renewed
        rename_i current
        split at renewed
        · cases renewed
        split at renewed
        · cases renewed
        rename_i extending
        cases renewed
        rw [not_not] at current
        simp only [if_neg extending, ← current]
        exact ⟨unsaturated, by simp⟩

/-- A retry of an acknowledged renewal is answered from the stored deadline. -/
theorem renew_retried
    {expected ttl deadlineTick : UInt64}
    (unsaturated : expected ≠ maxWord)
    (found : state.leases.deadlines[lease]? = some stored)
    (extended :
      LeaseDeadline.Extended
        { generation := expected + 1
          deadlineTick := deadlineTick
          ttlTicks := ttl } stored) :
    (renew state lease agent expected ttl).1 = state ∧
      ((renew state lease agent expected ttl).2 =
          .leaseRenewed (expected + 1) deadlineTick ∨
        (renew state lease agent expected ttl).2.isRejected = true) := by
  have past : expected < stored.generation :=
    UInt64.lt_of_lt_of_le (lt_add_one_of_ne_maxWord unsaturated)
      extended.le.1
  unfold renew
  cases recorded : state.leases.records[lease]? with
  | none =>
      exact ⟨rfl, Or.inr rfl⟩
  | some record =>
      simp only [found, Option.map_some, Option.getD_some]
      split
      · exact ⟨rfl, Or.inr rfl⟩
      split
      · exact ⟨rfl, Or.inr rfl⟩
      split
      · rename_i old matched
        obtain ⟨same, sameRequest⟩ := Option.filter_eq_some_iff.mp matched
        cases same
        simp only [Bool.and_eq_true, beq_iff_eq] at sameRequest
        rcases extended with rfl | ⟨later, -⟩
        · exact ⟨rfl, Or.inl rfl⟩
        · rw [sameRequest.1] at later
          exact absurd later (UInt64.lt_irrefl _)
      · rw [if_pos (UInt64.ne_of_lt past)]
        exact ⟨rfl, Or.inr rfl⟩

/-- Only the current generation and deadline of a due lease can expire it. -/
theorem expire_rejected
    {generation deadlineTick : UInt64}
    (stale :
      state.leases.isExpired lease = false ∨
        ∀ stored : LeaseDeadline,
          state.leases.deadlines[lease]? = some stored →
            stored.generation ≠ generation ∨
              stored.deadlineTick ≠ deadlineTick) :
    (expire state lease generation deadlineTick).2.isRejected = true := by
  cases found : state.leases.deadlines[lease]? with
  | none =>
      simp [expire, found, Response.isRejected]
  | some stored =>
      have blocked :
          (!state.leases.isExpired lease ||
            (stored.generation != generation ||
              stored.deadlineTick != deadlineTick)) = true := by
        rcases stale with notDue | stale
        · simp [notDue]
        · rcases stale stored found with other | other
          · simp [other]
          · simp [other]
      simp only [expire, found]
      rw [if_pos blocked]
      rfl

/-- A lease whose deadline lies ahead is not expired. -/
theorem isExpired_of_deadline_ahead
    {leases : LeaseState}
    (wellFormed : leases.WellFormed bindingKey)
    (found : leases.deadlines[lease]? = some stored)
    (ahead : leases.clock < stored.deadlineTick) :
    leases.isExpired lease = false := by
  have notPast : ¬ leases.PastDeadline lease := by
    rintro ⟨deadline, deadlineFound, past⟩
    rw [found] at deadlineFound
    cases deadlineFound
    exact UInt64.lt_irrefl _ (UInt64.lt_of_lt_of_le ahead past)
  by_contra due
  rw [Bool.not_eq_false, LeaseState.isExpired_iff] at due
  obtain ⟨-, -, marked | past⟩ := due
  · exact notPast (wellFormed.expiredValid lease marked).2.2
  · exact notPast past

/-! ## From handlers to log entries -/

/-- A request that its handler rejects is rejected. -/
theorem replyEntry_rejected
    (payload : entry.payload = .normal request)
    (rejected :
      (applyUnfenced bindingKey
        { state with lastApplied := some entry.logId }
        request).2.isRejected = true) :
    (replyEntry bindingKey state entry).isRejected = true := by
  simp only [replyEntry, applyEntry, payload]
  by_contra answered
  rw [Bool.not_eq_true] at answered
  rw [(applyOne_of_accepted bindingKey _ answered).2.1] at rejected
  cases rejected

/-- An accepted request leaves the leases as its handler leaves them. -/
theorem applyEntry_of_accepted
    (payload : entry.payload = .normal request)
    (accepted : (replyEntry bindingKey state entry).isRejected = false) :
    replyEntry bindingKey state entry =
        (applyUnfenced bindingKey
          { state with lastApplied := some entry.logId } request).2 ∧
      (stepEntry bindingKey state entry).leases =
        (applyUnfenced bindingKey
          { state with lastApplied := some entry.logId } request).1.leases := by
  simp only [replyEntry, stepEntry, applyEntry, payload] at accepted ⊢
  rw [(applyOne_of_accepted bindingKey _ accepted).2.2]
  exact ⟨rfl, rfl⟩

/-- A rejected request leaves the leases as they were. -/
theorem leases_of_rejected
    (consistent : state.Consistent bindingKey)
    (payload : entry.payload = .normal request)
    (rejected : (replyEntry bindingKey state entry).isRejected = true) :
    (stepEntry bindingKey state entry).leases = state.leases := by
  simp only [replyEntry, stepEntry, applyEntry, payload] at rejected ⊢
  rw [applyOne_of_rejected bindingKey
    { state with lastApplied := some entry.logId } consistent.leases.dormant
    rejected]

/-- Every state after an acknowledged renewal keeps what it promised. -/
theorem stored_after_renewal
    {position later : Nat}
    {expected ttl generation deadlineTick : UInt64}
    (present : entries[position]? = some entry)
    (payload :
      entry.payload = .normal (.renewUploadLease lease agent expected ttl))
    (renewed :
      replyEntry bindingKey (stateAt bindingKey {} entries position) entry =
        .leaseRenewed generation deadlineTick)
    (ordered : position < later) :
    expected ≠ maxWord ∧ generation = expected + 1 ∧
      ∃ stored : LeaseDeadline,
        (stateAt bindingKey {} entries later).leases.deadlines[lease]? =
            some stored ∧
          LeaseDeadline.Extended
            { generation := generation
              deadlineTick := deadlineTick
              ttlTicks := ttl } stored := by
  have accepted :
      (replyEntry bindingKey (stateAt bindingKey {} entries position)
        entry).isRejected = false := by
    rw [renewed]
    rfl
  obtain ⟨sameReply, sameLeases⟩ := applyEntry_of_accepted payload accepted
  obtain ⟨unsaturated, successor, stored⟩ :=
    renew_acknowledged (sameReply.symm.trans renewed)
  have found :
      (stateAt bindingKey {} entries (position + 1)).leases.deadlines[lease]? =
        some {
          generation := generation
          deadlineTick := deadlineTick
          ttlTicks := ttl } := by
    rw [stateAt_succ present, sameLeases]
    exact stored
  exact ⟨unsaturated, successor,
    (stateAt_keepsDeadlines ordered).deadlines lease _ found⟩

/-- A retry in a state that keeps the promise. -/
theorem stepEntry_retried
    (consistent : state.Consistent bindingKey)
    {retry : Entry}
    {expected ttl deadlineTick : UInt64}
    (payload :
      retry.payload = .normal (.renewUploadLease lease agent expected ttl))
    (unsaturated : expected ≠ maxWord)
    (found : state.leases.deadlines[lease]? = some stored)
    (extended :
      LeaseDeadline.Extended
        { generation := expected + 1
          deadlineTick := deadlineTick
          ttlTicks := ttl } stored) :
    (replyEntry bindingKey state retry =
        .leaseRenewed (expected + 1) deadlineTick ∨
      (replyEntry bindingKey state retry).isRejected = true) ∧
    (stepEntry bindingKey state retry).leases = state.leases := by
  cases rejected : (replyEntry bindingKey state retry).isRejected with
  | true =>
      exact ⟨Or.inr rfl, leases_of_rejected consistent payload rejected⟩
  | false =>
      obtain ⟨sameReply, sameLeases⟩ :=
        applyEntry_of_accepted payload rejected
      have stampedFound :
          ({ state with lastApplied := some retry.logId } :
            MetadataState).leases.deadlines[lease]? = some stored := found
      obtain ⟨unchanged, answer⟩ :=
        renew_retried unsaturated stampedFound extended
      refine ⟨Or.inl ?_, ?_⟩
      · rcases answer with same | refused
        · exact sameReply.trans same
        · rw [sameReply] at rejected
          exact absurd (refused.symm.trans rejected) (by decide)
      · have same := congrArg MetadataState.leases unchanged
        rw [sameLeases]
        exact same

/-! ## The clock -/

/-- A tick request moves the clock from the tick it names to the next one. -/
theorem advance_clock
    {expected : UInt64}
    (moved : (advance state expected).1.leases.clock ≠ state.leases.clock) :
    state.leases.clock = expected ∧
      (advance state expected).1.leases.clock.toNat =
        expected.toNat + 1 := by
  unfold advance at moved ⊢
  split at moved
  · exact absurd rfl moved
  split at moved
  · exact absurd rfl moved
  rename_i notPast current
  rw [not_not] at current
  split at moved
  · exact absurd rfl moved
  rename_i next ticked
  rw [if_neg notPast, if_neg (not_not.mpr current)]
  have value := toNat_of_checkedAdd ticked
  rw [UInt64.toNat_one] at value
  exact ⟨current.symm, value⟩

theorem stepEntry_clock
    (consistent : state.Consistent bindingKey)
    {expected : UInt64}
    (payload : entry.payload = .normal (.advanceLeaseClock expected))
    (moved :
      (stepEntry bindingKey state entry).leases.clock ≠
        state.leases.clock) :
    state.leases.clock = expected ∧
      (stepEntry bindingKey state entry).leases.clock.toNat =
        expected.toNat + 1 := by
  cases rejected : (replyEntry bindingKey state entry).isRejected with
  | true =>
      rw [leases_of_rejected consistent payload rejected] at moved
      exact absurd rfl moved
  | false =>
      have sameLeases := (applyEntry_of_accepted payload rejected).2
      rw [sameLeases] at moved ⊢
      have ticked := advance_clock
        (show (advance { state with lastApplied := some entry.logId }
          expected).1.leases.clock ≠ state.leases.clock from moved)
      exact ticked

/--
Acknowledged deadlines are honoured over every run from the empty state.
After a renewal returned a generation and a deadline, every later state
stores at least these; while the clock is below the deadline the lease is not
expired and no expiry request for it is accepted; and the same renewal
request, whenever it is repeated, returns the same answer or is rejected and
leaves the stored deadline alone.  An expiry request that does not name the
stored generation and deadline is rejected, and of the tick requests that
name one tick at most one moves the clock.
-/
theorem acknowledged_deadlines_honoured
    (bindingKey : CacheKey → String)
    (entries : List Entry) :
    (∀ position entry lease agent expected ttl generation deadlineTick,
      entries[position]? = some entry →
      entry.payload =
        .normal (.renewUploadLease lease agent expected ttl) →
      replyEntry bindingKey (stateAt bindingKey {} entries position) entry =
        .leaseRenewed generation deadlineTick →
      ∀ later, position < later →
        let state := stateAt bindingKey {} entries later
        (∃ stored : LeaseDeadline,
          state.leases.deadlines[lease]? = some stored ∧
            generation ≤ stored.generation ∧
            deadlineTick ≤ stored.deadlineTick) ∧
        (state.leases.clock < deadlineTick →
          state.leases.isExpired lease = false ∧
          ∀ (expiry : Entry) namedGeneration namedTick,
            expiry.payload =
              .normal (.expireUploadLease lease namedGeneration namedTick) →
            (replyEntry bindingKey state expiry).isRejected = true) ∧
        ∀ retry : Entry,
          retry.payload =
            .normal (.renewUploadLease lease agent expected ttl) →
          (replyEntry bindingKey state retry =
              .leaseRenewed generation deadlineTick ∨
            (replyEntry bindingKey state retry).isRejected = true) ∧
          (stepEntry bindingKey state retry).leases.deadlines[lease]? =
            state.leases.deadlines[lease]?) ∧
    (∀ (position : Nat) (expiry : Entry) lease generation deadlineTick,
      let state := stateAt bindingKey {} entries position
      expiry.payload =
        .normal (.expireUploadLease lease generation deadlineTick) →
      (∀ stored : LeaseDeadline,
        state.leases.deadlines[lease]? = some stored →
          stored.generation ≠ generation ∨
            stored.deadlineTick ≠ deadlineTick) →
      (replyEntry bindingKey state expiry).isRejected = true) ∧
    (∀ first second earlier later expected, first < second →
      entries[first]? = some earlier →
      entries[second]? = some later →
      earlier.payload = .normal (.advanceLeaseClock expected) →
      later.payload = .normal (.advanceLeaseClock expected) →
      (stateAt bindingKey {} entries (first + 1)).leases.clock =
          (stateAt bindingKey {} entries first).leases.clock ∨
        (stateAt bindingKey {} entries (second + 1)).leases.clock =
          (stateAt bindingKey {} entries second).leases.clock) := by
  have consistent (position : Nat) :
      (stateAt bindingKey {} entries position).Consistent bindingKey :=
    stateAt_consistent .empty position
  refine ⟨?_, ?_, ?_⟩
  · intro position entry lease agent expected ttl generation deadlineTick
      present payload renewed later ordered state
    obtain ⟨unsaturated, rfl, stored, found, extended⟩ :=
      stored_after_renewal present payload renewed ordered
    refine ⟨⟨stored, found, extended.le⟩, ?_, ?_⟩
    · intro ahead
      have pending : state.leases.isExpired lease = false :=
        isExpired_of_deadline_ahead (consistent later).leases found
          (UInt64.lt_of_lt_of_le ahead extended.le.2)
      refine ⟨pending, ?_⟩
      intro expiry namedGeneration namedTick expiryPayload
      exact replyEntry_rejected expiryPayload
        (expire_rejected (Or.inl pending))
    · intro retry retryPayload
      obtain ⟨answer, sameLeases⟩ :=
        stepEntry_retried (consistent later) retryPayload unsaturated found
          extended
      exact ⟨answer, by rw [sameLeases]⟩
  · intro position expiry lease generation deadlineTick state payload stale
    exact replyEntry_rejected payload (expire_rejected (Or.inr stale))
  · intro first second earlier later expected ordered firstPresent
      secondPresent firstPayload secondPayload
    by_contra both
    rw [not_or] at both
    obtain ⟨firstMoved, secondMoved⟩ := both
    rw [stateAt_succ firstPresent] at firstMoved
    rw [stateAt_succ secondPresent] at secondMoved
    have firstTick :=
      (stepEntry_clock (consistent first) firstPayload firstMoved).2
    have secondTick :=
      (stepEntry_clock (consistent second) secondPayload secondMoved).1
    rw [← stateAt_succ firstPresent] at firstTick
    have between :
        (stateAt bindingKey {} entries (first + 1)).leases.clock ≤
          (stateAt bindingKey {} entries second).leases.clock :=
      (stateAt_keepsDeadlines ordered).clock
    rw [secondTick, UInt64.le_iff_toNat_le, firstTick] at between
    omega

end Runs

/-- A lease is renewed, and a tick is requested twice. -/
def renewedLog : List Entry :=
  [⟨⟨⟨1, 1⟩, 1⟩, .normal (.registerAgent (.filled 1) "agent")⟩,
    ⟨⟨⟨1, 1⟩, 2⟩,
      .normal (.beginUploadLease (.filled 9) (.filled 1) [.filled 2])⟩,
    ⟨⟨⟨1, 1⟩, 3⟩,
      .normal (.renewUploadLease (.filled 9) (.filled 1) 0 5)⟩,
    ⟨⟨⟨1, 1⟩, 4⟩, .normal (.advanceLeaseClock 0)⟩,
    ⟨⟨⟨1, 1⟩, 5⟩, .normal (.advanceLeaseClock 0)⟩]

/-- The expiry of the renewed lease, and one of its generation before. -/
theorem acknowledged_deadlines_honoured_renewed :
    let states := stateAt serdeBindingKey {} renewedLog
    let expiry := fun generation =>
      replyEntry serdeBindingKey (states 5)
        ⟨⟨⟨1, 1⟩, 6⟩,
          .normal (.expireUploadLease (.filled 9) generation 5)⟩
    (states 5).leases.clock = 1 ∧
      (states 5).leases.isExpired (.filled 9) = false ∧
      (expiry 1).isRejected = true ∧
      (expiry 0).isRejected = true ∧
      ((states 4).leases.clock = (states 3).leases.clock ∨
        (states 5).leases.clock = (states 4).leases.clock) := by
  intro states expiry
  obtain ⟨renewals, expiries, ticks⟩ :=
    acknowledged_deadlines_honoured serdeBindingKey renewedLog
  have facts :
      (states 5).leases.clock = 1 ∧
        replyEntry serdeBindingKey (states 2)
            ⟨⟨⟨1, 1⟩, 3⟩,
              .normal (.renewUploadLease (.filled 9) (.filled 1) 0 5)⟩ =
          .leaseRenewed 1 5 ∧
        ((states 5).leases.deadlines[BlockId.filled 9]?.all fun stored =>
          stored.generation = 1) = true := by
    decide +kernel
  obtain ⟨clock, renewed, generation⟩ := facts
  have honoured := (renewals 2 _ (.filled 9) (.filled 1) 0 5 1 5 rfl rfl
    renewed 5 (by decide)).2.1 (by rw [clock]; decide)
  refine ⟨clock, honoured.1, honoured.2 _ 1 5 rfl,
    expiries 5 _ (.filled 9) 0 5 rfl ?_,
    ticks 3 4 _ _ 0 (by decide) rfl rfl rfl rfl⟩
  intro stored found
  rw [found] at generation
  left
  rw [of_decide_eq_true generation]
  decide

end KalpakDb
