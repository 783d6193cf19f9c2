import KalpakDb.SnapshotHistory

namespace KalpakDb

/-!
# Agreement of replicas after an import

A replica that recovered from an older snapshot lacks the block fences of the
others.  Requests neither read nor write fences, except that the capacity
gate counts them.  Two replicas that differ only in their fences therefore
answer an entry alike exactly when the gate gives both the same verdict.
-/

open Std (ExtTreeMap ExtTreeSet)
open MachineWord

namespace MetadataState

/-- The same state with other block fences. -/
@[reducible] def withFences
    (state : MetadataState)
    (fences : ExtTreeMap BlockId UInt64) : MetadataState :=
  { state with blockFences := fences }

/-- Two replicas that agree on everything but their fences. -/
def SameButFences (left right : MetadataState) : Prop :=
  right = left.withFences right.blockFences

end MetadataState

/-! ## Requests do not depend on fences -/

section Independence

variable (bindingKey : CacheKey → String) (state : MetadataState)
  (fences : ExtTreeMap BlockId UInt64)

theorem activateLeases_withFences :
    activateLeases (state.withFences fences) =
      (activateLeases state).withFences fences := by
  unfold activateLeases MetadataState.withFences
  split <;> rfl

theorem reserve_withFences
    (id : BlockId)
    (agent : AgentId)
    (blocks : List BlockId) :
    reserve (state.withFences fences) id agent blocks =
      ((reserve state id agent blocks).1.withFences fences,
        (reserve state id agent blocks).2) := by
  unfold reserve
  rw [activateLeases_withFences]
  dsimp only [MetadataState.withFences]
  cases (activateLeases state).leases.records[id]? with
  | none =>
      simp only
      split_ifs <;> rfl
  | some old =>
      simp only
      split_ifs <;> rfl

theorem cancel_withFences
    (id : BlockId)
    (agent : AgentId) :
    cancel (state.withFences fences) id agent =
      ((cancel state id agent).1.withFences fences,
        (cancel state id agent).2) := by
  unfold cancel
  dsimp only [MetadataState.withFences]
  cases state.leases.records[id]? with
  | none =>
      rfl
  | some record =>
      simp only
      split_ifs <;> rfl

theorem renew_withFences
    (id : BlockId)
    (agent : AgentId)
    (expected ttl : UInt64) :
    renew (state.withFences fences) id agent expected ttl =
      ((renew state id agent expected ttl).1.withFences fences,
        (renew state id agent expected ttl).2) := by
  unfold renew
  dsimp only [MetadataState.withFences]
  cases state.leases.records[id]? with
  | none =>
      rfl
  | some record =>
      simp only
      cases state.leases.deadlines[id]?.filter fun old =>
          old.generation == expected + 1 && old.ttlTicks == ttl with
      | some old =>
          simp only
          split_ifs <;> rfl
      | none =>
          cases checkedAdd state.leases.clock ttl with
          | none =>
              simp only
              split_ifs <;> rfl
          | some deadlineTick =>
              simp only
              split_ifs <;> rfl

theorem advance_withFences (expected : UInt64) :
    advance (state.withFences fences) expected =
      ((advance state expected).1.withFences fences,
        (advance state expected).2) := by
  unfold advance
  dsimp only [MetadataState.withFences]
  cases checkedAdd expected 1 with
  | none =>
      simp only
      split_ifs <;> rfl
  | some next =>
      simp only
      split_ifs <;> rfl

theorem expire_withFences
    (id : BlockId)
    (generation deadlineTick : UInt64) :
    expire (state.withFences fences) id generation deadlineTick =
      ((expire state id generation deadlineTick).1.withFences fences,
        (expire state id generation deadlineTick).2) := by
  unfold expire
  dsimp only [MetadataState.withFences]
  split_ifs <;> rfl

theorem bindAll_withFences
    (agent : AgentId)
    (links : List ChainBinding) :
    bindAll bindingKey (state.withFences fences) agent links =
      (bindAll bindingKey state agent links).withFences fences := by
  induction links generalizing state with
  | nil =>
      rfl
  | cons link rest inductionHypothesis =>
      rw [bindAll_cons, bindAll_cons, ← inductionHypothesis]
      rfl

/-- A request has the same effect and answer whatever the fences are. -/
theorem applyUnfenced_withFences (request : Request) :
    applyUnfenced bindingKey (state.withFences fences) request =
      ((applyUnfenced bindingKey state request).1.withFences fences,
        (applyUnfenced bindingKey state request).2) := by
  cases request with
  | requireReplicas blocks replicas =>
      unfold applyUnfenced
      dsimp only [MetadataState.withFences]
      split_ifs <;> rfl
  | registerAgent agent displayName =>
      rfl
  | bindPrefix agent key blocks parent =>
      rfl
  | bindChain agent links =>
      unfold applyUnfenced
      simp only [bindAll_withFences]
  | beginUploadLease lease agent blocks =>
      exact reserve_withFences state fences lease agent blocks
  | commitUploadLease lease agent binding expectedRevision =>
      have sameCheck :
          validateCommit bindingKey (state.withFences fences) lease agent
              binding expectedRevision =
            validateCommit bindingKey state lease agent binding
              expectedRevision := rfl
      unfold applyUnfenced
      simp only [sameCheck]
      cases validateCommit bindingKey state lease agent binding
          expectedRevision with
      | error message =>
          rfl
      | ok applies =>
          cases applies <;> rfl
  | cancelUploadLease lease agent =>
      exact cancel_withFences state fences lease agent
  | renewUploadLease lease agent expected ttl =>
      exact renew_withFences state fences lease agent expected ttl
  | advanceLeaseClock expected =>
      exact advance_withFences state fences expected
  | expireUploadLease lease generation deadlineTick =>
      exact expire_withFences state fences lease generation deadlineTick

end Independence

/-! ## The capacity gate -/

section Gate

variable (bindingKey : CacheKey → String) {request : Request} {entry : Entry}

/-- Whether the fence capacity gate refuses an entry. -/
def gateRefuses (state : MetadataState) (entry : Entry) : Bool :=
  match entry.payload with
  | .normal request =>
      fencesExhausted state (touchedBlocks bindingKey state request)
  | _ => false

theorem validateCommit_never_exhausted
    (state : MetadataState)
    (lease : BlockId)
    (agent : AgentId)
    (binding : ChainBinding)
    (expectedRevision : UInt64) :
    validateCommit bindingKey state lease agent binding expectedRevision ≠
      .error "block fence capacity exhausted" := by
  unfold validateCommit
  split
  · simp
  · split
    · simp
    · split
      · simp
      · split
        · simp
        · split
          · simp
          · split
            · split <;> simp
            · dsimp only
              split
              · simp
              · split <;> simp

/-- Only the gate answers that fences are exhausted. -/
theorem applyUnfenced_never_exhausted
    (state : MetadataState)
    (request : Request) :
    (applyUnfenced bindingKey state request).2 ≠
      .rejected "block fence capacity exhausted" := by
  cases request with
  | requireReplicas blocks replicas =>
      simp only [applyUnfenced]
      split_ifs <;> simp
  | registerAgent agent displayName =>
      simp [applyUnfenced]
  | bindPrefix agent key blocks parent =>
      simp [applyUnfenced]
  | bindChain agent links =>
      simp [applyUnfenced]
  | beginUploadLease lease agent blocks =>
      simp only [applyUnfenced, reserve]
      split
      · simp
      · split
        · split_ifs <;> simp
        · split_ifs <;> simp
  | commitUploadLease lease agent binding expectedRevision =>
      have other := validateCommit_never_exhausted bindingKey state lease
        agent binding expectedRevision
      simp only [applyUnfenced]
      split
      · rename_i message refused
        rw [refused] at other
        simpa using other
      · simp
      · simp
  | cancelUploadLease lease agent =>
      simp only [applyUnfenced, cancel]
      split
      · simp
      · split_ifs <;> simp
  | renewUploadLease lease agent expected ttl =>
      simp only [applyUnfenced, renew]
      split
      · simp
      · split
        · simp
        · split
          · simp
          · split
            · simp
            · split
              · simp
              · split
                · simp
                · split_ifs <;> simp
  | advanceLeaseClock expected =>
      simp only [applyUnfenced, advance]
      split
      · simp
      · split
        · simp
        · split <;> simp
  | expireUploadLease lease generation deadlineTick =>
      simp only [applyUnfenced, expire]
      split_ifs <;> simp

variable {bindingKey} {left right : MetadataState}

theorem applyOne_of_refused
    {state : MetadataState}
    (refused :
      fencesExhausted state (touchedBlocks bindingKey state request) = true) :
    applyOne bindingKey state request =
      (state, .rejected "block fence capacity exhausted") := by
  simp [applyOne, refused]

/-- An admitted request is answered like the unfenced one. -/
theorem applyOne_of_admitted
    {state : MetadataState}
    (admitted :
      fencesExhausted state (touchedBlocks bindingKey state request) =
        false) :
    (applyOne bindingKey state request).2 =
        (applyUnfenced bindingKey state request).2 ∧
      MetadataState.SameButFences (applyUnfenced bindingKey state request).1
        (applyOne bindingKey state request).1 := by
  unfold applyOne
  simp only [admitted, Bool.false_eq_true, if_false]
  split
  · exact ⟨rfl, rfl⟩
  · exact ⟨rfl, rfl⟩

theorem MetadataState.SameButFences.trans
    {first middle last : MetadataState}
    (early : MetadataState.SameButFences first middle)
    (late : MetadataState.SameButFences middle last) :
    MetadataState.SameButFences first last := by
  unfold MetadataState.SameButFences at early late ⊢
  rw [late, early]

theorem MetadataState.SameButFences.symm
    (same : MetadataState.SameButFences left right) :
    MetadataState.SameButFences right left := by
  unfold MetadataState.SameButFences at same ⊢
  rw [same]

/-- The gate's verdict on a request, seen from the stamped state. -/
theorem gateRefuses_normal
    (state : MetadataState)
    (payload : entry.payload = .normal request) :
    gateRefuses bindingKey state entry =
      fencesExhausted { state with lastApplied := some entry.logId }
        (touchedBlocks bindingKey
          { state with lastApplied := some entry.logId } request) := by
  simp only [gateRefuses, payload]
  cases request <;> rfl

/-- The same verdict of the gate gives the same answer and effect. -/
theorem applyOne_of_sameVerdict
    (state : MetadataState)
    (fences : ExtTreeMap BlockId UInt64)
    (verdict :
      fencesExhausted state (touchedBlocks bindingKey state request) =
        fencesExhausted (state.withFences fences)
          (touchedBlocks bindingKey (state.withFences fences) request)) :
    (applyOne bindingKey state request).2 =
        (applyOne bindingKey (state.withFences fences) request).2 ∧
      MetadataState.SameButFences (applyOne bindingKey state request).1
        (applyOne bindingKey (state.withFences fences) request).1 := by
  cases refused :
      fencesExhausted state (touchedBlocks bindingKey state request) with
  | true =>
      rw [applyOne_of_refused refused,
        applyOne_of_refused (verdict.symm.trans refused)]
      exact ⟨rfl, rfl⟩
  | false =>
      obtain ⟨answer, effect⟩ := applyOne_of_admitted refused
      obtain ⟨otherAnswer, otherEffect⟩ :=
        applyOne_of_admitted (verdict.symm.trans refused)
      rw [applyUnfenced_withFences] at otherAnswer otherEffect
      refine ⟨answer.trans otherAnswer.symm, ?_⟩
      have shared :
          MetadataState.SameButFences
            (applyUnfenced bindingKey state request).1
            ((applyUnfenced bindingKey state request).1.withFences fences) :=
        rfl
      exact effect.symm.trans (shared.trans otherEffect)

/-- Different verdicts give different answers. -/
theorem applyOne_of_otherVerdict
    (state : MetadataState)
    (fences : ExtTreeMap BlockId UInt64)
    (verdict :
      fencesExhausted state (touchedBlocks bindingKey state request) ≠
        fencesExhausted (state.withFences fences)
          (touchedBlocks bindingKey (state.withFences fences) request)) :
    (applyOne bindingKey state request).2 ≠
      (applyOne bindingKey (state.withFences fences) request).2 := by
  cases refused :
      fencesExhausted state (touchedBlocks bindingKey state request) with
  | true =>
      rw [refused, ne_eq, eq_comm, Bool.not_eq_true] at verdict
      rw [applyOne_of_refused refused, (applyOne_of_admitted verdict).1]
      exact (applyUnfenced_never_exhausted bindingKey _ request).symm
  | false =>
      rw [refused, ne_eq, eq_comm, Bool.not_eq_false] at verdict
      rw [applyOne_of_refused verdict, (applyOne_of_admitted refused).1]
      exact applyUnfenced_never_exhausted bindingKey _ request

theorem applyEntry_of_sameVerdict
    (same : MetadataState.SameButFences left right)
    (verdict :
      gateRefuses bindingKey left entry = gateRefuses bindingKey right entry) :
    replyEntry bindingKey left entry = replyEntry bindingKey right entry ∧
      MetadataState.SameButFences (stepEntry bindingKey left entry)
        (stepEntry bindingKey right entry) := by
  unfold MetadataState.SameButFences at same
  generalize right.blockFences = fences at same
  subst right
  cases payload : entry.payload with
  | blank =>
      simp only [replyEntry, stepEntry, applyEntry, payload, true_and]
      rfl
  | membership membership =>
      simp only [replyEntry, stepEntry, applyEntry, payload, true_and]
      rfl
  | normal request =>
      rw [gateRefuses_normal left payload,
        gateRefuses_normal (left.withFences fences) payload] at verdict
      simp only [replyEntry, stepEntry, applyEntry, payload]
      exact applyOne_of_sameVerdict
        { left with lastApplied := some entry.logId } fences verdict

theorem replyEntry_of_otherVerdict
    (same : MetadataState.SameButFences left right)
    (verdict :
      gateRefuses bindingKey left entry ≠ gateRefuses bindingKey right entry) :
    replyEntry bindingKey left entry ≠ replyEntry bindingKey right entry := by
  unfold MetadataState.SameButFences at same
  generalize right.blockFences = fences at same
  subst right
  cases payload : entry.payload with
  | blank =>
      simp [gateRefuses, payload] at verdict
  | membership membership =>
      simp [gateRefuses, payload] at verdict
  | normal request =>
      rw [gateRefuses_normal left payload,
        gateRefuses_normal (left.withFences fences) payload] at verdict
      simp only [replyEntry, applyEntry, payload]
      exact applyOne_of_otherVerdict
        { left with lastApplied := some entry.logId } fences verdict

end Gate

/-! ## Runs of two replicas -/

section Runs

variable (bindingKey : CacheKey → String)

/-- The replies to the entries of a log. -/
def replies
    (start : MetadataState)
    (entries : List Entry) : List Response :=
  StepRun.outputs (stepEntry bindingKey) (replyEntry bindingKey) start entries

/-- At every entry of a log the gate gives both replicas the same verdict. -/
def SameVerdicts
    (left right : MetadataState)
    (entries : List Entry) : Prop :=
  ∀ position entry, entries[position]? = some entry →
    gateRefuses bindingKey (stateAt bindingKey left entries position) entry =
      gateRefuses bindingKey (stateAt bindingKey right entries position) entry

theorem sameVerdicts_cons
    {left right : MetadataState}
    {entry : Entry}
    {rest : List Entry} :
    SameVerdicts bindingKey left right (entry :: rest) ↔
      gateRefuses bindingKey left entry = gateRefuses bindingKey right entry ∧
        SameVerdicts bindingKey (stepEntry bindingKey left entry)
          (stepEntry bindingKey right entry) rest := by
  constructor
  · intro verdicts
    refine ⟨verdicts 0 entry rfl, ?_⟩
    intro position next present
    exact verdicts (position + 1) next present
  · rintro ⟨first, later⟩ position next present
    cases position with
    | zero =>
        cases present
        exact first
    | succ position =>
        exact later position next present

/--
Replicas that agree on everything but their fences give the same replies to a
log exactly when the gate always gives both the same verdict, and then still
agree at its end.
-/
theorem replies_eq_iff_sameVerdicts
    {left right : MetadataState}
    (same : MetadataState.SameButFences left right)
    (entries : List Entry) :
    (replies bindingKey left entries = replies bindingKey right entries ↔
      SameVerdicts bindingKey left right entries) ∧
    (SameVerdicts bindingKey left right entries →
      MetadataState.SameButFences (runFrom bindingKey left entries)
        (runFrom bindingKey right entries)) := by
  induction entries generalizing left right with
  | nil =>
      refine ⟨⟨fun _ => ?_, fun _ => rfl⟩, fun _ => same⟩
      intro position entry present
      simp at present
  | cons entry rest inductionHypothesis =>
      by_cases verdict :
          gateRefuses bindingKey left entry =
            gateRefuses bindingKey right entry
      · obtain ⟨answer, next⟩ := applyEntry_of_sameVerdict same verdict
        obtain ⟨tailReplies, tailAgrees⟩ := inductionHypothesis next
        rw [sameVerdicts_cons]
        constructor
        · rw [← tailReplies]
          simp [replies, answer, verdict]
        · rintro ⟨-, later⟩
          exact tailAgrees later
      · have answer := replyEntry_of_otherVerdict same verdict
        rw [sameVerdicts_cons]
        constructor
        · simp [replies, answer, verdict]
        · rintro ⟨equal, -⟩
          exact absurd equal verdict

end Runs

end KalpakDb
