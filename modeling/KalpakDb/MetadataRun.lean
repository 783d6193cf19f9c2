import KalpakDb.MetadataInvariant
import KalpakDb.StepRun

namespace KalpakDb

/-!
# Runs of the replicated log

A replica applies committed entries in order.  The apply loop computes the
run of the entry step and returns one reply for each entry.  Every state of a
run from a consistent state is consistent, and its positions stay ordered
while log indices increase.
-/

variable (bindingKey : CacheKey → String)

/-- The state after one entry. -/
def stepEntry (state : MetadataState) (entry : Entry) : MetadataState :=
  (applyEntry bindingKey state entry).1

/-- The reply to one entry. -/
def replyEntry (state : MetadataState) (entry : Entry) : Response :=
  (applyEntry bindingKey state entry).2

/-- The state after a whole log. -/
def runFrom (start : MetadataState) (entries : List Entry) : MetadataState :=
  StepRun.after (stepEntry bindingKey) start entries

/-- The state in which the entry at one position is about to be applied. -/
def stateAt
    (start : MetadataState)
    (entries : List Entry)
    (position : Nat) : MetadataState :=
  StepRun.before (stepEntry bindingKey) start entries position

/-- Log indices increase strictly. -/
def IncreasingIndices (entries : List Entry) : Prop :=
  entries.Pairwise fun earlier later =>
    earlier.logId.index < later.logId.index

/-- The apply loop is a run together with its replies. -/
theorem apply_eq_run
    (start : MetadataState)
    (entries : List Entry) :
    apply bindingKey start entries =
      (runFrom bindingKey start entries,
        StepRun.outputs (stepEntry bindingKey) (replyEntry bindingKey)
          start entries) := by
  have accumulated :
      ∀ (replies : List Response) (state : MetadataState),
        entries.foldl
            (fun progress entry =>
              let result := applyEntry bindingKey progress.1 entry
              (result.1, progress.2 ++ [result.2]))
            (state, replies) =
          (runFrom bindingKey state entries,
            replies ++
              StepRun.outputs (stepEntry bindingKey) (replyEntry bindingKey)
                state entries) := by
    induction entries with
    | nil =>
        intro replies state
        simp [runFrom]
    | cons entry rest inductionHypothesis =>
        intro replies state
        rw [List.foldl_cons, inductionHypothesis]
        simp [runFrom, stepEntry, replyEntry]
  have whole := accumulated [] start
  rw [List.nil_append] at whole
  exact whole

variable {bindingKey} {start : MetadataState} {entries : List Entry}

theorem runFrom_consistent
    (consistent : start.Consistent bindingKey)
    (entries : List Entry) :
    (runFrom bindingKey start entries).Consistent bindingKey := by
  have preserved :
      ∀ state entry, state.Consistent bindingKey →
        (stepEntry bindingKey state entry).Consistent bindingKey :=
    fun _ entry earlier => earlier.applyEntry entry
  exact StepRun.invariant_after preserved entries consistent

@[simp] theorem stateAt_zero :
    stateAt bindingKey start entries 0 = start :=
  StepRun.before_zero

theorem stateAt_succ
    {position : Nat}
    {entry : Entry}
    (present : entries[position]? = some entry) :
    stateAt bindingKey start entries (position + 1) =
      stepEntry bindingKey (stateAt bindingKey start entries position)
        entry :=
  StepRun.before_succ present

theorem stateAt_succ_of_none
    {position : Nat}
    (absent : entries[position]? = none) :
    stateAt bindingKey start entries (position + 1) =
      stateAt bindingKey start entries position :=
  StepRun.before_succ_of_none absent

theorem stateAt_consistent
    (consistent : start.Consistent bindingKey)
    (position : Nat) :
    (stateAt bindingKey start entries position).Consistent bindingKey :=
  runFrom_consistent consistent (entries.take position)

/-- What every entry relates to the next state, a run relates to the last. -/
theorem stateAt_related
    (consistent : start.Consistent bindingKey)
    (related : MetadataState → MetadataState → Prop)
    (reflexive : ∀ state, related state state)
    (transitive :
      ∀ first middle last,
        related first middle → related middle last → related first last)
    (respected :
      ∀ state entry, state.Consistent bindingKey →
        related state (stepEntry bindingKey state entry))
    {earlier later : Nat}
    (ordered : earlier ≤ later) :
    related (stateAt bindingKey start entries earlier)
      (stateAt bindingKey start entries later) :=
  StepRun.related_before related reflexive transitive
    (fun position entry _ =>
      respected _ entry (stateAt_consistent consistent position))
    ordered

/-- Applying an entry records its position. -/
theorem stepEntry_lastApplied
    (state : MetadataState)
    (dormant : state.leases.Dormant)
    (entry : Entry) :
    (stepEntry bindingKey state entry).lastApplied = some entry.logId := by
  refine applyEntry_preserves bindingKey state
    (fun next => next.lastApplied = some entry.logId) ?_ dormant ?_ ?_
  · rfl
  · intro membership
    rfl
  · intro request next response _ _ step _
    exact (transition_frame step).2.1

theorem stepEntry_appliedIndex
    (state : MetadataState)
    (dormant : state.leases.Dormant)
    (entry : Entry) :
    (stepEntry bindingKey state entry).appliedIndex = entry.logId.index := by
  unfold MetadataState.appliedIndex
  rw [stepEntry_lastApplied state dormant]
  rfl

/-- While indices increase, every later entry lies past the applied index. -/
theorem appliedIndex_lt_of_increasing
    (consistent : start.Consistent bindingKey)
    (increasing : IncreasingIndices entries)
    {position : Nat}
    {entry : Entry}
    (present : entries[position + 1]? = some entry) :
    (stateAt bindingKey start entries (position + 1)).appliedIndex <
      entry.logId.index := by
  obtain ⟨within, value⟩ := List.getElem?_eq_some_iff.mp present
  have previous : entries[position]? = some entries[position] :=
    List.getElem?_eq_getElem (by omega)
  rw [stateAt_succ previous, stepEntry_appliedIndex _
    (stateAt_consistent consistent position).leases.dormant]
  have ordered := List.pairwise_iff_getElem.mp increasing position
    (position + 1) (by omega) within (by omega)
  rw [value] at ordered
  exact ordered

theorem appliedIndex_le_of_increasing
    (consistent : start.Consistent bindingKey)
    (increasing : IncreasingIndices entries)
    (beyond : ∀ entry ∈ entries, start.appliedIndex ≤ entry.logId.index)
    {position : Nat}
    {entry : Entry}
    (present : entries[position]? = some entry) :
    (stateAt bindingKey start entries position).appliedIndex ≤
      entry.logId.index := by
  cases position with
  | zero =>
      rw [stateAt_zero]
      exact beyond entry (List.mem_of_getElem? present)
  | succ position =>
      exact UInt64.le_of_lt
        (appliedIndex_lt_of_increasing consistent increasing present)

/-- With increasing indices the recorded positions of a run are ordered. -/
theorem stateAt_positioned
    (consistent : start.Consistent bindingKey)
    (positioned : start.Positioned)
    (increasing : IncreasingIndices entries)
    (beyond : ∀ entry ∈ entries, start.appliedIndex ≤ entry.logId.index)
    (position : Nat) :
    (stateAt bindingKey start entries position).Positioned := by
  refine StepRun.holds_before MetadataState.Positioned positioned ?_ position
  intro position entry present earlier
  have later := appliedIndex_le_of_increasing consistent increasing beyond
    present
  exact earlier.applyEntry (stateAt_consistent consistent position).leases
    later

end KalpakDb
