import Mathlib

namespace KalpakDb.Resumable

/-!
# Runs that can be resumed

A process works in steps.  A step emits some outputs and then saves the state
it has reached.  A run that is cut off at any point is resumed from the state
that was saved last.  However often this happens, the run that is not cut off
ends in the same state as one that never was, and every output is emitted at
least once.
-/

variable {State Saved Output : Type}

/-- A process whose steps decrease a measure, so that it ends. -/
structure Process (State Output : Type) where
  next : State → Option (List Output × State)
  rank : State → Nat
  decreasing :
    ∀ {state : State} {outputs : List Output} {after : State},
      next state = some (outputs, after) → rank after < rank state

/-- What can be seen of a run. -/
inductive Effect (State Output : Type) where
  | emit (output : Output)
  | save (state : State)

namespace Effect

def map (project : State → Saved) :
    Effect State Output → Effect Saved Output
  | .emit output => .emit output
  | .save state => .save (project state)

def output? : Effect State Output → Option Output
  | .emit output => some output
  | .save _ => none

def saved? : Effect State Output → Option State
  | .emit _ => none
  | .save state => some state

end Effect

/-- The outputs among some effects. -/
def emitted (effects : List (Effect State Output)) : List Output :=
  effects.filterMap Effect.output?

/-- The state that was saved last, if any was. -/
def lastSaved (effects : List (Effect State Output)) : Option State :=
  (effects.filterMap Effect.saved?).getLast?

section Effects

variable {effects later : List (Effect State Output)}

theorem emitted_append :
    emitted (effects ++ later) = emitted effects ++ emitted later :=
  List.filterMap_append

@[simp] theorem emitted_save (state : State) :
    emitted (.save state :: effects) = emitted effects := rfl

@[simp] theorem emitted_emits (outputs : List Output) :
    emitted (outputs.map (Effect.emit : Output → Effect State Output)) =
      outputs := by
  rw [emitted, List.filterMap_map]
  exact List.filterMap_some

/-- Outputs save nothing. -/
theorem filterMap_saved_emits (outputs : List Output) :
    (outputs.map
      (Effect.emit : Output → Effect State Output)).filterMap
        Effect.saved? = [] := by
  rw [List.filterMap_map]
  exact List.filterMap_eq_nil_iff.mpr fun _ _ => rfl

theorem lastSaved_emits (outputs : List Output) :
    lastSaved (outputs.map
      (Effect.emit : Output → Effect State Output)) = none := by
  rw [lastSaved, filterMap_saved_emits]
  rfl

theorem lastSaved_emits_append (outputs : List Output) :
    lastSaved (outputs.map .emit ++ effects) = lastSaved effects := by
  rw [lastSaved, List.filterMap_append, filterMap_saved_emits,
    List.nil_append, lastSaved]

@[simp] theorem lastSaved_save (state : State) :
    lastSaved (.save state :: effects) =
      some ((lastSaved effects).getD state) :=
  List.getLast?_cons

end Effects

namespace Process

variable (process : Process State Output)

/-- The effects of so many steps. -/
def effectsFor : Nat → State → List (Effect State Output)
  | 0, _ => []
  | steps + 1, state =>
      match process.next state with
      | none => []
      | some (outputs, after) =>
          outputs.map .emit ++ .save after :: effectsFor steps after

def stateAfter : Nat → State → State
  | 0, state => state
  | steps + 1, state =>
      match process.next state with
      | none => state
      | some (_, after) => stateAfter steps after

/-- The effects of a run to its end. -/
def effects (state : State) : List (Effect State Output) :=
  process.effectsFor (process.rank state) state

/-- The state in which a run ends. -/
def finish (state : State) : State :=
  process.stateAfter (process.rank state) state

variable {process} {state after : State} {outputs : List Output}

/-- Any two numbers of steps that the measure allows are the same run. -/
theorem effectsFor_eq
    {steps others : Nat}
    (enough : process.rank state ≤ steps)
    (alsoEnough : process.rank state ≤ others) :
    process.effectsFor steps state = process.effectsFor others state ∧
      process.stateAfter steps state = process.stateAfter others state := by
  induction steps generalizing others state with
  | zero =>
      have ended : process.next state = none := by
        cases step : process.next state with
        | none =>
            rfl
        | some result =>
            have smaller := process.decreasing step
            omega
      cases others with
      | zero =>
          exact ⟨rfl, rfl⟩
      | succ others =>
          simp only [effectsFor, stateAfter, ended, and_self]
  | succ steps inductionHypothesis =>
      cases step : process.next state with
      | none =>
          cases others with
          | zero =>
              simp only [effectsFor, stateAfter, step, and_self]
          | succ others =>
              simp only [effectsFor, stateAfter, step, and_self]
      | some result =>
          obtain ⟨outputs, after⟩ := result
          have smaller := process.decreasing step
          cases others with
          | zero =>
              omega
          | succ others =>
              obtain ⟨sameEffects, sameState⟩ :=
                inductionHypothesis
                  (by omega : process.rank after ≤ steps)
                  (by omega : process.rank after ≤ others)
              simp only [effectsFor, stateAfter, step, sameEffects,
                sameState, and_self]

theorem effects_none (ended : process.next state = none) :
    process.effects state = [] ∧ process.finish state = state := by
  obtain ⟨sameEffects, sameState⟩ :=
    process.effectsFor_eq (Nat.le_refl _) (Nat.le_succ (process.rank state))
  rw [effects, finish, sameEffects, sameState, effectsFor, stateAfter, ended]
  exact ⟨rfl, rfl⟩

theorem effects_some
    (step : process.next state = some (outputs, after)) :
    process.effects state =
        outputs.map .emit ++ .save after :: process.effects after ∧
      process.finish state = process.finish after := by
  have smaller := process.decreasing step
  obtain ⟨sameEffects, sameState⟩ :=
    process.effectsFor_eq (Nat.le_refl _) (Nat.le_succ (process.rank state))
  obtain ⟨laterEffects, laterState⟩ :=
    process.effectsFor_eq smaller.le (Nat.le_refl (process.rank after))
  rw [effects, finish, sameEffects, sameState, effectsFor, stateAfter, step]
  dsimp only
  rw [laterEffects, laterState]
  exact ⟨rfl, rfl⟩

/-- Induction along a run. -/
theorem run_induction
    (process : Process State Output)
    {motive : State → Prop}
    (ended : ∀ state, process.next state = none → motive state)
    (step :
      ∀ state outputs after,
        process.next state = some (outputs, after) →
        motive after → motive state)
    (state : State) :
    motive state := by
  induction size : process.rank state using Nat.strong_induction_on
    generalizing state with
  | h size inductionHypothesis =>
      cases isNext : process.next state with
      | none =>
          exact ended state isNext
      | some result =>
          obtain ⟨outputs, after⟩ := result
          have smaller := process.decreasing isNext
          exact step state outputs after isNext
            (inductionHypothesis _ (size ▸ smaller) after rfl)

/-- A run ends where no step is left. -/
theorem next_finish (process : Process State Output) (state : State) :
    process.next (process.finish state) = none := by
  induction state using process.run_induction with
  | ended state isEnded =>
      rw [(effects_none isEnded).2]
      exact isEnded
  | step state outputs after isNext inductionHypothesis =>
      rw [(effects_some isNext).2]
      exact inductionHypothesis

/-- What every step keeps holds of all states that are saved. -/
theorem saved_of_invariant
    {invariant : State → Prop}
    (kept :
      ∀ state outputs after, invariant state →
        process.next state = some (outputs, after) → invariant after)
    (initially : invariant state) :
    (∀ saved ∈ (process.effects state).filterMap Effect.saved?,
      invariant saved) ∧ invariant (process.finish state) := by
  induction state using process.run_induction with
  | ended state isEnded =>
      rw [(effects_none isEnded).1, (effects_none isEnded).2]
      exact ⟨fun _ member => (nomatch member), initially⟩
  | step state outputs after isNext inductionHypothesis =>
      have next := kept state outputs after initially isNext
      obtain ⟨later, atEnd⟩ := inductionHypothesis next
      rw [(effects_some isNext).1, (effects_some isNext).2,
        List.filterMap_append, filterMap_saved_emits, List.nil_append]
      exact ⟨List.forall_mem_cons.mpr ⟨next, later⟩, atEnd⟩

/-! ## Cutting a run off -/

/-- What every step keeps holds of the state that a cut leaves behind. -/
theorem resumed_of_invariant
    {invariant : State → Prop}
    (kept :
      ∀ state outputs after, invariant state →
        process.next state = some (outputs, after) → invariant after)
    (initially : invariant state)
    (cut : Nat) :
    invariant
      ((lastSaved ((process.effects state).take cut)).getD state) := by
  cases saved : lastSaved ((process.effects state).take cut) with
  | none =>
      exact initially
  | some resumed =>
      have performed := List.mem_of_getLast? saved
      have inRun := ((List.take_sublist cut _).filterMap
        Effect.saved?).subset performed
      exact (saved_of_invariant kept initially).1 resumed inRun

/--
A run that is cut off has saved a state from which the run ends alike, and
what it has not emitted will be emitted from there.
-/
theorem cut_off
    (process : Process State Output)
    (state : State)
    (cut : Nat) :
    let performed := (process.effects state).take cut
    let resumed := (lastSaved performed).getD state
    process.finish resumed = process.finish state ∧
      ∀ output ∈ emitted (process.effects state),
        output ∈ emitted performed ∨
          output ∈ emitted (process.effects resumed) := by
  induction state using process.run_induction generalizing cut with
  | ended state isEnded =>
      rw [(effects_none isEnded).1, List.take_nil]
      exact ⟨rfl, fun _ member => nomatch member⟩
  | step state outputs after isNext inductionHypothesis =>
      obtain ⟨isEffects, isFinish⟩ := effects_some isNext
      rw [isEffects, isFinish]
      rcases Nat.lt_or_ge outputs.length cut with behind | before
      · obtain ⟨more, rfl⟩ := Nat.exists_eq_add_of_lt behind
        have performed :
            (outputs.map Effect.emit ++
                Effect.save after :: process.effects after).take
                  (outputs.length + more + 1) =
              outputs.map Effect.emit ++
                Effect.save after :: (process.effects after).take more := by
          rw [List.take_append, List.length_map,
            List.take_of_length_le (by rw [List.length_map]; omega),
            Nat.add_assoc, Nat.add_sub_cancel_left, List.take_succ_cons]
        obtain ⟨sameFinish, covered⟩ := inductionHypothesis more
        rw [performed]
        dsimp only
        rw [lastSaved_emits_append, lastSaved_save, Option.getD_some]
        refine ⟨sameFinish, ?_⟩
        intro output member
        rw [emitted_append, emitted_emits, emitted_save] at member ⊢
        rcases List.mem_append.mp member with now | later
        · exact Or.inl (List.mem_append_left _ now)
        · exact (covered output later).imp_left
            (List.mem_append_right outputs)
      · have performed :
            (outputs.map Effect.emit ++
                Effect.save after :: process.effects after).take cut =
              (outputs.take cut).map Effect.emit := by
          rw [List.take_append_of_le_length
            (by rw [List.length_map]; exact before), List.map_take]
        rw [performed]
        dsimp only
        rw [lastSaved_emits, Option.getD_none, isEffects, isFinish]
        exact ⟨rfl, fun _ member => Or.inr member⟩

/-- The effects of a process are those of one that follows the same steps. -/
theorem effects_map
    {Other : Type}
    {process : Process State Output}
    {other : Process Other Output}
    (project : State → Other)
    {invariant : State → Prop}
    (same :
      ∀ state, invariant state →
        other.next (project state) =
          (process.next state).map fun step => (step.1, project step.2))
    (kept :
      ∀ state outputs after, invariant state →
        process.next state = some (outputs, after) → invariant after)
    {state : State}
    (initially : invariant state) :
    other.effects (project state) =
        (process.effects state).map (Effect.map project) ∧
      other.finish (project state) = project (process.finish state) := by
  induction state using process.run_induction with
  | ended state isEnded =>
      have otherEnded : other.next (project state) = none := by
        rw [same state initially, isEnded]
        rfl
      rw [(effects_none isEnded).1, (effects_none isEnded).2,
        (effects_none otherEnded).1, (effects_none otherEnded).2]
      exact ⟨rfl, rfl⟩
  | step state outputs after isNext inductionHypothesis =>
      have otherNext : other.next (project state) =
          some (outputs, project after) := by
        rw [same state initially, isNext]
        rfl
      obtain ⟨sameEffects, sameFinish⟩ :=
        inductionHypothesis (kept state outputs after initially isNext)
      rw [(effects_some isNext).1, (effects_some isNext).2,
        (effects_some otherNext).1, (effects_some otherNext).2, sameEffects,
        sameFinish, List.map_append, List.map_cons, List.map_map]
      exact ⟨rfl, rfl⟩

end Process

end KalpakDb.Resumable
