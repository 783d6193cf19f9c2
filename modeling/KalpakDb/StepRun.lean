import Mathlib

namespace KalpakDb.StepRun

/-!
# Runs of a deterministic step function

A deterministic system is a step function that consumes one input at a time.
This module names the states of a finite run, packages induction over a run
as invariant rules, and derives the two facts about pairs of positions that
the development needs: a preorder respected by every step relates earlier
states to later ones, and a counter that every event raises cannot show the
same value on both sides of an event.
-/

variable {State Input Output : Type}

/-- The state reached after consuming every input in order. -/
def after
    (step : State → Input → State)
    (start : State)
    (inputs : List Input) : State :=
  inputs.foldl step start

/-- The state in which the input at one position is about to be consumed. -/
def before
    (step : State → Input → State)
    (start : State)
    (inputs : List Input)
    (position : Nat) : State :=
  after step start (inputs.take position)

/-- The outputs emitted along a run, one for each consumed input. -/
def outputs
    (step : State → Input → State)
    (output : State → Input → Output) :
    State → List Input → List Output
  | _, [] => []
  | state, input :: rest =>
      output state input :: outputs step output (step state input) rest

section Runs

variable {step : State → Input → State} {start : State} {inputs : List Input}
  {position : Nat}

@[simp] theorem after_nil : after step start [] = start := rfl

@[simp] theorem after_cons (input : Input) (rest : List Input) :
    after step start (input :: rest) = after step (step start input) rest :=
  rfl

theorem after_append (first second : List Input) :
    after step start (first ++ second) =
      after step (after step start first) second := by
  simp [after, List.foldl_append]

@[simp] theorem before_zero : before step start inputs 0 = start := by
  simp [before]

/-- Consuming the input at a position leads to the next position's state. -/
theorem before_succ
    {input : Input}
    (present : inputs[position]? = some input) :
    before step start inputs (position + 1) =
      step (before step start inputs position) input := by
  simp only [before, List.take_add_one, present, Option.toList_some]
  rw [after_append, after_cons, after_nil]

/-- Past the end of the inputs the state no longer changes. -/
theorem before_succ_of_none
    (absent : inputs[position]? = none) :
    before step start inputs (position + 1) =
      before step start inputs position := by
  simp only [before, List.take_add_one, absent, Option.toList_none,
    List.append_nil]

/-- The whole run ends where its last position is. -/
theorem after_eq_before :
    after step start inputs = before step start inputs inputs.length := by
  rw [before, List.take_length]

/--
An assertion holds up to a position of a run once it holds initially and
every input consumed before that position preserves it.
-/
theorem holds_until
    (assertion : State → Prop)
    (initially : assertion start)
    {bound : Nat}
    (preserved :
      ∀ position input,
        position < bound →
        inputs[position]? = some input →
        assertion (before step start inputs position) →
        assertion (step (before step start inputs position) input))
    (within : position ≤ bound) :
    assertion (before step start inputs position) := by
  induction position with
  | zero =>
      rw [before_zero]
      exact initially
  | succ position inductionHypothesis =>
      have earlier := inductionHypothesis (Nat.le_of_succ_le within)
      cases present : inputs[position]? with
      | none =>
          rw [before_succ_of_none present]
          exact earlier
      | some input =>
          rw [before_succ present]
          exact preserved position input within present earlier

/--
An assertion holds at every position of a run once it holds initially and
every consumed input preserves it where it is consumed.
-/
theorem holds_before
    (assertion : State → Prop)
    (initially : assertion start)
    (preserved :
      ∀ position input,
        inputs[position]? = some input →
        assertion (before step start inputs position) →
        assertion (step (before step start inputs position) input))
    (position : Nat) :
    assertion (before step start inputs position) :=
  holds_until assertion initially
    (fun position input _ present => preserved position input present)
    (le_refl position)

/-- A step-preserved assertion holds after every run. -/
theorem invariant_after
    {invariant : State → Prop}
    (preserved :
      ∀ state input, invariant state → invariant (step state input)) :
    ∀ {start : State} (inputs : List Input),
      invariant start → invariant (after step start inputs) := by
  intro start inputs
  induction inputs generalizing start with
  | nil =>
      exact id
  | cons input rest inductionHypothesis =>
      intro initially
      exact inductionHypothesis (preserved start input initially)

/--
A reflexive and transitive relation respected by every step of a run relates
every position to every later one.
-/
theorem related_before
    (related : State → State → Prop)
    (reflexive : ∀ state, related state state)
    (transitive :
      ∀ first middle last,
        related first middle → related middle last → related first last)
    (respected :
      ∀ position input,
        inputs[position]? = some input →
        related (before step start inputs position)
          (step (before step start inputs position) input))
    {earlier later : Nat}
    (ordered : earlier ≤ later) :
    related (before step start inputs earlier)
      (before step start inputs later) := by
  induction later, ordered using Nat.le_induction with
  | base =>
      exact reflexive _
  | succ later _ inductionHypothesis =>
      refine transitive _ _ _ inductionHypothesis ?_
      cases present : inputs[later]? with
      | none =>
          rw [before_succ_of_none present]
          exact reflexive _
      | some input =>
          rw [before_succ present]
          exact respected later input present

/--
When every step keeps or raises a counter and every event raises it strictly,
two positions that show the same counter value enclose no event.
-/
theorem no_event_between
    {Counter : Type}
    [PartialOrder Counter]
    (counter : State → Counter)
    (event : State → Input → Prop)
    (keeps :
      ∀ position input,
        inputs[position]? = some input →
        counter (before step start inputs position) ≤
          counter (step (before step start inputs position) input))
    (raises :
      ∀ position input,
        inputs[position]? = some input →
        event (before step start inputs position) input →
        counter (before step start inputs position) <
          counter (step (before step start inputs position) input))
    {earlier position later : Nat}
    {input : Input}
    (afterEarlier : earlier ≤ position)
    (beforeLater : position < later)
    (present : inputs[position]? = some input)
    (same :
      counter (before step start inputs earlier) =
        counter (before step start inputs later)) :
    ¬ event (before step start inputs position) input := by
  have grows
      {low high : Nat}
      (ordered : low ≤ high) :
      counter (before step start inputs low) ≤
        counter (before step start inputs high) :=
    related_before (fun first second => counter first ≤ counter second)
      (fun _ => le_refl _) (fun _ _ _ => le_trans) keeps ordered
  intro happened
  have strict := raises position input present happened
  have next :
      before step start inputs (position + 1) =
        step (before step start inputs position) input :=
    before_succ present
  rw [← next] at strict
  have lower := grows afterEarlier
  have upper := grows (show position + 1 ≤ later from beforeLater)
  exact absurd (same ▸ lt_of_le_of_lt lower (lt_of_lt_of_le strict upper))
    (lt_irrefl _)

end Runs

/-! ## The outputs of a run -/

section Outputs

variable {step : State → Input → State} {output : State → Input → Output}

@[simp] theorem outputs_nil (state : State) :
    outputs step output state [] = [] := rfl

@[simp] theorem outputs_cons
    (state : State)
    (input : Input)
    (rest : List Input) :
    outputs step output state (input :: rest) =
      output state input ::
        outputs step output (step state input) rest := rfl

/-- The outputs in order, one for each input in its state. -/
theorem getElem?_outputs
    {start : State}
    (inputs : List Input)
    (position : Nat) :
    (outputs step output start inputs)[position]? =
      inputs[position]?.map
        (output (before step start inputs position)) := by
  induction inputs generalizing start position with
  | nil =>
      rfl
  | cons input rest inductionHypothesis =>
      cases position with
      | zero =>
          rfl
      | succ position =>
          simpa [before] using inductionHypothesis position

/-- The output at a position answers the input of that position. -/
theorem mem_outputs
    {start : State}
    {inputs : List Input}
    {position : Nat}
    {input : Input}
    (present : inputs[position]? = some input) :
    output (before step start inputs position) input ∈
      outputs step output start inputs := by
  induction inputs generalizing start position with
  | nil =>
      simp at present
  | cons first rest inductionHypothesis =>
      cases position with
      | zero =>
          cases present
          simp
      | succ position =>
          have later :
              output (before step (step start first) rest position) input ∈
                outputs step output (step start first) rest :=
            inductionHypothesis present
          exact List.mem_cons_of_mem _ later

end Outputs

end KalpakDb.StepRun
