import Mathlib

namespace KalpakDb.Contract

/-!
# Pre- and postconditions of fallible stateful code

Code runs on a state and either returns a value or fails; what it changed
before a failure stays changed.  A contract therefore has two postconditions,
one for each way to end.  The rules below follow the ways to compose code.
-/

variable {σ ε α β : Type}

/-- Code over a state that survives failures. -/
abbrev Code (σ ε : Type) := ExceptT ε (StateM σ)

/-- How the code ends when it is started in a state. -/
def execute (code : Code σ ε α) (start : σ) : Except ε α × σ :=
  code.run start

/-- Started in a state, the code returns or fails as described. -/
def Ends
    (code : Code σ ε α)
    (start : σ)
    (returned : α → σ → Prop)
    (failed : ε → σ → Prop) : Prop :=
  match execute code start with
  | (.ok value, final) => returned value final
  | (.error error, final) => failed error final

/-- Run some code and adjust the state whenever it fails. -/
def onFailure (adjust : σ → σ) (code : Code σ ε α) : Code σ ε α :=
  fun start =>
    match execute code start with
    | (.ok value, final) => (.ok value, final)
    | (.error error, final) => (.error error, adjust final)

/-- Run some code and return its failure as a value. -/
def observe (code : Code σ ε α) : Code σ ε (Except ε α) :=
  fun start => (.ok (execute code start).1, (execute code start).2)

/-- Run some code on one part of the state. -/
def within
    {τ : Type}
    (view : σ → τ)
    (update : τ → σ → σ)
    (code : Code τ ε α) : Code σ ε α :=
  fun start =>
    ((execute code (view start)).1,
      update (execute code (view start)).2 start)

variable {start : σ} {returned : α → σ → Prop} {failed : ε → σ → Prop}

@[simp] theorem ends_pure (value : α) :
    Ends (pure value : Code σ ε α) start returned failed ↔
      returned value start :=
  Iff.rfl

@[simp] theorem ends_throw (error : ε) :
    Ends (throw error : Code σ ε α) start returned failed ↔
      failed error start :=
  Iff.rfl

@[simp] theorem ends_get
    {returned : σ → σ → Prop} :
    Ends (get : Code σ ε σ) start returned failed ↔ returned start start :=
  Iff.rfl

@[simp] theorem ends_modify
    {returned : Unit → σ → Prop}
    (change : σ → σ) :
    Ends (modify change : Code σ ε Unit) start returned failed ↔
      returned () (change start) :=
  Iff.rfl

theorem execute_pure (value : α) (start : σ) :
    execute (pure value : Code σ ε α) start = (.ok value, start) :=
  rfl

theorem execute_get (start : σ) :
    execute (get : Code σ ε σ) start = (.ok start, start) :=
  rfl

theorem execute_bind
    (code : Code σ ε α)
    (next : α → Code σ ε β)
    (start : σ) :
    execute (code >>= next) start =
      match execute code start with
      | (.ok value, middle) => execute (next value) middle
      | (.error error, middle) => (.error error, middle) := by
  unfold execute
  simp only [ExceptT.run_bind]
  change (match ExceptT.run code start with
    | (result, middle) =>
        (match result with
          | .ok value => ExceptT.run (next value)
          | .error error => pure (.error error) : StateM σ (Except ε β))
          middle) = _
  rcases ExceptT.run code start with ⟨_ | _, middle⟩ <;> rfl

@[simp] theorem ends_bind
    {returned : β → σ → Prop}
    (code : Code σ ε α)
    (next : α → Code σ ε β) :
    Ends (code >>= next) start returned failed ↔
      Ends code start
        (fun value middle => Ends (next value) middle returned failed)
        failed := by
  unfold Ends
  rw [execute_bind]
  rcases execute code start with ⟨_ | _, middle⟩ <;> rfl

@[simp] theorem ends_onFailure
    (adjust : σ → σ)
    (code : Code σ ε α) :
    Ends (onFailure adjust code) start returned failed ↔
      Ends code start returned
        (fun error final => failed error (adjust final)) := by
  unfold Ends
  rw [show execute (onFailure adjust code) start =
    onFailure adjust code start from rfl, onFailure]
  rcases execute code start with ⟨_ | _, final⟩ <;> rfl

@[simp] theorem ends_observe
    {returned : Except ε α → σ → Prop}
    (code : Code σ ε α) :
    Ends (observe code) start returned failed ↔
      Ends code start (fun value final => returned (.ok value) final)
        (fun error final => returned (.error error) final) := by
  unfold Ends
  rw [show execute (observe code) start =
    (.ok (execute code start).1, (execute code start).2) from rfl]
  rcases execute code start with ⟨_ | _, final⟩ <;> rfl

@[simp] theorem ends_within
    {τ : Type}
    (view : σ → τ)
    (update : τ → σ → σ)
    (code : Code τ ε α) :
    Ends (within view update code) start returned failed ↔
      Ends code (view start)
        (fun value part => returned value (update part start))
        (fun error part => failed error (update part start)) := by
  unfold Ends
  rw [show execute (within view update code) start =
    ((execute code (view start)).1,
      update (execute code (view start)).2 start) from rfl]
  rcases execute code (view start) with ⟨_ | _, part⟩ <;> rfl

/-- All code ends somehow. -/
theorem ends_trivial
    (code : Code σ ε α)
    (start : σ) :
    Ends code start (fun _ _ => True) (fun _ _ => True) := by
  unfold Ends
  split <;> trivial

/-- Code ends with its result. -/
theorem ends_result
    (code : Code σ ε α)
    (start : σ) :
    Ends code start
      (fun value _ => (execute code start).1 = .ok value)
      (fun error _ => (execute code start).1 = .error error) := by
  unfold Ends
  split
  · rename_i ok
    rw [ok]
  · rename_i failure
    rw [failure]

/-- Weaker postconditions. -/
theorem Ends.mono
    {code : Code σ ε α}
    {weakReturned : α → σ → Prop}
    {weakFailed : ε → σ → Prop}
    (ends : Ends code start returned failed)
    (onReturn : ∀ value final, returned value final → weakReturned value final)
    (onFail : ∀ error final, failed error final → weakFailed error final) :
    Ends code start weakReturned weakFailed := by
  unfold Ends at ends ⊢
  split at ends
  · exact onReturn _ _ ends
  · exact onFail _ _ ends

/-- A weaker postcondition for the return only. -/
theorem Ends.imp
    {code : Code σ ε α}
    {weakReturned : α → σ → Prop}
    (ends : Ends code start returned failed)
    (onReturn :
      ∀ value final, returned value final → weakReturned value final) :
    Ends code start weakReturned failed :=
  ends.mono onReturn fun _ _ failure => failure

/-- Two contracts of the same code. -/
theorem Ends.and
    {code : Code σ ε α}
    {otherReturned : α → σ → Prop}
    {otherFailed : ε → σ → Prop}
    (ends : Ends code start returned failed)
    (other : Ends code start otherReturned otherFailed) :
    Ends code start
      (fun value final => returned value final ∧ otherReturned value final)
      (fun error final => failed error final ∧ otherFailed error final) := by
  unfold Ends at ends other ⊢
  split <;> simp_all

/-- What a contract says of code that is known to return. -/
theorem ends_of_ok
    {code : Code σ ε α}
    {value : α}
    {final : σ}
    (ok : execute code start = (.ok value, final)) :
    Ends code start returned failed ↔ returned value final := by
  rw [Ends, ok]

/-- What a contract says of code that is known to fail. -/
theorem ends_of_error
    {code : Code σ ε α}
    {error : ε}
    {final : σ}
    (failure : execute code start = (.error error, final)) :
    Ends code start returned failed ↔ failed error final := by
  rw [Ends, failure]

/-- A contract that leaves one way to end determines the execution. -/
theorem Ends.execute_eq
    {code : Code σ ε α}
    {outcome : Except ε α × σ}
    (ends :
      Ends code start (fun value final => outcome = (.ok value, final))
        (fun error final => outcome = (.error error, final))) :
    execute code start = outcome := by
  unfold Ends at ends
  split at ends
  · rename_i value final ok
    rw [ok, ends]
  · rename_i error final failure
    rw [failure, ends]

/-- What holds of the final state however the code ends. -/
theorem Ends.final
    {code : Code σ ε α}
    {assertion : σ → Prop}
    (ends :
      Ends code start (fun _ final => assertion final)
        (fun _ final => assertion final)) :
    assertion (execute code start).2 := by
  unfold Ends at ends
  split at ends <;> simp_all

/-- A contract that leaves one result determines it. -/
theorem Ends.result_eq
    {code : Code σ ε α}
    {outcome : Except ε α}
    (ends :
      Ends code start (fun value _ => outcome = .ok value)
        (fun error _ => outcome = .error error)) :
    (execute code start).1 = outcome := by
  unfold Ends at ends
  split at ends
  · rename_i value final ok
    rw [ok, ends]
  · rename_i error final failure
    rw [failure, ends]

/-- Code that never fails returns. -/
theorem Ends.exists_ok
    {code : Code σ ε α}
    (ends : Ends code start returned (fun _ _ => False)) :
    ∃ value final,
      execute code start = (.ok value, final) ∧ returned value final := by
  unfold Ends at ends
  split at ends
  · rename_i value final ok
    exact ⟨value, final, ok, ends⟩
  · exact ends.elim

/--
The loop rule.  The invariant relates the accumulator, the items still to be
processed, and the state.
-/
theorem ends_foldlM
    {step : β → α → Code σ ε β}
    {failed : ε → σ → Prop}
    (invariant : β → List α → σ → Prop)
    (body :
      ∀ accumulated item rest state,
        invariant accumulated (item :: rest) state →
          Ends (step accumulated item) state
            (fun next final => invariant next rest final) failed)
    {items : List α}
    {initial : β}
    (initially : invariant initial items start) :
    Ends (items.foldlM step initial) start
      (fun result final => invariant result [] final) failed := by
  induction items generalizing initial start with
  | nil =>
      exact initially
  | cons item rest inductionHypothesis =>
      rw [List.foldlM_cons, ends_bind]
      exact (body initial item rest start initially).imp
        fun next final kept => inductionHypothesis kept

/-- The loop rule for counting loops. -/
theorem ends_foldlM_range
    {step : β → Nat → Code σ ε β}
    {failed : ε → σ → Prop}
    (invariant : Nat → β → σ → Prop)
    {count : Nat}
    (body :
      ∀ index accumulated state,
        index < count →
        invariant index accumulated state →
          Ends (step accumulated index) state
            (fun next final => invariant (index + 1) next final) failed)
    {initial : β}
    (initially : invariant 0 initial start) :
    Ends ((List.range count).foldlM step initial) start
      (fun result final => invariant count result final) failed := by
  induction count with
  | zero =>
      exact initially
  | succ count inductionHypothesis =>
      have earlier := inductionHypothesis
        fun index accumulated state within =>
          body index accumulated state (by omega)
      rw [List.range_succ, List.foldlM_append, ends_bind]
      refine earlier.imp ?_
      intro accumulated state kept
      rw [List.foldlM_cons, ends_bind]
      exact body count accumulated state (by omega) kept

/-- One more round of a counting loop. -/
theorem execute_foldlM_range_succ
    (step : β → Nat → Code σ ε β)
    (initial : β)
    (count : Nat)
    (start : σ) :
    execute ((List.range (count + 1)).foldlM step initial) start =
      match execute ((List.range count).foldlM step initial) start with
      | (.ok accumulated, middle) => execute (step accumulated count) middle
      | (.error error, middle) => (.error error, middle) := by
  rw [List.range_succ, List.foldlM_append, execute_bind]
  rcases execute ((List.range count).foldlM step initial) start with
    ⟨_ | accumulated, middle⟩
  · rfl
  · simp only [List.foldlM_cons, List.foldlM_nil, bind_pure]

/-- A counting loop that returns has returned from its first rounds. -/
theorem foldlM_range_ok_of_le
    {step : β → Nat → Code σ ε β}
    {initial : β}
    {count total : Nat}
    (within : count ≤ total)
    {result : β}
    {final : σ}
    (ok :
      execute ((List.range total).foldlM step initial) start =
        (.ok result, final)) :
    ∃ accumulated middle,
      execute ((List.range count).foldlM step initial) start =
        (.ok accumulated, middle) := by
  induction total generalizing result final with
  | zero =>
      obtain rfl : count = 0 := by omega
      exact ⟨result, final, ok⟩
  | succ total inductionHypothesis =>
      rcases Nat.lt_or_eq_of_le within with earlier | rfl
      · rw [execute_foldlM_range_succ] at ok
        rcases before :
            execute ((List.range total).foldlM step initial) start with
          ⟨_ | accumulated, middle⟩
        · simp [before] at ok
        · exact inductionHypothesis (by omega) before
      · exact ⟨result, final, ok⟩

/-- A counting loop that fails has failed in one of its rounds. -/
theorem foldlM_range_error
    {step : β → Nat → Code σ ε β}
    {initial : β}
    {total : Nat}
    {error : ε}
    {final : σ}
    (failure :
      execute ((List.range total).foldlM step initial) start =
        (.error error, final)) :
    ∃ count accumulated middle,
      count < total ∧
      execute ((List.range count).foldlM step initial) start =
        (.ok accumulated, middle) ∧
      execute (step accumulated count) middle = (.error error, final) := by
  induction total with
  | zero =>
      cases failure
  | succ total inductionHypothesis =>
      rw [execute_foldlM_range_succ] at failure
      rcases before :
          execute ((List.range total).foldlM step initial) start with
        ⟨earlier | accumulated, middle⟩
      · simp only [before, Prod.mk.injEq, Except.error.injEq] at failure
        obtain ⟨rfl, rfl⟩ := failure
        obtain ⟨count, accumulated, reached, within, ok, failed⟩ :=
          inductionHypothesis before
        exact ⟨count, accumulated, reached, by omega, ok, failed⟩
      · simp only [before] at failure
        exact ⟨total, accumulated, middle, by omega, before, failure⟩

/-! ## Code that keeps an assertion -/

/-- However the code ends, the assertion still holds. -/
def Keeps (assertion : σ → Prop) (code : Code σ ε α) : Prop :=
  ∀ start, assertion start →
    Ends code start (fun _ final => assertion final)
      (fun _ final => assertion final)

namespace Keeps

variable {assertion : σ → Prop}

theorem pure (value : α) :
    Keeps assertion (Pure.pure value : Code σ ε α) :=
  fun _ holds => holds

theorem throw (error : ε) :
    Keeps assertion (MonadExcept.throw error : Code σ ε α) :=
  fun _ holds => holds

theorem get : Keeps assertion (MonadState.get : Code σ ε σ) :=
  fun _ holds => holds

theorem modify
    {change : σ → σ}
    (kept : ∀ state, assertion state → assertion (change state)) :
    Keeps assertion (modify change : Code σ ε PUnit) :=
  kept

theorem bind
    {code : Code σ ε α}
    {next : α → Code σ ε β}
    (first : Keeps assertion code)
    (second : ∀ value, Keeps assertion (next value)) :
    Keeps assertion (code >>= next) := by
  intro start holds
  rw [ends_bind]
  exact (first start holds).imp fun value middle kept =>
    second value middle kept

theorem foldlM
    {step : β → α → Code σ ε β}
    (each : ∀ accumulated item, Keeps assertion (step accumulated item))
    (items : List α)
    (initial : β) :
    Keeps assertion (items.foldlM step initial) := by
  induction items generalizing initial with
  | nil =>
      exact .pure initial
  | cons item rest inductionHypothesis =>
      rw [List.foldlM_cons]
      exact .bind (each initial item) inductionHypothesis

theorem observe
    {code : Code σ ε α}
    (keeps : Keeps assertion code) :
    Keeps assertion (Contract.observe code) := by
  intro start holds
  rw [ends_observe]
  exact keeps start holds

/-- Code on a part of the state keeps what it keeps of that part. -/
theorem within
    {τ : Type}
    {view : σ → τ}
    {update : τ → σ → σ}
    (viewed : ∀ part state, view (update part state) = part)
    {assertion : τ → Prop}
    {code : Code τ ε α}
    (keeps : Keeps assertion code) :
    Keeps (fun state => assertion (view state))
      (Contract.within view update code) := by
  intro start holds
  rw [ends_within]
  have updated (part : τ) (kept : assertion part) :
      assertion (view (update part start)) := by
    rwa [viewed]
  exact (keeps (view start) holds).mono
    (fun _ part kept => updated part kept)
    (fun _ part kept => updated part kept)

end Keeps

end KalpakDb.Contract
