import KalpakDb.RepairLogHistory
import KalpakDb.RepairSweep

namespace KalpakDb.Repair

/-!
# What a sweep covers

While a sweep lasts, the queue has the next blocks behind the cursor, so the
cursor never jumps over a block that needs several replicas.  Whether such a
block is attempted is decided in its turn: the sweep skips nothing exactly if
every upload is admitted and every pin is recorded.
-/

open Std (ExtTreeMap)
open OrderedPages

theorem behind_some (after id : BlockId) :
    behind (some after) id = true ↔ Precedes after id := by
  simp [behind]

/-- What the cursor has passed comes before what it has not. -/
theorem precedes_of_behind
    {cursor : Option BlockId}
    {passed id : BlockId}
    (isPassed : behind cursor passed = false)
    (ahead : behind cursor id = true) :
    Precedes passed id := by
  cases cursor with
  | none =>
      cases isPassed
  | some after =>
      rw [behind_some] at ahead
      have notAhead : ¬ Precedes after passed := by
        rw [← behind_some, isPassed]
        exact Bool.false_ne_true
      rcases precedes_cases passed after with before | rfl | later
      · exact before.trans ahead
      · exact ahead
      · exact absurd later notAhead

/-- What follows a block behind the cursor is behind it, too. -/
theorem behind_of_precedes
    {cursor : Option BlockId}
    {first id : BlockId}
    (ahead : behind cursor first = true)
    (later : Precedes first id) :
    behind cursor id = true := by
  cases cursor with
  | none =>
      rfl
  | some after =>
      rw [behind_some] at ahead ⊢
      exact ahead.trans later

/--
The queue has the next blocks behind the cursor, and the attempts were made
in front of it, each with the count that its block requires.
-/
structure Sweep.Orderly (need : BlockId → Nat) (sweep : Sweep) : Prop where
  required : ∀ id, sweep.required id = need id
  ascending : Ascending sweep.queue
  ahead : ∀ entry ∈ sweep.queue, behind sweep.cursor entry.1 = true
  counts :
    ∀ entry ∈ sweep.queue,
      entry.2 ≤ need entry.1 ∧
        (1 < need entry.1 → entry.2 = need entry.1)
  next :
    sweep.queue ≠ [] →
      ∀ id,
        1 < need id →
        behind sweep.cursor id = true →
          (∃ count, (id, count) ∈ sweep.queue) ∨
            ∀ entry ∈ sweep.queue, Precedes entry.1 id
  increasing : Ascending sweep.attempts
  passed : ∀ entry ∈ sweep.attempts, behind sweep.cursor entry.1 = false
  attempted :
    ∀ entry ∈ sweep.attempts,
      1 < need entry.1 → entry.2 = need entry.1

/-- Every block in front of the cursor was attempted. -/
def Sweep.Complete (need : BlockId → Nat) (sweep : Sweep) : Prop :=
  ∀ id,
    1 < need id →
    behind sweep.cursor id = false →
      (id, need id) ∈ sweep.attempts

section Orderly

variable {codec : Codec} {blake3 : Bytes → BlockId} {sweep : Sweep}
  {need : BlockId → Nat}

theorem Sweep.Orderly.continues
    (orderly : sweep.Orderly need)
    {next : Sweep}
    (continues : sweep.Continues next) :
    next.Orderly need where
  required id := (continues.required id).trans (orderly.required id)
  ascending := continues.queue ▸ orderly.ascending
  ahead := by
    rw [continues.queue, continues.cursor]
    exact orderly.ahead
  counts := continues.queue ▸ orderly.counts
  next := by
    rw [continues.queue, continues.cursor]
    exact orderly.next
  increasing := continues.attempts ▸ orderly.increasing
  passed := by
    rw [continues.attempts, continues.cursor]
    exact orderly.passed
  attempted := continues.attempts ▸ orderly.attempted

/-- The next batch is queued. -/
theorem Sweep.Orderly.enqueue (orderly : sweep.Orderly need) :
    Sweep.Orderly need { sweep with queue := sweep.candidates } where
  required := orderly.required
  ascending := ascending_mergedPage
  ahead entry member := (required_of_wanted (mem_mergedPage member)).1
  counts := by
    intro entry member
    have wanted : sweep.wanted entry.1 = some entry.2 :=
      mem_mergedPage member
    obtain ⟨ahead, enough⟩ := required_of_wanted wanted
    rw [← orderly.required]
    refine ⟨enough, fun several => ?_⟩
    rw [wanted_of_required several ahead] at wanted
    exact (Option.some.inj wanted).symm
  next := by
    intro _ id several ahead
    rw [← orderly.required] at several
    rcases mem_mergedPage_or_behind (wanted_of_required several ahead)
      (Nat.succ_pos 15) with listed | ⟨-, later⟩
    · exact Or.inl ⟨_, listed⟩
    · exact Or.inr later
  increasing := orderly.increasing
  passed := orderly.passed
  attempted := orderly.attempted

/-- Nothing with several replicas lies between the cursor and the queue. -/
theorem Sweep.Orderly.head_le
    (orderly : sweep.Orderly need)
    {entry : BlockId × Nat}
    {rest : List (BlockId × Nat)}
    (queued : sweep.queue = entry :: rest)
    {id : BlockId}
    (several : 1 < need id)
    (ahead : behind sweep.cursor id = true) :
    id = entry.1 ∨ Precedes entry.1 id := by
  have nonempty : sweep.queue ≠ [] := by
    rw [queued]
    exact List.cons_ne_nil _ _
  have sorted := orderly.ascending
  have next := orderly.next nonempty id several ahead
  rw [queued] at next sorted
  rcases next with ⟨count, listed⟩ | later
  · rcases List.mem_cons.mp listed with same | inRest
    · exact Or.inl (congrArg Prod.fst same)
    · exact Or.inr ((List.pairwise_cons.mp sorted).1 _ inRest)
  · exact Or.inr (later entry List.mem_cons_self)

section Turned

variable {turn : Turn} {entry : BlockId × Nat} {rest : List (BlockId × Nat)}
  {next : Sweep}

theorem Sweep.Turned.mem_queue
    (turned : sweep.Turned codec turn entry rest next)
    {other : BlockId × Nat}
    (member : other ∈ next.queue) :
    other ∈ rest := by
  rcases turned.queue with same | empty
  · rw [same] at member
    exact member
  · rw [empty] at member
    cases member

theorem Sweep.Turned.mem_attempts
    (turned : sweep.Turned codec turn entry rest next)
    {other : BlockId × Nat}
    (member : other ∈ next.attempts) :
    other ∈ sweep.attempts ∨ other = entry := by
  rw [turned.attempts] at member
  split at member
  · rcases List.mem_append.mp member with old | new
    · exact Or.inl old
    · exact Or.inr (List.mem_singleton.mp new)
  · exact Or.inl member

/-- Behind the block at the head of the queue, its rest comes next. -/
theorem Sweep.Orderly.next_rest
    (orderly : sweep.Orderly need)
    (queued : sweep.queue = entry :: rest)
    {id : BlockId}
    (several : 1 < need id)
    (later : Precedes entry.1 id) :
    (∃ count, (id, count) ∈ rest) ∨
      ∀ other ∈ rest, Precedes other.1 id := by
  have headQueued : entry ∈ sweep.queue := by
    rw [queued]
    exact List.mem_cons_self
  have before := orderly.next (List.ne_nil_of_mem headQueued) id several
    (behind_of_precedes (orderly.ahead entry headQueued) later)
  rw [queued] at before
  rcases before with ⟨count, listed⟩ | after
  · rcases List.mem_cons.mp listed with rfl | inRest
    · exact absurd later (not_precedes_self _)
    · exact Or.inl ⟨count, inRest⟩
  · exact Or.inr fun other member =>
      after other (List.mem_cons_of_mem _ member)

/-- The rest of the queue is behind the block that was handled. -/
theorem Sweep.Orderly.turned
    (orderly : sweep.Orderly need)
    (queued : sweep.queue = entry :: rest)
    (turned : sweep.Turned codec turn entry rest next) :
    next.Orderly need := by
  have headQueued : entry ∈ sweep.queue := by
    rw [queued]
    exact List.mem_cons_self
  have sorted := orderly.ascending
  rw [queued] at sorted
  obtain ⟨first, sortedRest⟩ := List.pairwise_cons.mp sorted
  have entryAhead := orderly.ahead entry headQueued
  have earlier : ∀ other ∈ sweep.attempts, Precedes other.1 entry.1 :=
    fun other member =>
      precedes_of_behind (orderly.passed other member) entryAhead
  exact {
    required := fun id => (turned.required id).trans (orderly.required id)
    ascending := by
      rcases turned.queue with same | empty
      · rw [same]
        exact sortedRest
      · rw [empty]
        exact List.Pairwise.nil
    ahead := by
      intro other member
      rw [turned.cursor, behind_some]
      exact first other (turned.mem_queue member)
    counts := by
      intro other member
      refine orderly.counts other ?_
      rw [queued]
      exact List.mem_cons_of_mem _ (turned.mem_queue member)
    next := by
      intro nonempty id several ahead
      rw [turned.cursor, behind_some] at ahead
      rw [turned.queue.resolve_right nonempty]
      exact orderly.next_rest queued several ahead
    increasing := by
      rw [turned.attempts]
      split
      · refine List.pairwise_append.mpr
          ⟨orderly.increasing, List.pairwise_singleton _ _, ?_⟩
        intro other member new isNew
        rw [List.mem_singleton.mp isNew]
        exact earlier other member
      · exact orderly.increasing
    passed := by
      intro other member
      rw [turned.cursor, ← Bool.not_eq_true, behind_some]
      intro after
      rcases turned.mem_attempts member with old | rfl
      · exact not_precedes_self _ ((earlier other old).trans after)
      · exact not_precedes_self _ after
    attempted := by
      intro other member several
      rcases turned.mem_attempts member with old | rfl
      · exact orderly.attempted other old several
      · exact (orderly.counts _ headQueued).2 several }

end Turned

variable (codec blake3) in
/-- A tick that does not end the sweep leaves it where it is. -/
theorem Sweep.Orderly.tick
    (orderly : sweep.Orderly need)
    {commits : BlockId → Bool}
    {leads : Bool}
    (continues : sweep.closes (.tick commits leads) = false) :
    let next := sweep.step codec blake3 (.tick commits leads)
    next.Orderly need ∧
      next.cursor = sweep.cursor ∧
      next.attempts = sweep.attempts := by
  intro next
  have migrated : sweep.Continues (sweep.migrate commits) :=
    continues_migrate commits
  have migratedOrderly := orderly.continues migrated
  by_cases busy : sweep.queue = []
  · cases leads with
    | false =>
        have isNext : next = sweep.migrate commits := by
          simp [next, Sweep.step, busy]
        rw [isNext]
        exact ⟨migratedOrderly, migrated.cursor, migrated.attempts⟩
    | true =>
        have found : (sweep.migrate commits).candidates ≠ [] := by
          simpa [Sweep.closes, busy] using continues
        have isNext : next =
            { sweep.migrate commits with
              queue := (sweep.migrate commits).candidates } := by
          simp [next, Sweep.step, busy, found]
        rw [isNext]
        exact ⟨migratedOrderly.enqueue, migrated.cursor, migrated.attempts⟩
  · have isNext : next = sweep := by
      simp [next, Sweep.step, busy]
    rw [isNext]
    exact ⟨orderly, rfl, rfl⟩

/-- Every block with several replicas that is handled is attempted. -/
def Sweep.Serves
    (codec : Codec)
    (need : BlockId → Nat)
    (sweep : Sweep)
    (turn : Turn) : Prop :=
  ∀ entry rest,
    sweep.queue = entry :: rest →
      1 < need entry.1 → sweep.Attempts codec turn entry

/-- A turn keeps the invariant, whatever becomes of its block. -/
theorem Sweep.Orderly.turn
    (orderly : sweep.Orderly need)
    (turn : Turn) :
    (sweep.step codec blake3 (.turn turn)).Orderly need := by
  cases queued : sweep.queue with
  | nil =>
      unfold Sweep.step
      rw [queued]
      exact orderly
  | cons entry rest =>
      refine orderly.turned queued (turned_step turn queued ?_)
      rw [orderly.required]
      refine (orderly.counts entry ?_).1
      rw [queued]
      exact List.mem_cons_self

/-- Nothing is skipped by a turn exactly if its block is attempted. -/
theorem Sweep.Orderly.complete_turn_iff
    (orderly : sweep.Orderly need)
    (complete : sweep.Complete need)
    (turn : Turn) :
    (sweep.step codec blake3 (.turn turn)).Complete need ↔
      sweep.Serves codec need turn := by
  cases queued : sweep.queue with
  | nil =>
      have same : sweep.step codec blake3 (.turn turn) = sweep := by
        unfold Sweep.step
        rw [queued]
      rw [same]
      refine iff_of_true complete ?_
      intro entry rest isQueue
      rw [queued] at isQueue
      cases isQueue
  | cons entry rest =>
      have headQueued : entry ∈ sweep.queue := by
        rw [queued]
        exact List.mem_cons_self
      obtain ⟨enough, exactCount⟩ := orderly.counts entry headQueued
      rw [← orderly.required] at enough
      have turned : sweep.Turned codec turn entry rest
          (sweep.step codec blake3 (.turn turn)) :=
        turned_step turn queued enough
      constructor
      · intro after other others isQueue several
        rw [queued] at isQueue
        cases isQueue
        have passed : behind
            (sweep.step codec blake3 (.turn turn)).cursor entry.1 =
              false := by
          rw [turned.cursor, ← Bool.not_eq_true, behind_some]
          exact not_precedes_self _
        have listed := after entry.1 several passed
        rw [turned.attempts] at listed
        by_contra skipped
        rw [if_neg skipped] at listed
        have old := orderly.passed _ listed
        rw [orderly.ahead entry headQueued] at old
        cases old
      · intro serves id several passed
        rw [turned.cursor, ← Bool.not_eq_true, behind_some] at passed
        rw [turned.attempts]
        cases ahead : behind sweep.cursor id with
        | false =>
            have old := complete id several ahead
            split
            · exact List.mem_append_left _ old
            · exact old
        | true =>
            have isHead : id = entry.1 :=
              (orderly.head_le queued several ahead).resolve_right passed
            subst isHead
            rw [if_pos (serves entry rest queued several),
              ← exactCount several]
            exact List.mem_append_right _ (List.mem_singleton_self _)

/-- At the end of the sweep nothing is left. -/
theorem Sweep.Orderly.closed
    (orderly : sweep.Orderly need)
    (complete : sweep.Complete need)
    {event : SweepEvent}
    (closes : sweep.closes event = true)
    {id : BlockId}
    (several : 1 < need id) :
    (id, need id) ∈ sweep.attempts := by
  refine complete id several ?_
  cases event with
  | turn turn =>
      cases closes
  | tick commits leads =>
      have nothing : (sweep.migrate commits).candidates = [] := by
        simp only [Sweep.closes, Bool.and_eq_true, decide_eq_true_eq]
          at closes
        exact closes.2
      have migrated : sweep.Continues (sweep.migrate commits) :=
        continues_migrate commits
      rw [← Bool.not_eq_true]
      intro ahead
      rw [← orderly.required, ← migrated.required] at several
      rw [← migrated.cursor] at ahead
      rcases mem_mergedPage_or_behind (wanted_of_required several ahead)
        (Nat.succ_pos 15) with listed | ⟨found, -⟩
      · rw [← candidates_eq, nothing] at listed
        cases listed
      · exact found nothing

/-- No event in front of a position has ended the sweep. -/
def InSweep
    (codec : Codec)
    (blake3 : Bytes → BlockId)
    (start : Sweep)
    (events : List SweepEvent)
    (position : Nat) : Prop :=
  ∀ earlier event,
    earlier < position →
    events[earlier]? = some event →
      (StepRun.before (Sweep.step codec blake3) start events
        earlier).closes event = false

/--
The attempts are made in increasing order and with the required counts, all
that the cursor has passed was attempted, and at the end all there is.
-/
structure SkipsNothing
    (need : BlockId → Nat)
    (sweep : Sweep)
    (upcoming : Option SweepEvent) : Prop where
  increasing : Ascending sweep.attempts
  counts :
    ∀ entry ∈ sweep.attempts,
      1 < need entry.1 → entry.2 = need entry.1
  passed : sweep.Complete need
  closed :
    ∀ event ∈ upcoming,
      sweep.closes event = true →
        ∀ id, 1 < need id → (id, need id) ∈ sweep.attempts

theorem Sweep.Orderly.skipsNothing
    (orderly : sweep.Orderly need)
    (complete : sweep.Complete need)
    (upcoming : Option SweepEvent) :
    SkipsNothing need sweep upcoming where
  increasing := orderly.increasing
  counts := orderly.attempted
  passed := complete
  closed _ _ closes _ several := orderly.closed complete closes several

variable {start : Sweep} {events : List SweepEvent} {position : Nat}

/-- The invariant holds in the whole sweep. -/
theorem Sweep.Orderly.before
    (orderly : start.Orderly need)
    (inSweep : InSweep codec blake3 start events position) :
    (StepRun.before (Sweep.step codec blake3) start events
      position).Orderly need := by
  refine StepRun.holds_until (Sweep.Orderly need) orderly ?_
    (Nat.le_refl position)
  intro earlier event within present before
  cases event with
  | tick commits leads =>
      exact (before.tick codec blake3 (inSweep earlier _ within present)).1
  | turn turn =>
      exact before.turn turn

/-- Nothing is skipped while every turn attempts its block. -/
theorem Sweep.Orderly.complete_before
    (orderly : start.Orderly need)
    (complete : start.Complete need)
    (serves :
      ∀ position turn,
        InSweep codec blake3 start events position →
        events[position]? = some (.turn turn) →
          (StepRun.before (Sweep.step codec blake3) start events
            position).Serves codec need turn)
    (inSweep : InSweep codec blake3 start events position) :
    (StepRun.before (Sweep.step codec blake3) start events
      position).Complete need := by
  refine StepRun.holds_until (Sweep.Complete need) complete ?_
    (Nat.le_refl position)
  intro earlier event within present before
  have inside : InSweep codec blake3 start events earlier :=
    fun first event early => inSweep first event (early.trans within)
  have here := orderly.before inside
  cases event with
  | tick commits leads =>
      obtain ⟨-, cursor, attempts⟩ :=
        here.tick codec blake3 (inSweep earlier _ within present)
      intro id several passed
      rw [cursor] at passed
      rw [attempts]
      exact before id several passed
  | turn turn =>
      exact (here.complete_turn_iff before turn).mpr
        (serves earlier turn inside present)

end Orderly

/--
Over one sweep nothing that needs several replicas is skipped if and only if,
for every block whose turn it is, an upload is admitted and the pin can be
recorded.
-/
theorem repair_sweep_skips_nothing_iff
    (codec : Codec)
    (blake3 : Bytes → BlockId)
    (log : RepairLog)
    (files : Files)
    (replicated : ExtTreeMap BlockId Nat)
    (store : TieredNode)
    (migrationCursor : Option BlockId)
    (events : List SweepEvent) :
    let start : Sweep := {
      log := log
      files := files
      replicated := replicated
      store := store
      migrationCursor := migrationCursor }
    let need := required log.requirements.blocks replicated
    (∀ position,
      InSweep codec blake3 start events position →
        SkipsNothing need
          (StepRun.before (Sweep.step codec blake3) start events position)
          events[position]?) ↔
      ∀ position turn,
        InSweep codec blake3 start events position →
        events[position]? = some (.turn turn) →
          (StepRun.before (Sweep.step codec blake3) start events
            position).Serves codec need turn := by
  intro start need
  have orderly : start.Orderly need := {
    required := fun _ => rfl
    ascending := List.Pairwise.nil
    ahead := nofun
    counts := nofun
    next := fun nonempty => absurd rfl nonempty
    increasing := List.Pairwise.nil
    passed := nofun
    attempted := nofun }
  have complete : start.Complete need := nofun
  constructor
  · intro skipsNothing position turn inSweep present
    have inside : InSweep codec blake3 start events (position + 1) := by
      intro earlier event within isEvent
      rcases Nat.lt_succ_iff_lt_or_eq.mp within with early | rfl
      · exact inSweep earlier event early isEvent
      · rw [present] at isEvent
        cases isEvent
        rfl
    have after := (skipsNothing (position + 1) inside).passed
    rw [StepRun.before_succ present] at after
    exact ((orderly.before inSweep).complete_turn_iff
      (skipsNothing position inSweep).passed turn).mp after
  · intro serves position inSweep
    exact (orderly.before inSweep).skipsNothing
      (orderly.complete_before complete serves inSweep) _

/-! ## Sweeps of single blocks -/

/-- A log with a block that needs two replicas. -/
def pinnedLog : RepairLog where
  generation := List.replicate 64 'a'
  requirements :=
    { version := 1
      blocks := (∅ : ExtTreeMap BlockId Nat).insert (.filled 1) 2 }

def blankStore : TieredNode where
  tiers := .new 0
  cold := {}

/-- A turn in which nothing goes wrong, and nothing is found. -/
def plainTurn (admitted : Bool) : Turn where
  admitted := admitted
  publishFault := none
  readFault := none
  answers := []
  committed := false
  verifyFault := none
  observations := []

/-- Two blocks, one of them in the replicated requirements only. -/
def twoBlocks : Sweep where
  log := pinnedLog
  files := {}
  replicated := (∅ : ExtTreeMap BlockId Nat).insert (.filled 2) 3
  store := blankStore

/-- Both blocks have their turns. -/
def servedSweep : List SweepEvent :=
  [.tick (fun _ => false) true, .turn (plainTurn true),
    .turn (plainTurn true)]

theorem repair_sweep_skips_nothing_iff_served :
    let sweep := StepRun.before (Sweep.step binaryText fun _ => .filled 0)
      twoBlocks servedSweep 3
    Ascending sweep.attempts ∧
      (BlockId.filled 1, 2) ∈ sweep.attempts ∧
      (BlockId.filled 2, 3) ∈ sweep.attempts := by
  have first :
      let sweep := StepRun.before (Sweep.step binaryText fun _ => .filled 0)
        twoBlocks servedSweep 1
      sweep.queue = [(.filled 1, 2), (.filled 2, 3)] ∧
        sweep.Attempts binaryText (plainTurn true) (.filled 1, 2) := by
    decide +kernel
  have second :
      let sweep := StepRun.before (Sweep.step binaryText fun _ => .filled 0)
        twoBlocks servedSweep 2
      sweep.queue = [(.filled 2, 3)] ∧
        sweep.Attempts binaryText (plainTurn true) (.filled 2, 3) := by
    decide +kernel
  have opened : twoBlocks.closes (.tick (fun _ => false) true) = false := by
    decide +kernel
  have inside : InSweep binaryText (fun _ => .filled 0) twoBlocks
      servedSweep 3 := by
    intro earlier event within present
    match earlier with
    | 0 =>
        cases present
        exact opened
    | 1 =>
        cases present
        rfl
    | 2 =>
        cases present
        rfl
  have skipsNothing := (repair_sweep_skips_nothing_iff binaryText
    (fun _ => .filled 0) pinnedLog {} twoBlocks.replicated blankStore none
    servedSweep).mpr (by
      intro position turn _ present entry rest queued _
      match position with
      | 0 =>
          cases present
      | 1 =>
          cases present
          cases first.1.symm.trans queued
          exact first.2
      | 2 =>
          cases present
          cases second.1.symm.trans queued
          exact second.2
      | _ + 3 =>
          cases present) 3 inside
  have passed :
      let sweep := StepRun.before (Sweep.step binaryText fun _ => .filled 0)
        twoBlocks servedSweep 3
      behind sweep.cursor (.filled 1) = false ∧
        behind sweep.cursor (.filled 2) = false ∧
        required pinnedLog.requirements.blocks twoBlocks.replicated
          (.filled 1) = 2 ∧
        required pinnedLog.requirements.blocks twoBlocks.replicated
          (.filled 2) = 3 := by
    decide +kernel
  obtain ⟨firstPassed, secondPassed, two, three⟩ := passed
  refine ⟨skipsNothing.increasing, ?_, ?_⟩
  · have attempted := skipsNothing.passed (.filled 1)
      (by rw [two]; decide) firstPassed
    rw [two] at attempted
    exact attempted
  · have attempted := skipsNothing.passed (.filled 2)
      (by rw [three]; decide) secondPassed
    rw [three] at attempted
    exact attempted

/-- No upload is admitted when it is the turn of the only block. -/
theorem refused_block_skipped :
    let sweep := StepRun.after
      (Sweep.step binaryText fun _ => .filled 0)
      { log := pinnedLog
        files := {}
        replicated := ∅
        store := blankStore }
      [.tick (fun _ => false) true, .turn (plainTurn false)]
    required pinnedLog.requirements.blocks ∅ (.filled 1) = 2 ∧
      sweep.cursor = some (.filled 1) ∧
      sweep.closes (.tick (fun _ => false) true) = true ∧
      sweep.attempts = [] := by
  decide +kernel

end KalpakDb.Repair
