import KalpakDb.DirectReads
import KalpakDb.DisjointWrites

namespace KalpakDb

/-!
# Coalesced writes

With direct I/O a batch of writes is first joined into runs, each in a buffer
of whole blocks, and the runs are submitted in rounds to a ring that performs
those of a round in any order.  The other backend performs the writes one by
one.  Both leave the same file unless a run consists of empty writes only,
whose buffer is a block of zeros all the same, or is longer than what is
written for one ring entry.
-/

open ByteFile (Covers writeAt writeAll)

/-! ## The direct backend -/

abbrev FileWrite := Nat × Bytes

inductive DirectError where
  | offsetNotAligned
  | shortWrite (written expected : Nat)
  deriving DecidableEq

def ringDepth : Nat := 128

/-- Join writes that begin where the one before them ended. -/
def coalesce (start : Nat) (run : Bytes) : List FileWrite → List FileWrite
  | [] => [(start, run)]
  | (offset, bytes) :: rest =>
      if offset = start + run.length then
        coalesce start (run ++ bytes) rest
      else
        (start, run) :: coalesce offset bytes rest

/-- The runs of a batch. -/
def runsOf : List FileWrite → List FileWrite
  | [] => []
  | (offset, bytes) :: rest => coalesce offset bytes rest

/-- A buffer of whole blocks, and at least one, with the run in its front. -/
def alignedBuf (run : Bytes) : Bytes :=
  run ++ List.replicate (max (alignUp run.length) blockAlign - run.length) 0

def alignWrites (writes : List FileWrite) :
    Except DirectError (List FileWrite) :=
  if (runsOf writes).all (fun run => run.1 % blockAlign = 0) then
    .ok ((runsOf writes).map fun run => (run.1, alignedBuf run.2))
  else
    .error .offsetNotAligned

/-- `chunks`, of at most as many as there are items. -/
def chunksOf {α : Type} (size : Nat) : Nat → List α → List (List α)
  | 0, _ => []
  | _ + 1, [] => []
  | count + 1, items =>
      items.take size :: chunksOf size count (items.drop size)

/-- The rounds of a batch; the last entry of a ring is for the flush. -/
def ringRounds (runs : List FileWrite) : List (List FileWrite) :=
  chunksOf (ringDepth - 1) runs.length runs

/-- Only the last round carries the flush. -/
def submissions (syncAfter : Bool) :
    List (List FileWrite) → List (List FileWrite × Bool)
  | [] => []
  | [round] => [(round, syncAfter)]
  | round :: rest => (round, false) :: submissions syncAfter rest

/-- The result, the file, and the file as it was when it was flushed. -/
structure WriteOutcome where
  result : Except DirectError Unit
  bytes : Bytes
  flushed : Option Bytes := none
  deriving DecidableEq

/--
What Linux writes at most for one ring entry: as many whole pages as the
completion result, a signed number of 32 bits, can report.
-/
def maxRingWrite : Nat := 0x7ffff000

/-- The result of an entry; the length field of an entry has 32 bits. -/
def ringResult (run : FileWrite) : Nat :=
  min (run.2.length % 2 ^ 32) maxRingWrite

/-- What is written for an entry. -/
def submitted (run : FileWrite) : FileWrite :=
  (run.1, run.2.take (ringResult run))

/-- The first entry of which less than the buffer is written. -/
def shortWrite? (round : List FileWrite) : Option DirectError :=
  (round.find? fun run => ringResult run ≠ run.2.length).map fun run =>
    .shortWrite (ringResult run) run.2.length

/-- Submit rounds whose entries are performed in the order given. -/
def submitRounds :
    List (List FileWrite × Bool) → Bytes → WriteOutcome
  | [], bytes => { result := .ok (), bytes := bytes }
  | (round, fsync) :: rest, bytes =>
      let written := writeAll (round.map submitted) bytes
      let flushed := if fsync then some written else none
      match shortWrite? round with
      | some error =>
          { result := .error error, bytes := written, flushed := flushed }
      | none =>
          let outcome := submitRounds rest written
          { outcome with flushed := outcome.flushed.or flushed }

/-- `UringFile::write_batch`, with the order in which entries are performed. -/
def writeBatchDirect
    (writes : List FileWrite)
    (syncAfter : Bool)
    (rounds : List (List FileWrite × Bool))
    (bytes : Bytes) : WriteOutcome :=
  if writes.isEmpty then
    { result := .ok ()
      bytes := bytes
      flushed := if syncAfter then some bytes else none }
  else
    submitRounds rounds bytes

/-- The default `write_batch`. -/
def writeBatchPlain
    (writes : List FileWrite)
    (syncAfter : Bool)
    (bytes : Bytes) : WriteOutcome :=
  let written := writeAll writes bytes
  { result := .ok ()
    bytes := written
    flushed := if syncAfter then some written else none }

/-- The entries of each round are performed in some order. -/
def Reorders : List (List FileWrite × Bool) →
    List (List FileWrite × Bool) → Prop :=
  List.Forall₂ fun round other => round.1.Perm other.1 ∧ round.2 = other.2

/-- Whole blocks at distinct places. -/
structure BlockWrites (writes : List FileWrite) : Prop where
  aligned : ∀ write ∈ writes, write.1 % blockAlign = 0
  blocks : ∀ write ∈ writes, write.2.length % blockAlign = 0
  distinct : writes.Pairwise ByteFile.Disjoint

/--
A batch that is coalesced does what its writes do: every byte is written by
one run, whatever the order in a round the outcome is the same, and only the
last round is flushed.
-/
structure MatchesPlain (writes : List FileWrite) : Prop where
  aligned : ∃ runs, alignWrites writes = .ok runs
  once :
    ∀ runs, alignWrites writes = .ok runs →
      ∀ position,
        runs.countP (Covers position ·) =
          if writes.any (Covers position ·) then 1 else 0
  outcome :
    ∀ runs, alignWrites writes = .ok runs →
      ∀ (syncAfter : Bool) (rounds : List (List FileWrite × Bool))
        (bytes : Bytes),
        Reorders (submissions syncAfter (ringRounds runs)) rounds →
          writeBatchDirect writes syncAfter rounds bytes =
            writeBatchPlain writes syncAfter bytes
  flush :
    ∀ runs, alignWrites writes = .ok runs →
      ∀ (syncAfter : Bool) (position : Nat) (round : List FileWrite × Bool),
        (submissions syncAfter (ringRounds runs))[position]? = some round →
          round.2 =
            (syncAfter && position + 1 == (ringRounds runs).length)

/-! ## Runs -/

section Runs

variable {start : Nat} {run : Bytes} {rest writes : List FileWrite}

/-- The runs cover a position as often as the writes do. -/
theorem countP_coalesce (position start : Nat) (run : Bytes)
    (rest : List FileWrite) :
    (coalesce start run rest).countP (Covers position ·) =
      ((start, run) :: rest).countP (Covers position ·) := by
  induction rest generalizing start run with
  | nil =>
      rfl
  | cons write rest inductionHypothesis =>
      obtain ⟨offset, bytes⟩ := write
      rw [coalesce]
      split
      · rename_i continues
        subst continues
        rw [inductionHypothesis, List.countP_cons, List.countP_cons,
          List.countP_cons, ByteFile.covers_append]
        omega
      · rw [List.countP_cons, inductionHypothesis, ← List.countP_cons]

theorem countP_runsOf (writes : List FileWrite) (position : Nat) :
    (runsOf writes).countP (Covers position ·) =
      writes.countP (Covers position ·) := by
  cases writes with
  | nil =>
      rfl
  | cons write rest =>
      exact countP_coalesce position write.1 write.2 rest

/-- The runs do what the writes do. -/
theorem writeAll_coalesce
    (start : Nat)
    (run : Bytes)
    (rest : List FileWrite)
    (bytes : Bytes) :
    writeAll (coalesce start run rest) bytes =
      writeAll ((start, run) :: rest) bytes := by
  induction rest generalizing start run bytes with
  | nil =>
      rfl
  | cons write rest inductionHypothesis =>
      obtain ⟨offset, data⟩ := write
      rw [coalesce]
      split
      · rename_i continues
        subst continues
        rw [inductionHypothesis]
        simp only [writeAll, List.foldl_cons,
          ByteFile.writeAt_writeAt_consecutive]
      · exact inductionHypothesis offset data (writeAt bytes start run)

theorem writeAll_runsOf (writes : List FileWrite) (bytes : Bytes) :
    writeAll (runsOf writes) bytes = writeAll writes bytes := by
  cases writes with
  | nil =>
      rfl
  | cons write rest =>
      exact writeAll_coalesce write.1 write.2 rest bytes

/-- Runs of whole blocks are whole blocks. -/
theorem coalesce_blocks
    (aligned : start % blockAlign = 0 ∧ run.length % blockAlign = 0)
    (later :
      ∀ write ∈ rest,
        write.1 % blockAlign = 0 ∧ write.2.length % blockAlign = 0) :
    ∀ joined ∈ coalesce start run rest,
      joined.1 % blockAlign = 0 ∧ joined.2.length % blockAlign = 0 := by
  induction rest generalizing start run with
  | nil =>
      simpa [coalesce] using aligned
  | cons write rest inductionHypothesis =>
      obtain ⟨offset, bytes⟩ := write
      obtain ⟨next, others⟩ := List.forall_mem_cons.mp later
      rw [coalesce]
      split
      · refine inductionHypothesis ⟨aligned.1, ?_⟩ others
        rw [List.length_append, Nat.add_mod, aligned.2, next.2]
        rfl
      · exact List.forall_mem_cons.mpr
          ⟨aligned, inductionHypothesis next others⟩

theorem BlockWrites.runs
    (blocks : BlockWrites writes) :
    ∀ joined ∈ runsOf writes,
      joined.1 % blockAlign = 0 ∧ joined.2.length % blockAlign = 0 := by
  cases writes with
  | nil =>
      exact fun _ member => nomatch member
  | cons write rest =>
      have all : ∀ other ∈ write :: rest,
          other.1 % blockAlign = 0 ∧ other.2.length % blockAlign = 0 :=
        fun other member =>
          ⟨blocks.aligned other member, blocks.blocks other member⟩
      exact coalesce_blocks (List.forall_mem_cons.mp all).1
        (List.forall_mem_cons.mp all).2

/-- A run of whole blocks fills its buffer, unless it is empty. -/
theorem alignedBuf_of_blocks
    (nonempty : run ≠ [])
    (blocks : run.length % blockAlign = 0) :
    alignedBuf run = run := by
  have long := List.length_pos_iff.mpr nonempty
  have full : max (alignUp run.length) blockAlign - run.length = 0 := by
    unfold alignUp blockAlign at *
    omega
  rw [alignedBuf, full, List.replicate_zero, List.append_nil]

theorem le_length_alignedBuf (run : Bytes) :
    run.length ≤ (alignedBuf run).length := by
  rw [alignedBuf, List.length_append]
  exact Nat.le_add_right _ _

theorem coalesce_ne_nil (start : Nat) (run : Bytes) (rest : List FileWrite) :
    coalesce start run rest ≠ [] := by
  fun_induction coalesce start run rest with
  | case1 =>
      exact List.cons_ne_nil _ _
  | case2 start run bytes rest inductionHypothesis =>
      exact inductionHypothesis
  | case3 =>
      exact List.cons_ne_nil _ _

theorem runsOf_ne_nil (some : writes ≠ []) : runsOf writes ≠ [] := by
  cases writes with
  | nil =>
      exact absurd rfl some
  | cons write rest =>
      exact coalesce_ne_nil write.1 write.2 rest

theorem length_alignedBuf_nil : (alignedBuf []).length = blockAlign := by
  rw [alignedBuf, List.nil_append, List.length_replicate]
  rfl

/-- The batch is accepted. -/
theorem BlockWrites.alignWrites_eq
    (blocks : BlockWrites writes) :
    alignWrites writes =
      .ok ((runsOf writes).map fun run => (run.1, alignedBuf run.2)) := by
  rw [alignWrites, if_pos]
  rw [List.all_eq_true]
  intro joined member
  exact decide_eq_true (blocks.runs joined member).1

/-- Without empty runs the buffers are the runs. -/
theorem BlockWrites.alignWrites_eq_runs
    (blocks : BlockWrites writes)
    (nonempty : ∀ joined ∈ runsOf writes, joined.2 ≠ []) :
    alignWrites writes = .ok (runsOf writes) := by
  rw [blocks.alignWrites_eq]
  congr 1
  refine (List.map_congr_left ?_).trans (List.map_id _)
  intro joined member
  rw [alignedBuf_of_blocks (nonempty joined member)
    (blocks.runs joined member).2]
  rfl

theorem BlockWrites.countP_eq
    (blocks : BlockWrites writes)
    (position : Nat) :
    writes.countP (Covers position ·) =
      if writes.any (Covers position ·) then 1 else 0 := by
  have once := (ByteFile.pairwise_disjoint_iff writes).mp blocks.distinct
    position
  split
  · rename_i covered
    obtain ⟨write, member, covers⟩ := List.any_eq_true.mp covered
    have some : 0 < writes.countP (Covers position ·) :=
      List.countP_pos_iff.mpr ⟨write, member, covers⟩
    omega
  · rename_i uncovered
    rw [List.countP_eq_zero]
    intro write member covers
    exact uncovered (List.any_eq_true.mpr ⟨write, member, covers⟩)

theorem BlockWrites.runs_distinct
    (blocks : BlockWrites writes) :
    (runsOf writes).Pairwise ByteFile.Disjoint := by
  rw [ByteFile.pairwise_disjoint_iff]
  intro position
  rw [countP_runsOf]
  exact (ByteFile.pairwise_disjoint_iff writes).mp blocks.distinct position

end Runs

/-! ## Rounds -/

section Rounds

variable {groups : List (List FileWrite)}

theorem flatten_chunksOf
    {α : Type}
    {size count : Nat}
    {items : List α}
    (positive : 0 < size)
    (enough : items.length ≤ count) :
    (chunksOf size count items).flatten = items := by
  induction count generalizing items with
  | zero =>
      rw [List.length_eq_zero_iff.mp (Nat.le_zero.mp enough)]
      rfl
  | succ count inductionHypothesis =>
      cases items with
      | nil =>
          rfl
      | cons item rest =>
          rw [chunksOf, List.flatten_cons, inductionHypothesis,
            List.take_append_drop]
          · rw [List.length_drop]
            omega
          · exact fun empty => nomatch empty

theorem flatten_ringRounds (runs : List FileWrite) :
    (ringRounds runs).flatten = runs :=
  flatten_chunksOf (by decide) (Nat.le_refl _)

theorem mem_submissions
    {group : List FileWrite}
    (member : group ∈ groups)
    (syncAfter : Bool) :
    ∃ round ∈ submissions syncAfter groups, round.1 = group := by
  fun_induction submissions syncAfter groups with
  | case1 =>
      cases member
  | case2 round =>
      exact ⟨_, List.mem_singleton_self _, (List.mem_singleton.mp member).symm⟩
  | case3 round rest notLast inductionHypothesis =>
      rcases List.mem_cons.mp member with rfl | later
      · exact ⟨_, List.mem_cons_self, rfl⟩
      · obtain ⟨found, isFound, same⟩ := inductionHypothesis later
        exact ⟨found, List.mem_cons_of_mem _ isFound, same⟩

/-- Only the last round is flushed. -/
theorem submissions_flush
    {syncAfter : Bool}
    {position : Nat}
    {round : List FileWrite × Bool}
    (present : (submissions syncAfter groups)[position]? = some round) :
    round.2 = (syncAfter && position + 1 == groups.length) := by
  fun_induction submissions syncAfter groups generalizing position with
  | case1 =>
      cases present
  | case2 group =>
      cases position with
      | zero =>
          cases present
          simp
      | succ position =>
          cases present
  | case3 group rest notLast inductionHypothesis =>
      cases position with
      | zero =>
          cases present
          cases rest with
          | nil =>
              exact absurd rfl notLast
          | cons next others =>
              simp
      | succ position =>
          rw [List.getElem?_cons_succ] at present
          rw [inductionHypothesis present, List.length_cons]
          simp

/-- An entry is written as a whole unless it is longer than one may be. -/
theorem ringResult_eq_iff (run : FileWrite) :
    ringResult run = run.2.length ↔ run.2.length ≤ maxRingWrite := by
  unfold ringResult maxRingWrite
  omega

/-- Runs that fit a ring entry are written as a whole. -/
theorem submitted_of_fits
    {round : List FileWrite}
    (fits : ∀ run ∈ round, run.2.length ≤ maxRingWrite) :
    round.map submitted = round ∧ shortWrite? round = none := by
  refine ⟨?_, ?_⟩
  · refine (List.map_congr_left ?_).trans (List.map_id _)
    intro run member
    rw [submitted, (ringResult_eq_iff run).mpr (fits run member),
      List.take_length]
    rfl
  · rw [shortWrite?, Option.map_eq_none_iff, List.find?_eq_none]
    intro run member
    simpa using (ringResult_eq_iff run).mpr (fits run member)

/-- One round of runs that fit, in any order. -/
theorem submitRounds_cons
    {group order : List FileWrite}
    (same : group.Perm order)
    (fits : ∀ run ∈ group, run.2.length ≤ maxRingWrite)
    (distinct : group.Pairwise ByteFile.Disjoint)
    (fsync : Bool)
    (rest : List (List FileWrite × Bool))
    (bytes : Bytes) :
    submitRounds ((order, fsync) :: rest) bytes =
      { submitRounds rest (writeAll group bytes) with
        flushed :=
          (submitRounds rest (writeAll group bytes)).flushed.or
            (if fsync then some (writeAll group bytes) else none) } := by
  have orderFits : ∀ run ∈ order, run.2.length ≤ maxRingWrite :=
    fun run member => fits run (same.mem_iff.mpr member)
  obtain ⟨whole, notShort⟩ := submitted_of_fits orderFits
  rw [submitRounds, whole, notShort,
    ← ByteFile.writeAll_perm same distinct bytes]

/-- Rounds of runs that fit, in any order of their entries. -/
theorem submitRounds_reordered
    {syncAfter : Bool}
    {rounds : List (List FileWrite × Bool)}
    (nonempty : groups ≠ [])
    (fits : ∀ group ∈ groups, ∀ run ∈ group, run.2.length ≤ maxRingWrite)
    (distinct : ∀ group ∈ groups, group.Pairwise ByteFile.Disjoint)
    (reorders : Reorders (submissions syncAfter groups) rounds)
    (bytes : Bytes) :
    submitRounds rounds bytes =
      { result := .ok ()
        bytes := writeAll groups.flatten bytes
        flushed :=
          if syncAfter then some (writeAll groups.flatten bytes)
          else none } := by
  fun_induction submissions syncAfter groups generalizing rounds bytes with
  | case1 =>
      exact absurd rfl nonempty
  | case2 group =>
      obtain ⟨⟨order, fsync⟩, rest, ⟨same, flag⟩, nothing, rfl⟩ :=
        List.forall₂_cons_left_iff.mp reorders
      obtain rfl := List.forall₂_nil_left_iff.mp nothing
      obtain rfl : syncAfter = fsync := flag
      rw [submitRounds_cons same (fits group (List.mem_singleton_self _))
        (distinct group (List.mem_singleton_self _))]
      rw [submitRounds, List.flatten_singleton]
      rfl
  | case3 group rest notLast inductionHypothesis =>
      obtain ⟨⟨order, fsync⟩, others, ⟨same, flag⟩, later, rfl⟩ :=
        List.forall₂_cons_left_iff.mp reorders
      obtain rfl : false = fsync := flag
      obtain ⟨groupFits, restFit⟩ := List.forall_mem_cons.mp fits
      obtain ⟨groupDistinct, restDistinct⟩ :=
        List.forall_mem_cons.mp distinct
      rw [submitRounds_cons same groupFits groupDistinct,
        inductionHypothesis notLast restFit restDistinct later,
        List.flatten_cons, ByteFile.writeAll_append]
      simp

/-- A batch that succeeds has no run that is too long. -/
theorem fits_of_ok
    {rounds : List (List FileWrite × Bool)}
    {bytes : Bytes}
    (ok : (submitRounds rounds bytes).result = .ok ()) :
    ∀ round ∈ rounds, ∀ run ∈ round.1, run.2.length ≤ maxRingWrite := by
  induction rounds generalizing bytes with
  | nil =>
      exact fun _ member => nomatch member
  | cons first rest inductionHypothesis =>
      obtain ⟨round, fsync⟩ := first
      rw [submitRounds] at ok
      dsimp only at ok
      split at ok
      · cases ok
      · rename_i notShort
        refine List.forall_mem_cons.mpr ⟨?_, inductionHypothesis ok⟩
        intro run member
        rw [shortWrite?, Option.map_eq_none_iff, List.find?_eq_none]
          at notShort
        have whole := notShort run member
        simp only [ne_eq, decide_not, Bool.not_eq_eq_eq_not, Bool.not_true,
          decide_eq_false_iff_not, not_not] at whole
        exact (ringResult_eq_iff run).mp whole

end Rounds

/-! ## Coalesced and plain writes -/

section Plain

variable {writes : List FileWrite}

/-- Runs that are neither empty nor too long. -/
theorem BlockWrites.matchesPlain
    (blocks : BlockWrites writes)
    (nonempty : ∀ run ∈ runsOf writes, run.2 ≠ [])
    (fits : ∀ run ∈ runsOf writes, run.2.length ≤ maxRingWrite) :
    MatchesPlain writes := by
  have aligned := blocks.alignWrites_eq_runs nonempty
  have rounds : ∀ group ∈ ringRounds (runsOf writes),
      ∀ run ∈ group, run ∈ runsOf writes := by
    intro group member run inGroup
    rw [← flatten_ringRounds (runsOf writes)]
    exact List.mem_flatten_of_mem member inGroup
  refine {
    aligned := ⟨_, aligned⟩
    once := ?_
    outcome := ?_
    flush := fun _ _ _ _ _ => submissions_flush }
  · intro runs isRuns position
    rw [aligned] at isRuns
    cases isRuns
    rw [countP_runsOf, blocks.countP_eq]
  · intro runs isRuns syncAfter order bytes reorders
    rw [aligned] at isRuns
    cases isRuns
    unfold writeBatchDirect writeBatchPlain
    split
    · rename_i empty
      rw [List.isEmpty_iff.mp empty]
      rfl
    · rename_i notEmpty
      have some : ringRounds (runsOf writes) ≠ [] := by
        intro none
        have flat := flatten_ringRounds (runsOf writes)
        rw [none] at flat
        exact runsOf_ne_nil (fun empty => notEmpty (by rw [empty]; rfl))
          flat.symm
      rw [submitRounds_reordered some ?_ ?_ reorders bytes,
        flatten_ringRounds, writeAll_runsOf]
      · exact fun group member run inGroup =>
          fits run (rounds group member run inGroup)
      · intro group member
        refine blocks.runs_distinct.sublist ?_
        rw [← flatten_ringRounds (runsOf writes)]
        exact List.sublist_flatten_of_mem member

/-- An empty run writes a block where no write does. -/
theorem MatchesPlain.nonempty
    (matched : MatchesPlain writes)
    (blocks : BlockWrites writes) :
    ∀ run ∈ runsOf writes, run.2 ≠ [] := by
  intro run member empty
  have once := matched.once _ blocks.alignWrites_eq run.1
  rw [← blocks.countP_eq, ← countP_runsOf writes, List.countP_map] at once
  have longer (joined : FileWrite)
      (covered : decide (Covers run.1 joined) = true) :
      decide (Covers run.1 (joined.1, alignedBuf joined.2)) = true := by
    have inside := of_decide_eq_true covered
    exact decide_eq_true
      ⟨inside.1, inside.2.trans_le
        (Nat.add_le_add_left (le_length_alignedBuf joined.2) _)⟩
  obtain ⟨front, back, runs⟩ := List.append_of_mem member
  have atMost (part : List FileWrite) :
      part.countP (Covers run.1 ·) ≤
        part.countP (fun joined =>
          Covers run.1 (joined.1, alignedBuf joined.2)) :=
    List.countP_mono_left fun joined _ => longer joined
  have atFront := atMost front
  have atBack := atMost back
  have uncovered : ¬ decide (Covers run.1 run) = true := by
    simp [Covers, empty]
  have covered :
      decide (Covers run.1 (run.1, alignedBuf run.2)) = true := by
    refine decide_eq_true ⟨Nat.le_refl _, ?_⟩
    rw [empty, length_alignedBuf_nil]
    exact Nat.lt_add_of_pos_right (by decide)
  rw [runs, List.countP_append, List.countP_append, List.countP_cons,
    List.countP_cons, if_neg uncovered] at once
  simp only [Function.comp_apply, covered, if_true] at once
  simp only [Function.comp_def] at once
  omega

theorem MatchesPlain.fits
    (matched : MatchesPlain writes)
    (blocks : BlockWrites writes) :
    ∀ run ∈ runsOf writes, run.2.length ≤ maxRingWrite := by
  intro run member
  have some : ¬ writes.isEmpty = true := by
    intro empty
    rw [List.isEmpty_iff.mp empty] at member
    cases member
  have same (rounds : List (List FileWrite × Bool)) :
      Reorders rounds rounds :=
    List.forall₂_same.mpr fun round _ => ⟨List.Perm.refl _, rfl⟩
  have outcome := matched.outcome _ blocks.alignWrites_eq false _ []
    (same _)
  rw [writeBatchDirect, if_neg some] at outcome
  have fits := fits_of_ok (congrArg WriteOutcome.result outcome)
  have submittedRun : (run.1, alignedBuf run.2) ∈
      (runsOf writes).map fun run => (run.1, alignedBuf run.2) :=
    List.mem_map_of_mem member
  rw [← flatten_ringRounds (List.map _ (runsOf writes))] at submittedRun
  obtain ⟨group, inRounds, inGroup⟩ := List.mem_flatten.mp submittedRun
  obtain ⟨round, isSubmitted, rfl⟩ := mem_submissions inRounds false
  exact (le_length_alignedBuf run.2).trans
    (fits round isSubmitted _ inGroup)

end Plain

/--
A batch of whole blocks at distinct places is written as if one by one,
exactly if none of its runs consists of empty writes only or is longer than
what is written for one ring entry.
-/
theorem coalesced_writes_match_iff
    (writes : List FileWrite)
    (blocks : BlockWrites writes) :
    MatchesPlain writes ↔
      ∀ run ∈ runsOf writes, run.2 ≠ [] ∧ run.2.length ≤ maxRingWrite := by
  constructor
  · intro matched run member
    exact ⟨matched.nonempty blocks run member,
      matched.fits blocks run member⟩
  · intro runs
    exact blocks.matchesPlain (fun run member => (runs run member).1)
      (fun run member => (runs run member).2)

/-- Two runs, the second one in front of the first. -/
def gappedWrites : List FileWrite :=
  [(8192, List.replicate 4096 1), (12288, List.replicate 8192 2),
    (0, List.replicate 4096 3)]

theorem gappedWrites_blocks : BlockWrites gappedWrites where
  aligned := by decide +kernel
  blocks := by decide +kernel
  distinct := by
    rw [ByteFile.pairwise_disjoint_iff]
    intro position
    simp only [gappedWrites, List.countP_cons, List.countP_nil, Covers,
      List.length_replicate, decide_eq_true_eq]
    split_ifs <;> omega

theorem coalesced_writes_match_iff_gapped :
    (runsOf gappedWrites).map (fun run => (run.1, run.2.length)) =
        [(8192, 12288), (0, 4096)] ∧
      MatchesPlain gappedWrites := by
  refine ⟨by decide +kernel, ?_⟩
  refine (coalesced_writes_match_iff gappedWrites gappedWrites_blocks).mpr ?_
  decide +kernel

/-- A single write that is too long for a ring entry. -/
theorem long_write_fails
    {run : Bytes}
    (length : run.length = 2 ^ 31) :
    BlockWrites [(0, run)] ∧
      ∃ runs, alignWrites [(0, run)] = .ok runs ∧
        (writeBatchDirect [(0, run)] false
          (submissions false (ringRounds runs)) []).result =
            .error (.shortWrite maxRingWrite (2 ^ 31)) := by
  have nonempty : run ≠ [] := by
    rintro rfl
    cases length
  have blocks : BlockWrites [(0, run)] := {
    aligned := by simp
    blocks := by simp [length, blockAlign]
    distinct := List.pairwise_singleton _ _ }
  refine ⟨blocks, [(0, run)], ?_, ?_⟩
  · refine blocks.alignWrites_eq_runs ?_
    intro joined member
    rw [List.mem_singleton.mp member]
    exact nonempty
  · simp [writeBatchDirect, ringRounds, chunksOf, submissions, submitRounds,
      shortWrite?, ringResult, maxRingWrite, length, ringDepth]

/--
An empty write at the place of another one clears what that one has written,
and a run of 2 ^ 31 bytes is written short.
-/
theorem coalesced_writes_differ :
    let empty : List FileWrite := [(0, List.replicate 4096 1), (0, [])]
    (BlockWrites empty ∧
      (writeBatchPlain empty false []).bytes.head? = some 1 ∧
      ∃ runs, alignWrites empty = .ok runs ∧
        (writeBatchDirect empty false
          (submissions false (ringRounds runs)) []).bytes.head? =
            some 0) ∧
    ∃ run : Bytes,
      BlockWrites [(0, run)] ∧
        ∃ runs, alignWrites [(0, run)] = .ok runs ∧
          (writeBatchDirect [(0, run)] false
            (submissions false (ringRounds runs)) []).result =
              .error (.shortWrite maxRingWrite (2 ^ 31)) := by
  intro empty
  have blocks : BlockWrites empty := {
    aligned := by decide +kernel
    blocks := by decide +kernel
    distinct := by
      refine List.pairwise_pair.mpr ?_
      rintro position ⟨-, -, before⟩
      exact absurd before (Nat.not_lt_zero position) }
  refine ⟨⟨blocks, by decide +kernel, _, blocks.alignWrites_eq,
    by decide +kernel⟩, ?_⟩
  exact ⟨List.replicate (2 ^ 31) 0, long_write_fails List.length_replicate⟩

end KalpakDb
