import KalpakDb.MachineWord
import KalpakDb.OnlineScrub
import KalpakDb.Resumable

namespace KalpakDb.Scrub

/-!
# Resuming the offline scrub

The offline scrub saves its progress whenever it has passed a candidate or a
segment.  The bytes it has read are counted from a baseline, the count of the
progress it was resumed from.  A scrub that is killed, or whose callback
refuses a finding, is resumed from the progress that was saved last.
-/

open MachineWord
open Resumable (Effect Process)

/-! ## The sweep -/

/-- A segment file under its canonical name, which its number determines. -/
structure ScrubFile where
  id : Nat
  file : SegmentFile

structure ScrubSummary where
  recordsVerified : UInt64 := 0
  findings : UInt64 := 0
  bytesRead : UInt64 := 0
  complete : Bool := false
  deriving DecidableEq

structure Progress where
  version : Nat := 1
  manifest : String
  segment : Nat := 0
  offset : Nat := 0
  summary : ScrubSummary := {}
  deriving DecidableEq

/-- The bytes that are read to inspect a candidate. -/
def candidateBytes (bytes : Bytes) (offset : Nat) : Nat :=
  if bytes.length - offset < headerLen then
    bytes.length - offset
  else
    match classify bytes offset with
    | .bad _ _ => headerLen
    | .hash record _ => headerLen + record.payloadLen

/-- A scrub at work: its progress, the baseline, and the bytes read since. -/
structure Sweep where
  progress : Progress
  initialBytes : UInt64
  read : UInt64 := 0

def Sweep.start (progress : Progress) : Sweep where
  progress := progress
  initialBytes := progress.summary.bytesRead

section Model

variable (blake3 : Bytes → BlockId)

/-- The progress behind a candidate. -/
def Progress.pass
    (progress : Progress)
    (inspection : Inspection)
    (bytesRead : UInt64) : Progress :=
  { progress with
    offset := inspection.next
    summary := { progress.summary with
      recordsVerified :=
        if inspection.verified.isSome then
          saturatingAdd progress.summary.recordsVerified 1
        else
          progress.summary.recordsVerified
      findings :=
        if inspection.bad.isSome then
          saturatingAdd progress.summary.findings 1
        else
          progress.summary.findings
      bytesRead := bytesRead } }

/--
One candidate, the end of a segment, or the end of the sweep; each of them
ends with a checkpoint.
-/
def Sweep.next (files : List ScrubFile) (sweep : Sweep) :
    Option (List Finding × Sweep) :=
  let progress := sweep.progress
  if progress.summary.complete then
    none
  else
    match files[progress.segment]? with
    | some scrubFile =>
        let bytes := scrubFile.file.bytes
        if progress.offset < bytes.length then
          let inspection := inspect blake3 bytes progress.offset
          let read := saturatingAdd sweep.read
            (UInt64.ofNat (candidateBytes bytes progress.offset))
          some ((inspection.report scrubFile.id progress.offset).findings,
            { sweep with
              progress := progress.pass inspection
                (saturatingAdd sweep.initialBytes read)
              read := read })
        else
          some ([], { sweep with
            progress := { progress with
              segment := progress.segment + 1
              offset := 0 } })
    | none =>
        some ([], { sweep with
          progress := { progress with
            summary := { progress.summary with complete := true } } })

/-- What is left to be done. -/
def Progress.rank (files : List ScrubFile) (progress : Progress) : Nat :=
  if progress.summary.complete then
    0
  else
    1 + ((files.drop progress.segment).map fun scrubFile =>
        scrubFile.file.bytes.length + 1).sum -
      (files[progress.segment]?.elim 0 fun scrubFile =>
        min progress.offset scrubFile.file.bytes.length)

/-- In a segment there is the rest of it and the segments behind it. -/
theorem Progress.rank_of_present
    {files : List ScrubFile}
    {progress : Progress}
    {scrubFile : ScrubFile}
    (incomplete : ¬ progress.summary.complete = true)
    (present : files[progress.segment]? = some scrubFile) :
    progress.rank files =
      1 + (scrubFile.file.bytes.length + 1 +
        ((files.drop (progress.segment + 1)).map fun scrubFile =>
          scrubFile.file.bytes.length + 1).sum) -
        min progress.offset scrubFile.file.bytes.length := by
  obtain ⟨within, isFile⟩ := List.getElem?_eq_some_iff.mp present
  rw [rank, if_neg incomplete, List.drop_eq_getElem_cons within, isFile,
    present, List.map_cons, List.sum_cons]
  rfl

theorem Sweep.rank_next
    {files : List ScrubFile}
    {sweep after : Sweep}
    {findings : List Finding}
    (step : sweep.next blake3 files = some (findings, after)) :
    after.progress.rank files < sweep.progress.rank files := by
  unfold Sweep.next at step
  dsimp only at step
  split at step
  · cases step
  · rename_i incomplete
    split at step
    · rename_i scrubFile present
      rw [Progress.rank_of_present incomplete present]
      split at step
      · rename_i inside
        cases step
        have further := next_gt blake3 scrubFile.file.length_lt inside
        rw [Progress.rank_of_present
          (show ¬ (Progress.pass sweep.progress _ _).summary.complete = true
            from incomplete) present]
        dsimp only [Progress.pass]
        omega
      · rename_i outside
        cases step
        dsimp only [Progress.rank]
        rw [if_neg incomplete]
        omega
    · rename_i absent
      cases step
      have nothing := List.drop_eq_nil_of_le
        (List.getElem?_eq_none_iff.mp absent)
      simp [Progress.rank, incomplete, absent, nothing]

/-- The sweep over some files. -/
def sweepProcess (files : List ScrubFile) : Process Sweep Finding where
  next := Sweep.next blake3 files
  rank := fun sweep => sweep.progress.rank files
  decreasing := Sweep.rank_next blake3

/-! ## Attempts -/

structure SavedProgress where
  checksum : String
  progress : Progress
  deriving DecidableEq

inductive ScrubError where
  | segmentLimitExceeded
  | noSegmentFiles
  | checksumMismatch
  | layoutMismatch
  deriving DecidableEq

variable (encode : Progress → Bytes) (digest : Bytes → String)
  (manifest : String)

/-- `checkpoint`: the progress and the digest of its encoding. -/
def savedProgress (progress : Progress) : SavedProgress where
  checksum := digest (encode progress)
  progress := progress

/-- The progress fits the segment files. -/
def Progress.valid (files : List ScrubFile) (progress : Progress) : Bool :=
  progress.version = 1 &&
    progress.manifest = manifest &&
    progress.segment ≤ files.length &&
    progress.offset % blockAlign = 0 &&
    (files[progress.segment]?.all fun scrubFile =>
      progress.offset ≤
        min (scrubFile.file.bytes.length + blockAlign) (2 ^ 64 - 1)) &&
    (!progress.summary.complete ||
      progress.segment = files.length && progress.offset = 0)

/-- The progress of a checkpoint, or that of a new sweep. -/
def readProgress (checkpoint : Option SavedProgress) :
    Except ScrubError Progress :=
  match checkpoint with
  | none => .ok { manifest := manifest }
  | some saved =>
      if digest (encode saved.progress) ≠ saved.checksum then
        .error .checksumMismatch
      else
        .ok saved.progress

/-- The progress that a scrub begins with. -/
def loadProgress
    (files : List ScrubFile)
    (checkpoint : Option SavedProgress) : Except ScrubError Progress := do
  if files.length > 65536 then
    throw .segmentLimitExceeded
  if files.isEmpty then
    throw .noSegmentFiles
  let progress ← readProgress encode digest manifest checkpoint
  if progress.valid manifest files then
    pure progress
  else
    throw .layoutMismatch

inductive ScrubResult where
  | returned (summary : ScrubSummary)
  | failed (error : ScrubError)
  | interrupted
  deriving DecidableEq

structure Attempt where
  log : List (Effect Progress Finding) := []
  checkpoint : Option SavedProgress
  result : ScrubResult

/-- All that a scrub does from some progress on. -/
def sweepEffects (files : List ScrubFile) (progress : Progress) :
    List (Effect Progress Finding) :=
  .save progress ::
    ((sweepProcess blake3 files).effects (.start progress)).map
      (Effect.map Sweep.progress)

/--
One call of `scrub`.  It is cut off after so many reports and checkpoints, or
runs to its end; a callback that fails cuts it off in front of the report.
-/
def scrubOnce
    (files : List ScrubFile)
    (checkpoint : Option SavedProgress)
    (cut : Option Nat) : Attempt :=
  match loadProgress encode digest manifest files checkpoint with
  | .error error => { checkpoint := checkpoint, result := .failed error }
  | .ok progress =>
      if progress.summary.complete then
        { checkpoint := checkpoint
          result := cut.elim (.returned progress.summary) fun _ =>
            .interrupted }
      else
        let effects := sweepEffects blake3 files progress
        let performed := cut.elim effects effects.take
        let final := (sweepProcess blake3 files).finish (.start progress)
        { log := performed
          checkpoint :=
            ((Resumable.lastSaved performed).map
              (savedProgress encode digest)).or checkpoint
          result := cut.elim (.returned final.progress.summary) fun _ =>
            .interrupted }

/-- Calls that are cut off, and then one that is not. -/
def scrubUntilDone (files : List ScrubFile) :
    List Nat → Option SavedProgress → List Attempt
  | [], checkpoint =>
      [scrubOnce blake3 encode digest manifest files checkpoint none]
  | cut :: rest, checkpoint =>
      let attempt :=
        scrubOnce blake3 encode digest manifest files checkpoint (some cut)
      attempt :: scrubUntilDone files rest attempt.checkpoint

end Model

/-! ## Progress determines the rest of a sweep -/

section Progress

variable {blake3 : Bytes → BlockId} {files : List ScrubFile}
  {findings : List Finding}

/-- The sweep as a process on what is saved. -/
def progressProcess (blake3 : Bytes → BlockId) (files : List ScrubFile) :
    Process Progress Finding where
  next := fun progress =>
    ((Sweep.start progress).next blake3 files).map fun step =>
      (step.1, step.2.progress)
  rank := Progress.rank files
  decreasing := by
    intro progress findings after isNext
    obtain ⟨step, isStep, same⟩ := Option.map_eq_some_iff.mp isNext
    cases same
    exact Sweep.rank_next blake3 isStep

/-- The bytes of the progress are the baseline and those read since. -/
def Sweep.Consistent (sweep : Sweep) : Prop :=
  sweep.progress.summary.bytesRead =
    saturatingAdd sweep.initialBytes sweep.read

theorem Sweep.consistent_start (progress : Progress) :
    (Sweep.start progress).Consistent :=
  (saturatingAdd_zero _).symm

/-- A sweep goes on like one that is resumed from its progress. -/
theorem Sweep.Consistent.next_start
    {sweep : Sweep}
    (consistent : sweep.Consistent) :
    (progressProcess blake3 files).next sweep.progress =
      (sweep.next blake3 files).map fun step =>
        (step.1, step.2.progress) := by
  dsimp only [progressProcess, Sweep.next, Sweep.start]
  by_cases complete : sweep.progress.summary.complete = true
  · rw [if_pos complete, if_pos complete]
  · rw [if_neg complete, if_neg complete]
    cases files[sweep.progress.segment]? with
    | none =>
        rfl
    | some scrubFile =>
        dsimp only
        by_cases inside : sweep.progress.offset < scrubFile.file.bytes.length
        · rw [if_pos inside, if_pos inside, zero_saturatingAdd,
            show sweep.progress.summary.bytesRead = _ from consistent,
            saturatingAdd_assoc]
          rfl
        · rw [if_neg inside, if_neg inside]
          rfl

theorem Sweep.Consistent.next
    {sweep after : Sweep}
    (consistent : sweep.Consistent)
    (step : sweep.next blake3 files = some (findings, after)) :
    after.Consistent := by
  unfold Sweep.next at step
  dsimp only at step
  split at step
  · cases step
  · split at step
    · split at step
      · cases step
        rfl
      · cases step
        exact consistent
    · cases step
      exact consistent

/-- All that a scrub does, in terms of what it saves. -/
theorem sweepEffects_eq
    (blake3 : Bytes → BlockId)
    (files : List ScrubFile)
    (progress : Progress) :
    sweepEffects blake3 files progress =
        .save progress :: (progressProcess blake3 files).effects progress ∧
      ((sweepProcess blake3 files).finish (.start progress)).progress =
        (progressProcess blake3 files).finish progress := by
  have mapped :
      (progressProcess blake3 files).effects progress =
          ((sweepProcess blake3 files).effects (.start progress)).map
            (Effect.map Sweep.progress) ∧
        (progressProcess blake3 files).finish progress =
          ((sweepProcess blake3 files).finish (.start progress)).progress :=
    Process.effects_map Sweep.progress
      (fun sweep (consistent : sweep.Consistent) => consistent.next_start)
      (fun _ _ _ consistent step => consistent.next step)
      (Sweep.consistent_start progress)
  exact ⟨congrArg (Effect.save progress :: ·) mapped.1.symm, mapped.2.symm⟩

/-! ## Checkpoints are accepted -/

/-- A candidate is passed by whole blocks, and by one more at the most. -/
theorem next_aligned
    (blake3 : Bytes → BlockId)
    {bytes : Bytes}
    {offset : Nat}
    (bounded : bytes.length < 2 ^ 63)
    (aligned : offset % blockAlign = 0)
    (inside : offset < bytes.length) :
    (inspect blake3 bytes offset).next % blockAlign = 0 ∧
      (inspect blake3 bytes offset).next ≤ bytes.length + blockAlign := by
  have skip : nextCandidate offset % blockAlign = 0 ∧
      nextCandidate offset ≤ bytes.length + blockAlign := by
    unfold nextCandidate blockAlign at *
    omega
  unfold inspect
  split
  · exact skip
  · rename_i record total classified
    obtain ⟨-, -, checked, fits⟩ := classify_eq_hash classified
    obtain ⟨isLength, -, -⟩ := checkedTotal_eq_some checked
    have wholeBlocks : total % blockAlign = 0 := by
      rw [isLength]
      unfold recordLen blockAlign
      dsimp only
      omega
    split
    · dsimp only
      unfold blockAlign at *
      omega
    · exact skip

/--
A progress that a sweep can reach.  The check would let an offset behind the
last segment pass until the sweep is complete.
-/
structure Progress.Reached
    (manifest : String)
    (files : List ScrubFile)
    (progress : Progress) : Prop where
  version : progress.version = 1
  manifest : progress.manifest = manifest
  segment : progress.segment ≤ files.length
  aligned : progress.offset % blockAlign = 0
  offset :
    ∀ scrubFile, files[progress.segment]? = some scrubFile →
      progress.offset ≤ scrubFile.file.bytes.length + blockAlign
  behind : progress.segment = files.length → progress.offset = 0
  complete :
    progress.summary.complete = true → progress.segment = files.length

theorem Progress.reached_new (manifest : String) (files : List ScrubFile) :
    Progress.Reached manifest files { manifest := manifest } where
  version := rfl
  manifest := rfl
  segment := Nat.zero_le _
  aligned := rfl
  offset := fun _ _ => Nat.zero_le _
  behind := fun _ => rfl
  complete := nofun

theorem Progress.Reached.valid
    {manifest : String}
    {progress : Progress}
    (reached : progress.Reached manifest files) :
    progress.valid manifest files = true := by
  have inFile :
      (files[progress.segment]?.all fun scrubFile =>
        progress.offset ≤
          min (scrubFile.file.bytes.length + blockAlign) (2 ^ 64 - 1)) =
        true := by
    rw [Option.all_eq_true]
    intro scrubFile present
    have bounded := scrubFile.file.length_lt
    have inside := reached.offset scrubFile present
    rw [decide_eq_true_eq]
    unfold blockAlign at *
    omega
  have atEnd :
      (!progress.summary.complete ||
        progress.segment = files.length && progress.offset = 0) =
        true := by
    cases isComplete : progress.summary.complete with
    | false =>
        rfl
    | true =>
        have last := reached.complete isComplete
        simp [last, reached.behind last]
  unfold Progress.valid
  rw [inFile, atEnd]
  simp [reached.version, reached.manifest, reached.segment, reached.aligned]

theorem Progress.Reached.next
    {manifest : String}
    {progress after : Progress}
    (reached : progress.Reached manifest files)
    (step :
      (progressProcess blake3 files).next progress =
        some (findings, after)) :
    after.Reached manifest files := by
  obtain ⟨⟨outputs, next⟩, isStep, same⟩ := Option.map_eq_some_iff.mp step
  cases same
  unfold Sweep.next Sweep.start at isStep
  dsimp only at isStep
  split at isStep
  · cases isStep
  · rename_i incomplete
    split at isStep
    · rename_i scrubFile present
      have inList := (List.getElem?_eq_some_iff.mp present).1
      split at isStep
      · rename_i inside
        cases isStep
        obtain ⟨nextAligned, nextLe⟩ := next_aligned blake3
          scrubFile.file.length_lt reached.aligned inside
        refine { reached with
          aligned := nextAligned
          offset := ?_
          behind := fun atEnd => absurd atEnd (Nat.ne_of_lt inList)
          complete := fun complete => absurd complete incomplete }
        intro other isOther
        cases present.symm.trans isOther
        exact nextLe
      · cases isStep
        exact { reached with
          segment := inList
          aligned := rfl
          offset := fun _ _ => Nat.zero_le _
          behind := fun _ => rfl
          complete := fun complete => absurd complete incomplete }
    · rename_i absent
      cases isStep
      exact { reached with
        complete := fun _ => Nat.le_antisymm reached.segment
          (List.getElem?_eq_none_iff.mp absent) }

/-- A sweep goes on until it is complete. -/
theorem next_eq_none_iff
    (blake3 : Bytes → BlockId)
    (files : List ScrubFile)
    (progress : Progress) :
    (progressProcess blake3 files).next progress = none ↔
      progress.summary.complete = true := by
  dsimp only [progressProcess, Sweep.next, Sweep.start]
  rw [Option.map_eq_none_iff]
  constructor
  · intro ended
    by_contra incomplete
    rw [if_neg incomplete] at ended
    split at ended
    · split at ended <;> cases ended
    · cases ended
  · intro complete
    rw [if_pos complete]

/-! ## What a sweep reports -/

/-- The findings of a segment file. -/
def findingsOf
    (blake3 : Bytes → BlockId)
    (offset : Nat)
    (scrubFile : ScrubFile) : List Finding :=
  (reportFrom blake3 scrubFile.id scrubFile.file.bytes offset).findings

/-- The findings from a position on. -/
def leftFindings
    (blake3 : Bytes → BlockId)
    (files : List ScrubFile)
    (progress : Progress) : List Finding :=
  if progress.summary.complete then
    []
  else
    files[progress.segment]?.elim [] (findingsOf blake3 progress.offset) ++
      (files.drop (progress.segment + 1)).flatMap (findingsOf blake3 0)

/-- A new sweep has the findings of all segments left. -/
theorem leftFindings_new
    (blake3 : Bytes → BlockId)
    (files : List ScrubFile)
    (manifest : String) :
    leftFindings blake3 files { manifest := manifest } =
      files.flatMap (findingsOf blake3 0) := by
  cases files with
  | nil =>
      rfl
  | cons scrubFile rest =>
      rfl

/-- A step reports what it takes from the findings that are left. -/
theorem leftFindings_next
    {progress after : Progress}
    (step :
      (progressProcess blake3 files).next progress =
        some (findings, after)) :
    leftFindings blake3 files progress =
      findings ++ leftFindings blake3 files after := by
  obtain ⟨⟨outputs, next⟩, isStep, same⟩ := Option.map_eq_some_iff.mp step
  cases same
  unfold Sweep.next Sweep.start at isStep
  dsimp only at isStep
  split at isStep
  · cases isStep
  · rename_i incomplete
    rw [leftFindings, if_neg incomplete]
    split at isStep
    · rename_i scrubFile present
      rw [present, Option.elim_some]
      split at isStep
      · rename_i inside
        cases isStep
        rw [leftFindings, if_neg (by exact incomplete), findingsOf,
          reportFrom_inside scrubFile.id scrubFile.file.length_lt inside]
        dsimp only [Progress.pass]
        rw [present, Option.elim_some, Report.append, List.append_assoc]
        rfl
      · rename_i outside
        cases isStep
        rw [leftFindings, if_neg (by exact incomplete), findingsOf,
          reportFrom_outside scrubFile.id (not_lt.mp outside)]
        rw [List.drop_eq_getElem?_toList_append, List.flatMap_append]
        cases files[progress.segment + 1]? <;> simp
    · rename_i absent
      cases isStep
      have nothing := List.drop_eq_nil_of_le
        (Nat.le_succ_of_le (List.getElem?_eq_none_iff.mp absent))
      rw [absent, nothing]
      rfl

/-- A sweep reports the findings that are left. -/
theorem emitted_effects (progress : Progress) :
    Resumable.emitted ((progressProcess blake3 files).effects progress) =
      leftFindings blake3 files progress := by
  induction progress using (progressProcess blake3 files).run_induction with
  | ended progress ended =>
      have complete := (next_eq_none_iff blake3 files progress).mp ended
      rw [(Process.effects_none ended).1, leftFindings, if_pos complete]
      rfl
  | step progress findings after isNext inductionHypothesis =>
      rw [(Process.effects_some isNext).1, Resumable.emitted_append,
        Resumable.emitted_emits, Resumable.emitted_save,
        inductionHypothesis, leftFindings_next isNext]

end Progress

/-! ## Attempts that are cut off -/

section Attempts

variable {blake3 : Bytes → BlockId} {encode : Progress → Bytes}
  {digest : Bytes → String} {manifest : String} {files : List ScrubFile}

/-- The segment files that a scrub is willing to sweep. -/
def Sweepable (files : List ScrubFile) : Prop :=
  files ≠ [] ∧ files.length ≤ 65536

theorem loadProgress_of_reached
    {checkpoint : Option SavedProgress}
    {progress : Progress}
    (sweepable : Sweepable files)
    (read : readProgress encode digest manifest checkpoint = .ok progress)
    (reached : progress.Reached manifest files) :
    loadProgress encode digest manifest files checkpoint =
      .ok progress := by
  have few : ¬ files.length > 65536 := not_lt.mpr sweepable.2
  have some : files.isEmpty = false := by
    rw [List.isEmpty_eq_false_iff]
    exact sweepable.1
  rw [loadProgress, if_neg few, some, read]
  exact if_pos reached.valid

/-- A checkpoint is read as what was saved. -/
theorem readProgress_saved (progress : Progress) :
    readProgress encode digest manifest
      (some (savedProgress encode digest progress)) = .ok progress :=
  if_neg (not_not.mpr rfl)

/-- A scrub that begins with some progress. -/
structure Begins
    (encode : Progress → Bytes)
    (digest : Bytes → String)
    (manifest : String)
    (files : List ScrubFile)
    (checkpoint : Option SavedProgress)
    (progress : Progress) : Prop where
  sweepable : Sweepable files
  read : readProgress encode digest manifest checkpoint = .ok progress
  reached : progress.Reached manifest files

namespace Begins

variable {checkpoint : Option SavedProgress} {progress : Progress}

/-- A whole scrub returns the end of the sweep and reports what is left. -/
theorem whole
    (blake3 : Bytes → BlockId)
    (begins : Begins encode digest manifest files checkpoint progress) :
    let attempt :=
      scrubOnce blake3 encode digest manifest files checkpoint none
    attempt.result =
        .returned
          ((progressProcess blake3 files).finish progress).summary ∧
      Resumable.emitted attempt.log =
        Resumable.emitted
          ((progressProcess blake3 files).effects progress) := by
  dsimp only
  rw [scrubOnce, loadProgress_of_reached begins.sweepable begins.read
    begins.reached]
  dsimp only
  split
  · rename_i complete
    obtain ⟨nothing, same⟩ :=
      Process.effects_none ((next_eq_none_iff _ _ _).mpr complete)
    rw [nothing, same]
    exact ⟨rfl, rfl⟩
  · obtain ⟨effects, finish⟩ :=
      sweepEffects_eq blake3 files progress
    rw [effects, finish]
    exact ⟨rfl, rfl⟩

/--
A scrub that is cut off leaves a checkpoint which is accepted, from which the
sweep ends alike, and from which is reported what has not been.
-/
theorem cut
    (blake3 : Bytes → BlockId)
    (begins : Begins encode digest manifest files checkpoint progress)
    (cut : Nat) :
    let attempt :=
      scrubOnce blake3 encode digest manifest files checkpoint (some cut)
    attempt.result = .interrupted ∧
      ∃ resumed,
        Begins encode digest manifest files attempt.checkpoint resumed ∧
          (progressProcess blake3 files).finish resumed =
            (progressProcess blake3 files).finish progress ∧
          ∀ finding ∈ Resumable.emitted
              ((progressProcess blake3 files).effects progress),
            finding ∈ Resumable.emitted attempt.log ∨
              finding ∈ Resumable.emitted
                ((progressProcess blake3 files).effects resumed) := by
  dsimp only
  rw [scrubOnce, loadProgress_of_reached begins.sweepable begins.read
    begins.reached]
  dsimp only
  split
  · exact ⟨rfl, progress, begins, rfl, fun _ => Or.inr⟩
  · refine ⟨rfl, ?_⟩
    obtain ⟨effects, -⟩ :=
      sweepEffects_eq blake3 files progress
    rw [effects]
    dsimp only [Option.elim_some]
    cases cut with
    | zero =>
        exact ⟨progress, begins, rfl, fun _ => Or.inr⟩
    | succ cut =>
        obtain ⟨sameEnd, covered⟩ :=
          (progressProcess blake3 files).cut_off progress cut
        rw [List.take_succ_cons, Resumable.lastSaved_save,
          Resumable.emitted_save]
        exact ⟨_, {
          sweepable := begins.sweepable
          read := readProgress_saved _
          reached := Process.resumed_of_invariant
            (fun _ _ _ => Progress.Reached.next) begins.reached cut },
          sameEnd, covered⟩

/-- However often it is cut off, the sweep ends alike. -/
theorem untilDone
    (blake3 : Bytes → BlockId)
    (begins : Begins encode digest manifest files checkpoint progress)
    (cuts : List Nat) :
    let attempts :=
      scrubUntilDone blake3 encode digest manifest files cuts checkpoint
    attempts.getLast?.map Attempt.result =
        some (.returned
          ((progressProcess blake3 files).finish progress).summary) ∧
      (∀ attempt ∈ attempts, ∀ error, attempt.result ≠ .failed error) ∧
      ∀ finding ∈ Resumable.emitted
          ((progressProcess blake3 files).effects progress),
        ∃ attempt ∈ attempts, finding ∈ Resumable.emitted attempt.log := by
  induction cuts generalizing checkpoint progress with
  | nil =>
      obtain ⟨result, log⟩ := begins.whole blake3
      refine ⟨congrArg some result, ?_, ?_⟩
      · intro attempt member error failed
        cases List.mem_singleton.mp member
        cases result.symm.trans failed
      · intro finding member
        exact ⟨_, List.mem_singleton_self _, log ▸ member⟩
  | cons cut rest inductionHypothesis =>
      obtain ⟨result, resumed, again, sameEnd, covered⟩ :=
        begins.cut blake3 cut
      obtain ⟨last, accepted, later⟩ := inductionHypothesis again
      dsimp only [scrubUntilDone]
      refine ⟨?_, ?_, ?_⟩
      · obtain ⟨final, isFinal, isResult⟩ := Option.map_eq_some_iff.mp last
        rw [List.getLast?_cons, isFinal, ← sameEnd, ← isResult]
        rfl
      · intro attempt member error failed
        rcases List.mem_cons.mp member with rfl | isLater
        · cases result.symm.trans failed
        · exact accepted attempt isLater error failed
      · intro finding member
        rcases covered finding member with here | remains
        · exact ⟨_, List.mem_cons_self, here⟩
        · obtain ⟨attempt, isLater, reported⟩ := later finding remains
          exact ⟨attempt, List.mem_cons_of_mem _ isLater, reported⟩

/-- A new sweep begins at the first segment. -/
theorem new
    (encode : Progress → Bytes)
    (digest : Bytes → String)
    (manifest : String)
    (sweepable : Sweepable files) :
    Begins encode digest manifest files none { manifest := manifest } where
  sweepable := sweepable
  read := rfl
  reached := Progress.reached_new manifest files

end Begins

/-- Files that are not swept are refused for what they are. -/
theorem scrubOnce_refused
    (blake3 : Bytes → BlockId)
    (encode : Progress → Bytes)
    (digest : Bytes → String)
    (manifest : String)
    (refused : ¬ Sweepable files) :
    ∃ error,
      (error = .segmentLimitExceeded ∨ error = .noSegmentFiles) ∧
        ∀ cut,
          scrubOnce blake3 encode digest manifest files none cut =
            { checkpoint := none, result := .failed error } := by
  by_cases many : files.length > 65536
  · refine ⟨.segmentLimitExceeded, Or.inl rfl, fun cut => ?_⟩
    rw [scrubOnce, loadProgress, if_pos many]
    rfl
  · have none : files.isEmpty = true := by
      rw [List.isEmpty_iff]
      by_contra some
      exact refused ⟨some, not_lt.mp many⟩
    refine ⟨.noSegmentFiles, Or.inr rfl, fun cut => ?_⟩
    rw [scrubOnce, loadProgress, if_neg many, if_pos none]
    rfl

/-- Attempts that leave no checkpoint are all the same. -/
theorem scrubUntilDone_constant
    {attempt : Attempt}
    (unsaved : attempt.checkpoint = none)
    (same :
      ∀ cut,
        scrubOnce blake3 encode digest manifest files none cut = attempt)
    (cuts : List Nat) :
    scrubUntilDone blake3 encode digest manifest files cuts none =
      List.replicate (cuts.length + 1) attempt := by
  induction cuts with
  | nil =>
      rw [scrubUntilDone, same]
      rfl
  | cons cut rest inductionHypothesis =>
      rw [scrubUntilDone, same, unsaved, inductionHypothesis]
      rfl

/--
A sweep of segment files with any contents, cut off any number of times and
anywhere: the last call returns what a sweep in one call returns, no call
rejects the checkpoint that it finds, and each finding is reported.
-/
theorem scrub_resumes
    (blake3 : Bytes → BlockId)
    (encode : Progress → Bytes)
    (digest : Bytes → String)
    (manifest : String)
    (files : List ScrubFile)
    (cuts : List Nat) :
    let attempts :=
      scrubUntilDone blake3 encode digest manifest files cuts none
    let plain := scrubOnce blake3 encode digest manifest files none none
    attempts.getLast?.map Attempt.result = some plain.result ∧
      (∀ attempt ∈ attempts,
        attempt.result ≠ .failed .checksumMismatch ∧
          attempt.result ≠ .failed .layoutMismatch) ∧
      (∀ finding ∈ Resumable.emitted plain.log,
        ∃ attempt ∈ attempts,
          finding ∈ Resumable.emitted attempt.log) ∧
      (Sweepable files →
        Resumable.emitted plain.log = files.flatMap (findingsOf blake3 0) ∧
          ∃ summary,
            plain.result = .returned summary ∧ summary.complete = true) := by
  by_cases sweepable : Sweepable files
  · have begins := Begins.new encode digest manifest sweepable
    obtain ⟨result, log⟩ := begins.whole blake3
    obtain ⟨last, accepted, covered⟩ := begins.untilDone blake3 cuts
    have complete := (next_eq_none_iff blake3 files _).mp
      ((progressProcess blake3 files).next_finish { manifest := manifest })
    have findings :=
      (emitted_effects { manifest := manifest }).trans
        (leftFindings_new blake3 files manifest)
    refine ⟨?_, ?_, ?_,
      fun _ => ⟨log.trans findings, _, result, complete⟩⟩
    · rw [last, result]
    · exact fun attempt member =>
        ⟨accepted attempt member _, accepted attempt member _⟩
    · intro finding member
      exact covered finding (log ▸ member)
  · obtain ⟨error, reason, refused⟩ :=
      scrubOnce_refused blake3 encode digest manifest sweepable
    have attempts := scrubUntilDone_constant rfl refused cuts
    dsimp only
    rw [attempts, refused none]
    refine ⟨?_, ?_, nofun, fun isSweepable => absurd isSweepable sweepable⟩
    · rw [List.getLast?_replicate]
      rfl
    · intro attempt member
      rw [List.eq_of_mem_replicate member]
      rcases reason with rfl | rfl <;> exact ⟨nofun, nofun⟩

/-- The text of some progress. -/
def Progress.text (progress : Progress) : String :=
  let summary := progress.summary
  s!"\x7b\"version\":{progress.version},\"manifest\":\"{progress.manifest}\"," ++
    s!"\"segment\":{progress.segment},\"offset\":{progress.offset}," ++
    s!"\"summary\":\x7b\"records_verified\":{summary.recordsVerified}," ++
    s!"\"findings\":{summary.findings},\"bytes_read\":{summary.bytesRead}," ++
    s!"\"complete\":{summary.complete}\x7d\x7d"

/--
A sweep is killed before its first checkpoint, between a report and the
checkpoint behind it, behind its first checkpoint, and behind its last one.
-/
theorem scrub_resumes_killed :
    let files : List ScrubFile := [⟨0, damagedSegment.file⟩]
    let encode := fun progress : Progress => progress.text.toUTF8.toList
    let digest := fun bytes => String.ofList (hexEncode (pairBlake3 bytes).bytes)
    let attempts :=
      scrubUntilDone pairBlake3 encode digest "layout" files [0, 3, 1, 9] none
    let plain := scrubOnce pairBlake3 encode digest "layout" files none none
    attempts.getLast?.map Attempt.result = some plain.result ∧
      (∀ finding ∈ Resumable.emitted plain.log,
        ∃ attempt ∈ attempts,
          finding ∈ Resumable.emitted attempt.log) ∧
      Resumable.emitted plain.log =
        [{ segment := 0, offset := 4096, kind := .truncatedHeader
           block := none }] ∧
      ∃ summary,
        plain.result = .returned summary ∧ summary.complete = true := by
  intro files encode digest attempts plain
  obtain ⟨last, -, covered, swept⟩ :=
    scrub_resumes pairBlake3 encode digest "layout" files [0, 3, 1, 9]
  obtain ⟨findings, complete⟩ := swept ⟨nofun, by decide⟩
  exact ⟨last, covered, findings.trans (by decide +kernel), complete⟩

end Attempts

end KalpakDb.Scrub
