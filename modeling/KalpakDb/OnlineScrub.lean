import KalpakDb.Scrub
import KalpakDb.StepRun

namespace KalpakDb.Scrub

/-!
# The online scrub

The online scanner does the work of the offline scrub in small steps.  A step
reads one header, or one part of a payload; it yields while the store is in
use.  The cursor is saved whenever it moves.  The digest of a payload that is
only partly read is not, so a scanner that is opened again reads that record
from its header on.  Over a whole sweep the two scrubs report the same.
-/

/-! ## The scanner -/

/-- A sealed segment; its generation changes when the file is replaced. -/
structure SealedFile where
  file : SegmentFile
  generation : String

structure Cursor where
  version : Nat := 1
  segment : Nat := 0
  generation : Option String := none
  offset : Nat := 0
  sweeps : Nat := 0
  deriving DecidableEq

/-- A payload that is being hashed, in the file its header was read from. -/
structure Pending where
  file : SegmentFile
  id : BlockId
  length : Nat
  total : Nat
  read : Nat := 0
  hashed : Bytes := []
  deriving DecidableEq

structure Scanner where
  cursor : Cursor
  pending : Option Pending := none
  deriving DecidableEq

structure OnlineFinding where
  segment : Nat
  generation : String
  offset : Nat
  block : Option BlockId
  kind : FindingKind
  deriving DecidableEq

structure ScrubStep where
  bytesRead : Nat := 0
  pageBudgetBytes : Nat := 0
  verified : Nat := 0
  findings : List OnlineFinding := []
  generationReset : Bool := false
  yielded : Bool := false
  idle : Bool := false
  deriving DecidableEq

/-- What a step returns, the scanner after it, and the cursor if it is saved. -/
structure Outcome where
  result : Option ScrubStep
  scanner : Scanner
  saved : Option Cursor := none

/-- The scanner that a checkpoint opens; `none` if it is not valid. -/
def openScanner (checkpoint : Option Cursor) : Option Scanner :=
  let cursor := checkpoint.getD {}
  if cursor.version = 1 ∧ cursor.offset % blockAlign = 0 ∧
      (cursor.generation.all fun generation => generation.utf8ByteSize ≤ 512)
  then
    some { cursor := cursor }
  else
    none

def payloadStep : Nat := 64 * 1024

/-- What one read has found out. -/
structure Look where
  bytesRead : Nat
  pageBudgetBytes : Nat
  verified : Bool := false
  bad : Option (FindingKind × Option BlockId) := none
  next : Option Nat := none
  pending : Option Pending := none

section Hash

variable (blake3 : Bytes → BlockId)

/-- Hash the next part of a payload. -/
def Pending.feed (pending : Pending) (offset : Nat) : Pending :=
  let count := min (pending.length - pending.read) payloadStep
  { pending with
    read := pending.read + count
    hashed := pending.hashed ++
      (pending.file.bytes.drop (offset + headerLen + pending.read)).take
        count }

/-- Read the next part of a payload. -/
def Pending.look (pending : Pending) (offset : Nat) : Look :=
  let count := min (pending.length - pending.read) payloadStep
  let fed := pending.feed offset
  let pages :=
    ((offset + headerLen + pending.read) % blockAlign + count +
      (blockAlign - 1)) / blockAlign * blockAlign
  if fed.read = fed.length then
    if blake3 fed.hashed = fed.id then
      { bytesRead := count
        pageBudgetBytes := pages
        verified := true
        next := some (offset + fed.total)
        pending := some fed }
    else
      { bytesRead := count
        pageBudgetBytes := pages
        bad := some (.payloadHashMismatch, some fed.id)
        pending := some fed }
  else
    { bytesRead := count
      pageBudgetBytes := pages
      pending := some fed }

/-- Read a header; an empty payload is verified at once. -/
def lookHeader (file : SegmentFile) (offset : Nat) : Look :=
  let count := min (file.bytes.length - offset) headerLen
  match classify file.bytes offset with
  | .bad kind block =>
      { bytesRead := count
        pageBudgetBytes := blockAlign
        bad := some (kind, block) }
  | .hash record total =>
      if record.payloadLen = 0 then
        if record.id = blake3 [] then
          { bytesRead := count
            pageBudgetBytes := blockAlign
            verified := true
            next := some (offset + total) }
        else
          { bytesRead := count
            pageBudgetBytes := blockAlign
            bad := some (.payloadHashMismatch, some record.id) }
      else
        { bytesRead := count
          pageBudgetBytes := blockAlign
          pending := some {
            file := file
            id := record.id
            length := record.payloadLen
            total := total } }

def Scanner.look (scanner : Scanner) (file : SegmentFile) : Look :=
  match scanner.pending with
  | some pending => pending.look blake3 scanner.cursor.offset
  | none => lookHeader blake3 file scanner.cursor.offset

/-- The scanner with the cursor on the generation that is there now. -/
def Scanner.synchronize (scanner : Scanner) (generation : String) : Scanner :=
  if scanner.cursor.generation = some generation then
    scanner
  else
    { cursor := { scanner.cursor with
        generation := some generation
        offset := 0 } }

/-- The cursor at the start of another segment. -/
def Cursor.toSegment (cursor : Cursor) (segment : Nat) : Cursor :=
  { cursor with segment := segment, offset := 0, generation := none }

/-- Nothing is sealed at the cursor: the sweep is over. -/
def Scanner.wrap (scanner : Scanner) : Outcome :=
  if scanner.cursor.segment ≠ 0 then
    let cursor :=
      { scanner.cursor.toSegment 0 with
        sweeps := min (scanner.cursor.sweeps + 1) (2 ^ 64 - 1) }
    { result := some { idle := true }
      scanner := { cursor := cursor }
      saved := some cursor }
  else
    { result := some { idle := true }, scanner := scanner }

/-- The segment is done: the cursor goes to the next one. -/
def Scanner.leaveSegment (scanner : Scanner) (reset : Bool) : Outcome :=
  if scanner.cursor.segment + 1 < 2 ^ 32 then
    let cursor := scanner.cursor.toSegment (scanner.cursor.segment + 1)
    { result := some { generationReset := reset, idle := true }
      scanner := { cursor := cursor }
      saved := some cursor }
  else
    { result := none, scanner := scanner }

/-- Report what was found, unless the segment was replaced meanwhile. -/
def Scanner.publish
    (scanner : Scanner)
    (reset : Bool)
    (view : SealedFile)
    (current : Option SealedFile)
    (look : Look) : Outcome :=
  let cursor := scanner.cursor
  if current.map SealedFile.generation = some view.generation then
    let result : ScrubStep :=
      { bytesRead := look.bytesRead
        pageBudgetBytes := look.pageBudgetBytes
        verified := if look.verified then 1 else 0
        findings := look.bad.toList.map fun bad =>
          { segment := cursor.segment
            generation := view.generation
            offset := cursor.offset
            block := bad.2
            kind := bad.1 }
        generationReset := reset }
    let next := if look.bad.isSome then some (nextCandidate cursor.offset)
      else look.next
    match next with
    | some offset =>
        let moved := { cursor with offset := offset }
        { result := some result
          scanner := { cursor := moved }
          saved := some moved }
    | none =>
        { result := some result
          scanner := { scanner with pending := look.pending } }
  else
    let reset := { cursor with generation := none, offset := 0 }
    { result := some {
        bytesRead := look.bytesRead
        pageBudgetBytes := look.pageBudgetBytes
        generationReset := true }
      scanner := { cursor := reset }
      saved := some reset }

/--
`OnlineScrubber::step`, with the sealed segments at its start and when it
reports.  The cursor is saved when it is synchronized and when it moves.
-/
def Scanner.step
    (before after : List SealedFile)
    (foreground : Bool)
    (scanner : Scanner) : Outcome :=
  if foreground then
    { result := some { yielded := true }, scanner := scanner }
  else
    match before[scanner.cursor.segment]? with
    | none => scanner.wrap
    | some view =>
        let synchronized := scanner.synchronize view.generation
        let changed := scanner.cursor.generation ≠ some view.generation
        let reset := changed && scanner.cursor.generation.isSome
        let outcome :=
          if synchronized.cursor.offset ≥ view.file.bytes.length then
            synchronized.leaveSegment reset
          else
            synchronized.publish reset view after[scanner.cursor.segment]?
              (synchronized.look blake3 view.file)
        { outcome with
          saved := outcome.saved.or
            (if changed then some synchronized.cursor else none) }

/-! ## A sweep -/

/-- The checkpoint, the scanner and what it has reported. -/
structure Host where
  checkpoint : Option Cursor
  scanner : Option Scanner
  reported : List OnlineFinding := []
  verified : Nat := 0

/-- The scanner has been opened and has not taken a step. -/
def Host.start (checkpoint : Option Cursor) : Host where
  checkpoint := checkpoint
  scanner := openScanner checkpoint

/-- A step, or the scanner is dropped and opened again. -/
inductive Event where
  | step (foreground : Bool)
  | reopen

def stepHost (sealedFiles : List SealedFile) (host : Host) : Event → Host
  | .reopen => { host with scanner := openScanner host.checkpoint }
  | .step foreground =>
      match host.scanner with
      | none => host
      | some scanner =>
          let outcome :=
            scanner.step blake3 sealedFiles sealedFiles foreground
          { checkpoint := outcome.saved.or host.checkpoint
            scanner := some outcome.scanner
            reported := host.reported ++
              (outcome.result.map ScrubStep.findings).getD []
            verified := host.verified +
              (outcome.result.map ScrubStep.verified).getD 0 }

/-- The cursor goes back to the first segment in a step. -/
def wraps (sealedFiles : List SealedFile) (host : Host) : Event → Bool
  | .step false =>
      host.scanner.any fun scanner =>
        scanner.cursor.segment ≠ 0 &&
          (sealedFiles[scanner.cursor.segment]?).isNone
  | _ => false

/-- The offline scrub of some segments, numbered from a first one on. -/
def scrubSegments : Nat → List SealedFile → Option Report
  | _, [] => some {}
  | segment, view :: rest => do
      let report ← scrubSegment blake3 segment view.file.bytes
      let later ← scrubSegments (segment + 1) rest
      pure (report.append later)

end Hash

/-- A finding without the generation of the segment. -/
def OnlineFinding.finding (online : OnlineFinding) : Finding where
  segment := online.segment
  offset := online.offset
  kind := online.kind
  block := online.block

/-! ## What is left of a sweep -/

section Remaining

variable {blake3 : Bytes → BlockId} {bytes : Bytes} {offset : Nat}

/-- More rounds do not change a report. -/
theorem scrubFrom_mono
    {segment rounds more : Nat}
    {report : Report}
    (scrubbed : scrubFrom blake3 segment bytes rounds offset = some report)
    (enough : rounds ≤ more) :
    scrubFrom blake3 segment bytes more offset = some report := by
  induction rounds generalizing offset more report with
  | zero =>
      cases scrubbed
  | succ rounds inductionHypothesis =>
      cases more with
      | zero =>
          omega
      | succ more =>
          rw [scrubFrom] at scrubbed ⊢
          split
          · rename_i inside
            rw [if_pos inside] at scrubbed
            obtain ⟨later, isLater, rfl⟩ := Option.map_eq_some_iff.mp scrubbed
            rw [inductionHypothesis isLater (Nat.le_of_succ_le_succ enough)]
            rfl
          · rename_i outside
            rwa [if_neg outside] at scrubbed

/-- What the offline scrub reports of a segment from an offset on. -/
def reportFrom
    (blake3 : Bytes → BlockId)
    (segment : Nat)
    (bytes : Bytes)
    (offset : Nat) : Report :=
  (scrubFrom blake3 segment bytes (bytes.length - offset + 1) offset).getD {}

theorem reportFrom_spec
    (blake3 : Bytes → BlockId)
    (segment : Nat)
    (bounded : bytes.length < 2 ^ 63)
    {rounds : Nat}
    (enough : bytes.length - offset < rounds) :
    scrubFrom blake3 segment bytes rounds offset =
      some (reportFrom blake3 segment bytes offset) := by
  obtain ⟨report, scrubbed⟩ := scrubFrom_ends blake3 segment bounded
    (Nat.lt_succ_self (bytes.length - offset))
  rw [reportFrom, scrubbed]
  exact scrubFrom_mono scrubbed enough

theorem reportFrom_outside
    (segment : Nat)
    (outside : bytes.length ≤ offset) :
    reportFrom blake3 segment bytes offset = {} := by
  rw [reportFrom, scrubFrom, if_neg (not_lt.mpr outside)]
  rfl

theorem reportFrom_inside
    (segment : Nat)
    (bounded : bytes.length < 2 ^ 63)
    (inside : offset < bytes.length) :
    reportFrom blake3 segment bytes offset =
      ((inspect blake3 bytes offset).report segment offset).append
        (reportFrom blake3 segment bytes
          (inspect blake3 bytes offset).next) := by
  have further := next_gt blake3 bounded inside
  rw [reportFrom, scrubFrom, if_pos inside,
    reportFrom_spec blake3 segment bounded (show
      bytes.length - (inspect blake3 bytes offset).next <
        bytes.length - offset by omega)]
  rfl

/-- What the offline scrub reports of segments, numbered from a first one. -/
def reports (blake3 : Bytes → BlockId) : Nat → List SealedFile → Report
  | _, [] => {}
  | segment, view :: rest =>
      (reportFrom blake3 segment view.file.bytes 0).append
        (reports blake3 (segment + 1) rest)

theorem scrubSegments_eq
    (blake3 : Bytes → BlockId)
    (segment : Nat)
    (sealedFiles : List SealedFile) :
    scrubSegments blake3 segment sealedFiles =
      some (reports blake3 segment sealedFiles) := by
  induction sealedFiles generalizing segment with
  | nil =>
      rfl
  | cons view rest inductionHypothesis =>
      have scrubbed : scrubSegment blake3 segment view.file.bytes =
          some (reportFrom blake3 segment view.file.bytes 0) :=
        reportFrom_spec blake3 segment view.file.length_lt
          (Nat.lt_succ_self _)
      rw [scrubSegments, scrubbed, inductionHypothesis]
      rfl

/-- What the offline scrub reports from a position on. -/
def remaining
    (blake3 : Bytes → BlockId)
    (sealedFiles : List SealedFile)
    (segment offset : Nat) : Report :=
  match sealedFiles[segment]? with
  | none => {}
  | some view =>
      (reportFrom blake3 segment view.file.bytes offset).append
        (reports blake3 (segment + 1) (sealedFiles.drop (segment + 1)))

theorem remaining_start
    (sealedFiles : List SealedFile)
    (segment : Nat) :
    remaining blake3 sealedFiles segment 0 =
      reports blake3 segment (sealedFiles.drop segment) := by
  cases present : sealedFiles[segment]? with
  | none =>
      rw [remaining, present,
        List.drop_eq_nil_of_le (List.getElem?_eq_none_iff.mp present)]
      rfl
  | some view =>
      obtain ⟨inRange, isView⟩ := List.getElem?_eq_some_iff.mp present
      rw [remaining, present, List.drop_eq_getElem_cons inRange, isView]
      rfl

end Remaining

/-! ## One step -/

section Step

variable {blake3 : Bytes → BlockId} {sealedFiles : List SealedFile}
  {scanner : Scanner} {view : SealedFile}

/-- A payload is being read as the header at the offset says. -/
structure Pending.Reads
    (pending : Pending)
    (file : SegmentFile)
    (offset : Nat) : Prop where
  sameFile : pending.file = file
  classified :
    classify file.bytes offset =
      .hash ⟨pending.id, pending.length⟩ pending.total
  unfinished : pending.read < pending.length
  hashedSoFar :
    pending.hashed =
      (payloadAt file.bytes offset pending.length).take pending.read

/-- A look is at a payload that is not read yet, or it is the offline verdict. -/
inductive Look.Agrees
    (blake3 : Bytes → BlockId)
    (file : SegmentFile)
    (offset : Nat)
    (look : Look) : Prop where
  | reading
      (pending : Pending)
      (isPending : look.pending = some pending)
      (reads : pending.Reads file offset)
      (noFinding : look.bad = none)
      (notVerified : look.verified = false)
      (noNext : look.next = none)
  | decided
      (sameFinding : look.bad = (inspect blake3 file.bytes offset).bad)
      (sameVerified :
        look.verified = (inspect blake3 file.bytes offset).verified.isSome)
      (sameNext :
        (if look.bad.isSome then some (nextCandidate offset)
          else look.next) =
          some (inspect blake3 file.bytes offset).next)

/-- Feeding appends the next part of the payload. -/
theorem Pending.Reads.feed_hashed
    {pending : Pending}
    {file : SegmentFile}
    {offset : Nat}
    (reads : pending.Reads file offset) :
    (pending.feed offset).hashed =
      (payloadAt file.bytes offset pending.length).take
        (pending.feed offset).read := by
  have shorter : min (pending.length - pending.read) payloadStep ≤
      pending.length - pending.read := min_le_left _ _
  simp only [Pending.feed, reads.hashedSoFar, reads.sameFile]
  rw [List.take_add, payloadAt, List.drop_take, List.drop_drop]
  congr 1
  rw [List.take_take, Nat.min_eq_left shorter]

theorem Pending.Reads.look_agrees
    {pending : Pending}
    {file : SegmentFile}
    {offset : Nat}
    (reads : pending.Reads file offset) :
    (pending.look blake3 offset).Agrees blake3 file offset := by
  have hashed := reads.feed_hashed
  unfold Pending.look
  dsimp only
  split
  · rename_i finished
    have whole : (pending.feed offset).hashed =
        payloadAt file.bytes offset pending.length := by
      rw [hashed, finished]
      exact List.take_of_length_le (List.length_take_le _ _)
    rw [whole]
    split
    · rename_i digest
      have verdict : inspect blake3 file.bytes offset =
          { verified := some ⟨pending.id, pending.length⟩
            next := offset + pending.total } := by
        rw [inspect, reads.classified]
        exact if_pos digest
      refine .decided ?_ ?_ ?_ <;> rw [verdict] <;> rfl
    · rename_i digest
      have verdict : inspect blake3 file.bytes offset =
          { bad := some (.payloadHashMismatch, some pending.id)
            next := nextCandidate offset } := by
        rw [inspect, reads.classified]
        exact if_neg digest
      refine .decided ?_ ?_ ?_ <;> rw [verdict] <;> rfl
  · rename_i unfinished
    have within : (pending.feed offset).read ≤ pending.length := by
      have shorter : min (pending.length - pending.read) payloadStep ≤
          pending.length - pending.read := min_le_left _ _
      have begun := reads.unfinished
      simp only [Pending.feed]
      omega
    exact .reading _ rfl
      { sameFile := reads.sameFile
        classified := reads.classified
        unfinished := lt_of_le_of_ne within unfinished
        hashedSoFar := hashed }
      rfl rfl rfl

theorem lookHeader_agrees
    (blake3 : Bytes → BlockId)
    (file : SegmentFile)
    (offset : Nat) :
    (lookHeader blake3 file offset).Agrees blake3 file offset := by
  unfold lookHeader
  cases classified : classify file.bytes offset with
  | bad kind block =>
      have verdict : inspect blake3 file.bytes offset =
          { bad := some (kind, block), next := nextCandidate offset } := by
        rw [inspect, classified]
      refine .decided ?_ ?_ ?_ <;> rw [verdict] <;> rfl
  | hash record total =>
      dsimp only
      split
      · rename_i empty
        have noPayload : payloadAt file.bytes offset record.payloadLen =
            [] := by
          rw [payloadAt, empty, List.take_zero]
        split
        · rename_i digest
          have verdict : inspect blake3 file.bytes offset =
              { verified := some record, next := offset + total } := by
            rw [inspect, classified]
            dsimp only
            rw [noPayload]
            exact if_pos digest.symm
          refine .decided ?_ ?_ ?_ <;> rw [verdict] <;> rfl
        · rename_i digest
          have verdict : inspect blake3 file.bytes offset =
              { bad := some (.payloadHashMismatch, some record.id)
                next := nextCandidate offset } := by
            rw [inspect, classified]
            dsimp only
            rw [noPayload]
            exact if_neg (Ne.symm digest)
          refine .decided ?_ ?_ ?_ <;> rw [verdict] <;> rfl
      · rename_i notEmpty
        exact .reading _ rfl
          { sameFile := rfl
            classified := classified
            unfinished := Nat.pos_of_ne_zero notEmpty
            hashedSoFar := rfl }
          rfl rfl rfl

/-- The cursor belongs to the segment that is there, and so does the payload. -/
structure Scanner.Sound
    (sealedFiles : List SealedFile)
    (scanner : Scanner) : Prop where
  generation :
    ∀ view,
      sealedFiles[scanner.cursor.segment]? = some view →
      scanner.cursor.generation = some view.generation ∨
        scanner.cursor.offset = 0 ∧ scanner.pending = none
  pending :
    ∀ pending,
      scanner.pending = some pending →
      ∃ view,
        sealedFiles[scanner.cursor.segment]? = some view ∧
          pending.Reads view.file scanner.cursor.offset

/-- A scanner at the start of a segment is sound. -/
theorem Scanner.Sound.at_start
    {cursor : Cursor}
    (atStart : cursor.offset = 0) :
    ({ cursor := cursor } : Scanner).Sound sealedFiles where
  generation := fun _ _ => .inr ⟨atStart, rfl⟩
  pending := fun _ isPending => absurd isPending.symm (Option.some_ne_none _)

/-- A step reports what lies between its two cursors, and saves the second. -/
structure Outcome.Advances
    (blake3 : Bytes → BlockId)
    (sealedFiles : List SealedFile)
    (cursor : Cursor)
    (outcome : Outcome) : Prop where
  sound : outcome.scanner.Sound sealedFiles
  saved : outcome.saved.getD cursor = outcome.scanner.cursor
  findings :
    ((outcome.result.map ScrubStep.findings).getD []).map
        OnlineFinding.finding ++
        (remaining blake3 sealedFiles outcome.scanner.cursor.segment
          outcome.scanner.cursor.offset).findings =
      (remaining blake3 sealedFiles cursor.segment cursor.offset).findings
  verified :
    (outcome.result.map ScrubStep.verified).getD 0 +
        (remaining blake3 sealedFiles outcome.scanner.cursor.segment
          outcome.scanner.cursor.offset).verified.length =
      (remaining blake3 sealedFiles cursor.segment
        cursor.offset).verified.length

/-- A sound scanner loses nothing when its cursor is synchronized. -/
theorem Scanner.Sound.synchronize
    (sound : scanner.Sound sealedFiles)
    (present : sealedFiles[scanner.cursor.segment]? = some view) :
    scanner.synchronize view.generation =
      { scanner with
        cursor :=
          { scanner.cursor with generation := some view.generation } } := by
  unfold Scanner.synchronize
  obtain ⟨cursor, pending⟩ := scanner
  obtain same | ⟨atStart, noPending⟩ := sound.generation view present
  · rw [if_pos same]
    dsimp only at same ⊢
    rw [← same]
  · dsimp only at atStart noPending ⊢
    split
    · rename_i same
      rw [← same]
    · rw [noPending, ← atStart]

/-- A cursor behind a segment leaves it without anything to report. -/
theorem Scanner.Sound.leaveSegment_advances
    (blake3 : Bytes → BlockId)
    (sound : scanner.Sound sealedFiles)
    (reset : Bool)
    (present : sealedFiles[scanner.cursor.segment]? = some view)
    (outside : view.file.bytes.length ≤ scanner.cursor.offset) :
    (scanner.leaveSegment reset).Advances blake3 sealedFiles
      scanner.cursor := by
  unfold Scanner.leaveSegment
  split
  · have same : remaining blake3 sealedFiles (scanner.cursor.segment + 1) 0 =
        remaining blake3 sealedFiles scanner.cursor.segment
          scanner.cursor.offset := by
      rw [remaining_start, remaining, present]
      dsimp only
      rw [reportFrom_outside _ outside]
      rfl
    refine ⟨.at_start rfl, rfl, ?_, ?_⟩
    · exact congrArg Report.findings same
    · exact (Nat.zero_add _).trans
        (congrArg (fun report => report.verified.length) same)
  · exact ⟨sound, rfl, rfl, Nat.zero_add _⟩

/-- What is published is what the offline scrub says of the candidate. -/
theorem Scanner.publish_advances
    {look : Look}
    (reset : Bool)
    (present : sealedFiles[scanner.cursor.segment]? = some view)
    (synchronized : scanner.cursor.generation = some view.generation)
    (inside : scanner.cursor.offset < view.file.bytes.length)
    (agrees : look.Agrees blake3 view.file scanner.cursor.offset) :
    (scanner.publish reset view (some view) look).Advances blake3 sealedFiles
      scanner.cursor := by
  rw [Scanner.publish, Option.map_some, if_pos rfl]
  cases agrees with
  | reading pending isPending reads noFinding notVerified noNext =>
      simp only [noFinding, notVerified, noNext, isPending]
      refine ⟨⟨fun other isOther => .inl ?_, ?_⟩, rfl, rfl, Nat.zero_add _⟩
      · cases present.symm.trans isOther
        exact synchronized
      · rintro _ ⟨⟩
        exact ⟨view, present, reads⟩
  | decided sameFinding sameVerified sameNext =>
      have split : remaining blake3 sealedFiles scanner.cursor.segment
          scanner.cursor.offset =
          ((inspect blake3 view.file.bytes scanner.cursor.offset).report
            scanner.cursor.segment scanner.cursor.offset).append
          (remaining blake3 sealedFiles scanner.cursor.segment
            (inspect blake3 view.file.bytes
              scanner.cursor.offset).next) := by
        simp only [remaining, present]
        rw [reportFrom_inside _ view.file.length_lt inside]
        simp only [Report.append, List.append_assoc]
      simp only [sameNext]
      refine ⟨⟨fun other isOther => .inl ?_, ?_⟩, rfl, ?_, ?_⟩
      · cases present.symm.trans isOther
        exact synchronized
      · intro _ isPending
        cases isPending
      · rw [split, sameFinding]
        simp only [Report.append, Inspection.report, Option.map_some,
          Option.getD_some, List.map_map]
        rfl
      · rw [split, sameVerified]
        simp only [Report.append, Inspection.report, Option.map_some,
          Option.getD_some, List.length_append, List.length_map]
        cases (inspect blake3 view.file.bytes
          scanner.cursor.offset).verified <;> rfl

/-- The cursor that is saved last, if it was synchronized before. -/
theorem saved_getD
    (cursor : Cursor)
    (generation : String)
    (saved : Option Cursor) :
    (saved.or
        (if cursor.generation ≠ some generation then
          some { cursor with generation := some generation }
        else
          none)).getD cursor =
      saved.getD { cursor with generation := some generation } := by
  cases saved with
  | some saved =>
      rfl
  | none =>
      rw [Option.none_or]
      split
      · rfl
      · rename_i same
        rw [← not_not.mp same]

/-- A step that does not end the sweep reports what it passes. -/
theorem Scanner.Sound.step_advances
    (blake3 : Bytes → BlockId)
    (sound : scanner.Sound sealedFiles)
    (foreground : Bool)
    (goesOn :
      foreground = false →
        ∃ view, sealedFiles[scanner.cursor.segment]? = some view) :
    (scanner.step blake3 sealedFiles sealedFiles foreground).Advances blake3
      sealedFiles scanner.cursor := by
  cases foreground with
  | true =>
      exact ⟨sound, rfl, rfl, Nat.zero_add _⟩
  | false =>
      obtain ⟨view, present⟩ := goesOn rfl
      have same := sound.synchronize present
      rw [Scanner.step, if_neg (by decide), present]
      dsimp only
      rw [same]
      set synchronized : Scanner :=
        { scanner with
          cursor :=
            { scanner.cursor with generation := some view.generation } }
        with isSynchronized
      have soundNow : synchronized.Sound sealedFiles := by
        refine ⟨fun other isOther => .inl ?_, sound.pending⟩
        cases present.symm.trans isOther
        rfl
      have advances (reset : Bool) :
          (if synchronized.cursor.offset ≥ view.file.bytes.length then
            synchronized.leaveSegment reset
          else
            synchronized.publish reset view (some view)
              (synchronized.look blake3 view.file)).Advances blake3
            sealedFiles synchronized.cursor := by
        split
        · rename_i outside
          exact soundNow.leaveSegment_advances blake3 reset present outside
        · rename_i inside
          refine Scanner.publish_advances _ present rfl
            (not_le.mp inside) ?_
          unfold Scanner.look
          cases isPending : synchronized.pending with
          | none =>
              exact lookHeader_agrees blake3 view.file _
          | some pending =>
              obtain ⟨other, isOther, reads⟩ :=
                soundNow.pending pending isPending
              cases present.symm.trans isOther
              exact reads.look_agrees
      refine ⟨(advances _).sound, ?_, (advances _).findings,
        (advances _).verified⟩
      exact (saved_getD scanner.cursor view.generation _).trans
        (advances _).saved

end Step

/-! ## Every finding is reported once -/

section Once

variable {blake3 : Bytes → BlockId}

/-- The findings of a segment are at different offsets. -/
theorem scrubFrom_findings
    {segment rounds offset : Nat}
    {bytes : Bytes}
    {report : Report}
    (bounded : bytes.length < 2 ^ 63)
    (scrubbed : scrubFrom blake3 segment bytes rounds offset = some report) :
    report.findings.Nodup ∧
      ∀ finding ∈ report.findings,
        finding.segment = segment ∧ offset ≤ finding.offset := by
  induction rounds generalizing offset report with
  | zero =>
      cases scrubbed
  | succ rounds inductionHypothesis =>
      rw [scrubFrom] at scrubbed
      split at scrubbed
      · rename_i inside
        have further := next_gt blake3 bounded inside
        obtain ⟨later, isLater, rfl⟩ := Option.map_eq_some_iff.mp scrubbed
        obtain ⟨distinct, behind⟩ := inductionHypothesis isLater
        cases found : (inspect blake3 bytes offset).bad with
        | none =>
            simp only [Report.append, Inspection.report, found,
              Option.toList_none, List.map_nil, List.nil_append]
            refine ⟨distinct, fun finding member => ?_⟩
            obtain ⟨sameSegment, after⟩ := behind finding member
            exact ⟨sameSegment, by omega⟩
        | some bad =>
            simp only [Report.append, Inspection.report, found,
              Option.toList_some, List.map_cons, List.map_nil,
              List.singleton_append, List.nodup_cons, List.mem_cons]
            refine ⟨⟨fun member => ?_, distinct⟩, ?_⟩
            · obtain ⟨-, after⟩ := behind _ member
              dsimp only at after
              omega
            · rintro finding (rfl | member)
              · exact ⟨rfl, le_refl _⟩
              · obtain ⟨sameSegment, after⟩ := behind finding member
                exact ⟨sameSegment, by omega⟩
      · cases scrubbed
        exact ⟨List.nodup_nil, fun _ member => absurd member List.not_mem_nil⟩

/-- The findings of several segments are different ones. -/
theorem reports_findings
    (blake3 : Bytes → BlockId)
    (segment : Nat)
    (sealedFiles : List SealedFile) :
    (reports blake3 segment sealedFiles).findings.Nodup ∧
      ∀ finding ∈ (reports blake3 segment sealedFiles).findings,
        segment ≤ finding.segment := by
  induction sealedFiles generalizing segment with
  | nil =>
      exact ⟨List.nodup_nil, fun _ member => absurd member List.not_mem_nil⟩
  | cons view rest inductionHypothesis =>
      obtain ⟨distinct, behind⟩ := inductionHypothesis (segment + 1)
      obtain ⟨here, within⟩ := scrubFrom_findings view.file.length_lt
        (reportFrom_spec blake3 segment view.file.length_lt
          (Nat.lt_succ_self (view.file.bytes.length - 0)))
      simp only [reports, Report.append, List.nodup_append, List.mem_append]
      refine ⟨⟨here, distinct, ?_⟩, ?_⟩
      · rintro first member _ other rfl
        have sameSegment := (within first member).1
        have after := behind first other
        omega
      · rintro finding (member | member)
        · exact (within finding member).1.ge
        · exact Nat.le_of_succ_le (behind finding member)

end Once

/-! ## A whole sweep -/

section Sweep

variable {blake3 : Bytes → BlockId} {sealedFiles : List SealedFile}
  {scanner : Scanner} {host : Host}

/-- What was reported and what is left are the offline report. -/
structure Host.Sweeping
    (blake3 : Bytes → BlockId)
    (sealedFiles : List SealedFile)
    (host : Host) : Prop where
  restarts :
    ({ cursor := host.checkpoint.getD {} } : Scanner).Sound sealedFiles
  scanner :
    ∀ scanner,
      host.scanner = some scanner →
      scanner.Sound sealedFiles ∧
        scanner.cursor = host.checkpoint.getD {}
  findings :
    host.reported.map OnlineFinding.finding ++
        (remaining blake3 sealedFiles (host.checkpoint.getD {}).segment
          (host.checkpoint.getD {}).offset).findings =
      (reports blake3 0 sealedFiles).findings
  verified :
    host.verified +
        (remaining blake3 sealedFiles (host.checkpoint.getD {}).segment
          (host.checkpoint.getD {}).offset).verified.length =
      (reports blake3 0 sealedFiles).verified.length

theorem openScanner_eq_some
    {checkpoint : Option Cursor}
    (opened : openScanner checkpoint = some scanner) :
    scanner = { cursor := checkpoint.getD {} } := by
  unfold openScanner at opened
  dsimp only at opened
  split at opened
  · cases opened
    rfl
  · cases opened

/-- A payload that is dropped is read again. -/
theorem Scanner.Sound.drop_pending
    (sound : scanner.Sound sealedFiles) :
    ({ cursor := scanner.cursor } : Scanner).Sound sealedFiles where
  generation := fun view present =>
    (sound.generation view present).imp id fun atStart => ⟨atStart.1, rfl⟩
  pending := fun _ isPending => absurd isPending.symm (Option.some_ne_none _)

theorem sweeping_start
    (blake3 : Bytes → BlockId)
    (sealedFiles : List SealedFile)
    {checkpoint : Option Cursor}
    (firstSegment : (checkpoint.getD {}).segment = 0)
    (firstOffset : (checkpoint.getD {}).offset = 0) :
    (Host.start checkpoint).Sweeping blake3 sealedFiles := by
  have whole : remaining blake3 sealedFiles (checkpoint.getD {}).segment
      (checkpoint.getD {}).offset = reports blake3 0 sealedFiles := by
    rw [firstSegment, firstOffset, remaining_start, List.drop_zero]
  refine ⟨.at_start firstOffset, ?_, ?_, ?_⟩
  · intro scanner opened
    cases openScanner_eq_some opened
    exact ⟨.at_start firstOffset, rfl⟩
  · exact congrArg Report.findings whole
  · exact (Nat.zero_add _).trans
      (congrArg (fun report => report.verified.length) whole)

/-- A step that does not wrap finds a sealed segment at its cursor. -/
theorem exists_view_of_goesOn
    {foreground : Bool}
    (someSealed : sealedFiles ≠ [])
    (running : host.scanner = some scanner)
    (goesOn : wraps sealedFiles host (.step foreground) = false)
    (reads : foreground = false) :
    ∃ view, sealedFiles[scanner.cursor.segment]? = some view := by
  cases reads
  simp only [wraps, running, Option.any_some] at goesOn
  cases present : sealedFiles[scanner.cursor.segment]? with
  | some view =>
      exact ⟨view, rfl⟩
  | none =>
      have first : scanner.cursor.segment = 0 := by
        simpa [present] using goesOn
      have noneLeft := List.getElem?_eq_none_iff.mp present
      rw [first] at noneLeft
      exact absurd (List.length_eq_zero_iff.mp (Nat.le_zero.mp noneLeft))
        someSealed

/-- Until the cursor wraps, every event keeps the balance. -/
theorem Host.Sweeping.step
    (sweeping : host.Sweeping blake3 sealedFiles)
    (someSealed : sealedFiles ≠ [])
    {event : Event}
    (goesOn : wraps sealedFiles host event = false) :
    (stepHost blake3 sealedFiles host event).Sweeping blake3
      sealedFiles := by
  cases event with
  | reopen =>
      refine ⟨sweeping.restarts, ?_, sweeping.findings, sweeping.verified⟩
      intro scanner opened
      cases openScanner_eq_some opened
      exact ⟨sweeping.restarts, rfl⟩
  | step foreground =>
      unfold stepHost
      cases running : host.scanner with
      | none =>
          exact sweeping
      | some scanner =>
          obtain ⟨sound, atCheckpoint⟩ := sweeping.scanner scanner running
          have advances := sound.step_advances blake3 foreground
            (exists_view_of_goesOn someSealed running goesOn)
          dsimp only
          set outcome :=
            scanner.step blake3 sealedFiles sealedFiles foreground
          have moved : (outcome.saved.or host.checkpoint).getD {} =
              outcome.scanner.cursor := by
            rw [← advances.saved, atCheckpoint]
            cases outcome.saved <;> rfl
          have findings := sweeping.findings
          have verified := sweeping.verified
          rw [← atCheckpoint, ← advances.findings] at findings
          rw [← atCheckpoint, ← advances.verified] at verified
          refine ⟨?_, ?_, ?_, ?_⟩
          · dsimp only
            rw [moved]
            exact advances.sound.drop_pending
          · rintro _ ⟨⟩
            exact ⟨advances.sound, moved.symm⟩
          · dsimp only
            rw [moved, List.map_append, List.append_assoc]
            exact findings
          · dsimp only
            rw [moved, Nat.add_assoc]
            exact verified

/-- A step that wraps reports nothing. -/
theorem stepHost_wraps
    (blake3 : Bytes → BlockId)
    {event : Event}
    (wrapped : wraps sealedFiles host event = true) :
    ∃ scanner,
      host.scanner = some scanner ∧
        sealedFiles[scanner.cursor.segment]? = none ∧
        (stepHost blake3 sealedFiles host event).reported = host.reported ∧
        (stepHost blake3 sealedFiles host event).verified =
          host.verified := by
  cases event with
  | reopen =>
      cases wrapped
  | step foreground =>
      cases foreground with
      | true =>
          cases wrapped
      | false =>
          cases running : host.scanner with
          | none =>
              simp [wraps, running] at wrapped
          | some scanner =>
              have behind : scanner.cursor.segment ≠ 0 ∧
                  sealedFiles[scanner.cursor.segment]? = none := by
                simpa [wraps, running] using wrapped
              refine ⟨scanner, rfl, behind.2, ?_⟩
              simp only [stepHost, running, Scanner.step, behind.2,
                Scanner.wrap, if_pos behind.1]
              exact ⟨List.append_nil _, rfl⟩

/--
Over a sweep from the first segment on, whatever the yields and the restarts,
the online scrub reports what the offline scrub does, every finding once.
-/
theorem online_scrub_agrees
    (blake3 : Bytes → BlockId)
    (sealedFiles : List SealedFile)
    (someSealed : sealedFiles ≠ [])
    (checkpoint : Option Cursor)
    (firstSegment : (checkpoint.getD {}).segment = 0)
    (firstOffset : (checkpoint.getD {}).offset = 0)
    (events : List Event)
    (sweep : Nat)
    (wrapped :
      events[sweep]?.any
        (wraps sealedFiles
          (StepRun.before (stepHost blake3 sealedFiles)
            (Host.start checkpoint) events sweep)) = true)
    (firstWrap :
      ∀ earlier < sweep,
        events[earlier]?.any
          (wraps sealedFiles
            (StepRun.before (stepHost blake3 sealedFiles)
              (Host.start checkpoint) events earlier)) =
          false) :
    ∃ report,
      scrubSegments blake3 0 sealedFiles = some report ∧
        (StepRun.before (stepHost blake3 sealedFiles)
          (Host.start checkpoint) events
          (sweep + 1)).reported.map OnlineFinding.finding =
          report.findings ∧
        report.findings.Nodup ∧
        (StepRun.before (stepHost blake3 sealedFiles)
          (Host.start checkpoint) events
          (sweep + 1)).verified = report.verified.length := by
  refine ⟨_, scrubSegments_eq blake3 0 sealedFiles, ?_⟩
  have done :
      (StepRun.before (stepHost blake3 sealedFiles) (Host.start checkpoint)
        events sweep).Sweeping blake3 sealedFiles := by
    refine StepRun.holds_until
      (fun host : Host => host.Sweeping blake3 sealedFiles)
      (sweeping_start blake3 sealedFiles firstSegment firstOffset) ?_
      (le_refl sweep)
    intro position event within present now
    have goesOn := firstWrap position within
    rw [present] at goesOn
    exact now.step someSealed goesOn
  cases present : events[sweep]? with
  | none =>
      rw [present] at wrapped
      cases wrapped
  | some event =>
      rw [present, Option.any_some] at wrapped
      rw [StepRun.before_succ present]
      obtain ⟨scanner, running, behind, sameFindings, sameVerified⟩ :=
        stepHost_wraps blake3 wrapped
      have atCheckpoint := (done.scanner scanner running).2
      have findings := done.findings
      have verified := done.verified
      rw [← atCheckpoint, remaining, behind] at findings verified
      rw [sameFindings, sameVerified]
      exact ⟨(List.append_nil _).symm.trans findings,
        (reports_findings blake3 0 sealedFiles).1, verified⟩

/-- The digest of the bytes two and three. -/
def pairDigest : BlockId :=
  ⟨[117, 225, 124, 139, 166, 109, 32, 146, 30, 170, 112, 80, 12, 239, 32, 41,
    93, 4, 83, 47, 68, 89, 138, 93, 119, 12, 87, 210, 163, 60, 11, 103],
    by decide⟩

/-- BLAKE3 on the payload of the sample record. -/
def pairBlake3 (bytes : Bytes) : BlockId :=
  if bytes = [2, 3] then pairDigest else .filled 0

/-- A record, followed by three bytes of a header. -/
def damagedSegment : SealedFile where
  file := ⟨encodeRecord pairDigest [2, 3] ++ [75, 76, 80], by decide +kernel⟩
  generation := "1:2:3:4:4099:5"

/-- The scanner yields, and loses a payload that it has begun to read. -/
theorem online_scrub_agrees_restarted :
    ∃ report,
      scrubSegments pairBlake3 0 [damagedSegment] = some report ∧
        (StepRun.before (stepHost pairBlake3 [damagedSegment])
          (Host.start none)
          [.step false, .step true, .reopen, .step false, .step false,
            .step false, .step false, .step false] 8).reported.map
          OnlineFinding.finding = report.findings ∧
        report.findings.Nodup ∧
        (StepRun.before (stepHost pairBlake3 [damagedSegment])
          (Host.start none)
          [.step false, .step true, .reopen, .step false, .step false,
            .step false, .step false, .step false] 8).verified =
          report.verified.length :=
  online_scrub_agrees pairBlake3 [damagedSegment] (List.cons_ne_nil _ _) none
    rfl rfl _ 7 (by decide +kernel) (by decide +kernel)

end Sweep

end KalpakDb.Scrub
