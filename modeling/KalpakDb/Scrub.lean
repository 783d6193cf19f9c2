import KalpakDb.BlockStore

namespace KalpakDb.Scrub

/-!
# The offline scrub

The scrub walks over a segment like the scan that rebuilds the index, but it
checks more: lengths are added without overflow, reserved bytes are zero and
payloads have their digests.  Where the scan stops, the scrub reports a
finding and goes on at the next aligned offset.  A scrub without findings has
therefore seen what the scan sees.
-/

open ByteCodec (leBytes leValue)

inductive FindingKind where
  | truncatedHeader
  | invalidReservedHeader
  | truncatedOrInvalidLength
  | payloadHashMismatch
  | lengthOverflow
  | invalidHeader
  deriving DecidableEq

structure Finding where
  segment : Nat
  offset : Nat
  kind : FindingKind
  block : Option BlockId
  deriving DecidableEq

/-! ## One candidate -/

/-- The length of a record, unless computing it overflows. -/
def checkedTotal (payloadLen : Nat) : Option Nat :=
  if payloadLen + headerLen + (blockAlign - 1) < 2 ^ 64 then
    some ((payloadLen + headerLen + (blockAlign - 1)) / blockAlign *
      blockAlign)
  else
    none

/-- What the header at an offset says; the payload is still to be hashed. -/
inductive Verdict where
  | bad (kind : FindingKind) (block : Option BlockId)
  | hash (record : RecordHeader) (total : Nat)

def classify (bytes : Bytes) (offset : Nat) : Verdict :=
  if bytes.length - offset < headerLen then
    .bad .truncatedHeader none
  else
    let header := (bytes.drop offset).take headerLen
    match parseHeader header with
    | none => .bad .invalidHeader none
    | some record =>
        if (header.drop 48).any (· ≠ 0) then
          .bad .invalidReservedHeader (some record.id)
        else
          match checkedTotal record.payloadLen with
          | none => .bad .lengthOverflow (some record.id)
          | some total =>
              if total > bytes.length - offset then
                .bad .truncatedOrInvalidLength (some record.id)
              else
                .hash record total

/-- The bytes of a payload, from the offset of its header. -/
def payloadAt (bytes : Bytes) (offset payloadLen : Nat) : Bytes :=
  (bytes.drop (offset + headerLen)).take payloadLen

/-- Damaged headers are not trusted: the next candidate is a block further. -/
def nextCandidate (offset : Nat) : Nat :=
  min (offset + blockAlign) (2 ^ 64 - 1)

/-- What came out of a candidate, and where the next one is. -/
structure Inspection where
  verified : Option RecordHeader := none
  bad : Option (FindingKind × Option BlockId) := none
  next : Nat

section Hash

variable (blake3 : Bytes → BlockId)

def inspect (bytes : Bytes) (offset : Nat) : Inspection :=
  match classify bytes offset with
  | .bad kind block =>
      { bad := some (kind, block), next := nextCandidate offset }
  | .hash record total =>
      if blake3 (payloadAt bytes offset record.payloadLen) = record.id then
        { verified := some record, next := offset + total }
      else
        { bad := some (.payloadHashMismatch, some record.id)
          next := nextCandidate offset }

/-! ## One segment -/

/-- The records that were verified, and the findings. -/
structure Report where
  verified : List (BlockId × Location) := []
  findings : List Finding := []
  deriving DecidableEq

def Report.append (first second : Report) : Report where
  verified := first.verified ++ second.verified
  findings := first.findings ++ second.findings

/-- What a candidate adds to the report. -/
def Inspection.report
    (inspection : Inspection)
    (segment offset : Nat) : Report where
  verified :=
    inspection.verified.toList.map fun record =>
      (record.id, {
        segment := segment
        offset := offset
        payloadLen := record.payloadLen })
  findings :=
    inspection.bad.toList.map fun bad =>
      { segment := segment
        offset := offset
        kind := bad.1
        block := bad.2 }

/-- Walk over a segment from an offset on; `none` if the rounds run out. -/
def scrubFrom (segment : Nat) (bytes : Bytes) : Nat → Nat → Option Report
  | 0, _ => none
  | rounds + 1, offset =>
      if offset < bytes.length then
        (scrubFrom segment bytes rounds (inspect blake3 bytes offset).next).map
          ((inspect blake3 bytes offset).report segment offset).append
      else
        some {}

/-- Each candidate is behind the one before it, so the rounds suffice. -/
def scrubSegment (segment : Nat) (bytes : Bytes) : Option Report :=
  scrubFrom blake3 segment bytes (bytes.length + 1) 0

end Hash

/-! ## The walk ends -/

section Walk

variable {blake3 : Bytes → BlockId} {bytes : Bytes} {offset : Nat}
  {rounds : Nat}

theorem checkedTotal_eq_some
    {payloadLen total : Nat}
    (checked : checkedTotal payloadLen = some total) :
    total = recordLen payloadLen ∧
      payloadLen + headerLen ≤ total ∧
      total < 2 ^ 64 := by
  unfold checkedTotal at checked
  split at checked
  · cases checked
    unfold recordLen blockAlign headerLen at *
    dsimp only
    omega
  · cases checked

/-- A header whose payload is hashed is one that the scan accepts. -/
theorem classify_eq_hash
    {record : RecordHeader}
    {total : Nat}
    (classified : classify bytes offset = .hash record total) :
    headerLen ≤ bytes.length - offset ∧
      parseHeader ((bytes.drop offset).take headerLen) = some record ∧
      checkedTotal record.payloadLen = some total ∧
      total ≤ bytes.length - offset := by
  unfold classify at classified
  split at classified
  · cases classified
  · rename_i whole
    dsimp only at classified
    split at classified
    · cases classified
    · rename_i found parsed
      split at classified
      · cases classified
      · split at classified
        · cases classified
        · rename_i length checked
          split at classified
          · cases classified
          · rename_i fits
            cases classified
            exact ⟨not_lt.mp whole, parsed, checked, not_lt.mp fits⟩

theorem next_gt
    (blake3 : Bytes → BlockId)
    (bounded : bytes.length < 2 ^ 63)
    (inside : offset < bytes.length) :
    offset < (inspect blake3 bytes offset).next := by
  have skip : offset < nextCandidate offset := by
    unfold nextCandidate blockAlign
    omega
  unfold inspect
  split
  · exact skip
  · rename_i record total classified
    obtain ⟨-, -, checked, -⟩ := classify_eq_hash classified
    obtain ⟨-, larger, -⟩ := checkedTotal_eq_some checked
    split
    · dsimp only
      unfold headerLen at larger
      omega
    · exact skip

/-- Enough rounds always reach the end of the segment. -/
theorem scrubFrom_ends
    (blake3 : Bytes → BlockId)
    (segment : Nat)
    (bounded : bytes.length < 2 ^ 63)
    (enough : bytes.length - offset < rounds) :
    ∃ report, scrubFrom blake3 segment bytes rounds offset = some report := by
  induction rounds generalizing offset with
  | zero =>
      exact absurd enough (Nat.not_lt_zero _)
  | succ rounds inductionHypothesis =>
      rw [scrubFrom]
      split
      · rename_i inside
        have further := next_gt blake3 bounded inside
        obtain ⟨report, later⟩ := inductionHypothesis
          (show bytes.length - (inspect blake3 bytes offset).next < rounds by
            omega)
        exact ⟨_, by rw [later]; rfl⟩
      · exact ⟨{}, rfl⟩

/-- A candidate without a finding is a record that the scan finds there. -/
theorem inspect_clean
    (bounded : bytes.length < 2 ^ 63)
    (inside : offset < bytes.length)
    (clean : (inspect blake3 bytes offset).bad = none) :
    ∃ record,
      (inspect blake3 bytes offset).verified = some record ∧
        scanStep bytes offset =
          some (record, (inspect blake3 bytes offset).next) ∧
        (inspect blake3 bytes offset).next ≤ bytes.length ∧
        blake3 (payloadAt bytes offset record.payloadLen) = record.id := by
  unfold inspect at clean ⊢
  split at clean
  · cases clean
  · rename_i record total classified
    split at clean
    · rename_i digest
      obtain ⟨whole, parsed, checked, fits⟩ := classify_eq_hash classified
      obtain ⟨isLength, -, -⟩ := checkedTotal_eq_some checked
      have unwrapped : (offset + recordLen record.payloadLen) % 2 ^ 64 =
          offset + total := by
        rw [← isLength]
        exact Nat.mod_eq_of_lt (by omega)
      refine ⟨record, ?_⟩
      simp only [if_pos digest]
      refine ⟨trivial, ?_, by omega, digest⟩
      rw [scanStep, if_pos (by omega), parsed]
      simp only [unwrapped]
      rw [if_neg (by omega)]
    · cases clean

/-- From an offset on, a scrub without findings has seen what the scan sees. -/
theorem scanFrom_of_clean
    (segment : Nat)
    (bounded : bytes.length < 2 ^ 63)
    (within : offset ≤ bytes.length)
    {report : Report}
    (scrubbed : scrubFrom blake3 segment bytes rounds offset = some report)
    (clean : report.findings = []) :
    scanFrom segment bytes rounds offset =
        some (report.verified, bytes.length) ∧
      ∀ entry ∈ report.verified,
        blake3 (payloadAt bytes entry.2.offset entry.2.payloadLen) =
          entry.1 := by
  induction rounds generalizing offset report with
  | zero =>
      cases scrubbed
  | succ rounds inductionHypothesis =>
      rw [scrubFrom] at scrubbed
      split at scrubbed
      · rename_i inside
        obtain ⟨later, isLater, rfl⟩ := Option.map_eq_some_iff.mp scrubbed
        obtain ⟨here, rest⟩ := List.append_eq_nil_iff.mp clean
        have noFinding : (inspect blake3 bytes offset).bad = none := by
          simpa [Inspection.report] using here
        obtain ⟨record, verified, step, next, digest⟩ :=
          inspect_clean bounded inside noFinding
        obtain ⟨scanned, digests⟩ := inductionHypothesis next isLater rest
        have entries : (((inspect blake3 bytes offset).report segment
            offset).append later).verified =
            (record.id, {
              segment := segment
              offset := offset
              payloadLen := record.payloadLen }) :: later.verified := by
          simp [Report.append, Inspection.report, verified]
        rw [entries]
        refine ⟨?_, ?_⟩
        · rw [scanFrom, step]
          simp only [scanned, Option.map_some]
        · intro entry member
          rcases List.mem_cons.mp member with rfl | inLater
          · exact digest
          · exact digests entry inLater
      · rename_i outside
        cases scrubbed
        obtain rfl : offset = bytes.length := by omega
        have stops : scanStep bytes bytes.length = none := by
          rw [scanStep, if_neg (by simp [headerLen])]
        refine ⟨?_, by simp⟩
        rw [scanFrom, stops]

theorem checkedTotal_of_small
    {payloadLen : Nat}
    (small : payloadLen < 2 ^ 62) :
    checkedTotal payloadLen = some (recordLen payloadLen) := by
  rw [recordLen_eq small, checkedTotal, if_pos]
  · rfl
  · unfold headerLen blockAlign
    omega

theorem reserved_encodeHeader (id : BlockId) (payloadLen : Nat) :
    ((encodeHeader id payloadLen).drop 48).any (· ≠ 0) = false := by
  have reserved : (encodeHeader id payloadLen).drop 48 =
      List.replicate 16 0 := by
    refine List.drop_left' ?_
    simp [magic, id.length_bytes]
  rw [reserved]
  decide

/-- At the start of a record under its digest, the scrub verifies it. -/
theorem inspect_record
    {front rest : Bytes}
    {payload : Payload}
    (shape :
      bytes = front ++
        (encodeRecord (blake3 payload.bytes) payload.bytes ++ rest)) :
    inspect blake3 bytes front.length =
      { verified := some ⟨blake3 payload.bytes, payload.bytes.length⟩
        next := front.length + recordLen payload.bytes.length } := by
  have small := payload.length_lt
  have bounds := recordLen_bounds small
  have length : bytes.length - front.length =
      recordLen payload.bytes.length + rest.length := by
    rw [shape, List.length_append, List.length_append,
      length_encodeRecord _ small]
    omega
  have header :
      (bytes.drop front.length).take headerLen =
        encodeHeader (blake3 payload.bytes) payload.bytes.length := by
    rw [shape, List.drop_left, encodeRecord, List.append_assoc,
      List.append_assoc, List.take_left' (length_encodeHeader _ _)]
  have content :
      payloadAt bytes front.length payload.bytes.length = payload.bytes := by
    rw [payloadAt, shape, ← List.drop_drop, List.drop_left, encodeRecord,
      List.append_assoc, List.append_assoc,
      List.drop_left' (length_encodeHeader _ _), List.take_left]
  have classified : classify bytes front.length =
      .hash ⟨blake3 payload.bytes, payload.bytes.length⟩
        (recordLen payload.bytes.length) := by
    rw [classify, if_neg (by omega)]
    simp only [header, parseHeader_encodeHeader _
      (show payload.bytes.length < 2 ^ 64 by omega), reserved_encodeHeader,
      checkedTotal_of_small small, Bool.false_eq_true, if_false]
    rw [if_neg (by omega)]
  rw [inspect, classified]
  simp only [content, if_true]

/-- Over records under their digests the scrub has no finding. -/
theorem scrubFrom_encodeAll
    (segment : Nat)
    {front : Bytes}
    {payloads : List Payload}
    (shape : bytes = front ++ encodeAll blake3 payloads)
    (enough : payloads.length < rounds) :
    scrubFrom blake3 segment bytes rounds front.length =
      some { verified := locateFrom blake3 segment front.length payloads } := by
  induction payloads generalizing front rounds with
  | nil =>
      cases rounds with
      | zero =>
          exact absurd enough (Nat.not_lt_zero _)
      | succ rounds =>
          rw [scrubFrom, if_neg (by simp [shape])]
          rfl
  | cons payload rest inductionHypothesis =>
      cases rounds with
      | zero =>
          exact absurd enough (Nat.not_lt_zero _)
      | succ rounds =>
          have length := length_encodeRecord (blake3 payload.bytes)
            payload.length_lt
          have bounds := recordLen_bounds payload.length_lt
          have inspected := inspect_record shape
          have inside : front.length < bytes.length := by
            rw [shape, encodeAll_cons, List.length_append,
              List.length_append, length]
            omega
          have later := inductionHypothesis
            (shape.trans (by rw [encodeAll_cons, ← List.append_assoc]))
            (Nat.lt_of_succ_lt_succ enough)
          rw [List.length_append, length] at later
          rw [scrubFrom, if_pos inside, inspected, later]
          rfl

end Walk

/--
A scrub of a segment runs to the end.  Without a finding the scan reports the
records that were verified, ends with the file, and all payloads have their
digests.  Over records under their own digests there is no finding, and
exactly they are verified.
-/
theorem clean_scrub_certifies
    (blake3 : Bytes → BlockId)
    (segment : Nat)
    (file : SegmentFile) :
    ∃ report,
      scrubSegment blake3 segment file.bytes = some report ∧
        (report.findings = [] →
          scan segment file.bytes =
              some (report.verified, file.bytes.length) ∧
            ∀ entry ∈ report.verified,
              blake3 (payloadAt file.bytes entry.2.offset
                entry.2.payloadLen) = entry.1) ∧
        ∀ payloads,
          file.bytes = encodeAll blake3 payloads →
          report.findings = [] ∧
            report.verified = locateFrom blake3 segment 0 payloads := by
  obtain ⟨report, scrubbed⟩ :=
    scrubFrom_ends blake3 segment file.length_lt
      (show file.bytes.length - 0 < file.bytes.length + 1 by omega)
  refine ⟨report, scrubbed, ?_, ?_⟩
  · intro clean
    exact scanFrom_of_clean segment file.length_lt (Nat.zero_le _) scrubbed
      clean
  · intro payloads shape
    have enough : payloads.length < file.bytes.length + 1 := by
      have recordBytes :=
        length_le_encodeRecords (payloads.map (StoredRecord.of blake3))
      rw [← encodeAll_eq, List.length_map, ← shape] at recordBytes
      omega
    have records : scrubFrom blake3 segment file.bytes
        (file.bytes.length + 1) 0 = _ :=
      scrubFrom_encodeAll segment
        (show file.bytes = [] ++ encodeAll blake3 payloads from shape) enough
    obtain rfl := Option.some.inj (scrubbed.symm.trans records)
    exact ⟨rfl, rfl⟩

end KalpakDb.Scrub
