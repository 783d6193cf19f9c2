import KalpakDb.BlockStore

namespace KalpakDb

/-!
# The scan of arbitrary bytes

The scan takes the length of a payload from the disk and adds to it without a
check.  As long as the sums are words, it ends, and what it reports are
records one after the other inside the file.  A length near the largest word
makes the sum wrap around: the scan may then stay where it is.
-/

/-- The length of a record, as a natural number. -/
def exactLen (payloadLen : Nat) : Nat :=
  (headerLen + payloadLen + (blockAlign - 1)) / blockAlign * blockAlign

/-- The header at an offset, if a record may start there. -/
def headerAt (bytes : Bytes) (offset : Nat) : Option RecordHeader :=
  if offset + headerLen ≤ bytes.length then
    parseHeader ((bytes.drop offset).take headerLen)
  else
    none

/-- The offsets that the scan comes to. -/
inductive Visits (bytes : Bytes) : Nat → Prop where
  | start : Visits bytes 0
  | next
      {offset next : Nat}
      {record : RecordHeader}
      (visits : Visits bytes offset)
      (step : scanStep bytes offset = some (record, next)) :
      Visits bytes next

/-- No addition or multiplication at an offset leaves the range of words. -/
structure StepFits (bytes : Bytes) (offset : Nat) : Prop where
  header : offset + headerLen < 2 ^ 64
  record :
    ∀ record,
      headerAt bytes offset = some record →
      headerLen + record.payloadLen < 2 ^ 64 ∧
        exactLen record.payloadLen < 2 ^ 64 ∧
        offset + recordLen record.payloadLen < 2 ^ 64

/-- Records one after the other, from an offset up to another one. -/
def Contiguous
    (segment : Nat) :
    Nat → List (BlockId × Location) → Nat → Prop
  | offset, [], tail => tail = offset
  | offset, entry :: rest, tail =>
      entry.2.segment = segment ∧ entry.2.offset = offset ∧
        Contiguous segment (offset + exactLen entry.2.payloadLen) rest tail

/-- Aligned records one after the other that lie entirely inside a file. -/
structure RecordsInside
    (segment : Nat)
    (bytes : Bytes)
    (offset : Nat)
    (located : List (BlockId × Location))
    (tail : Nat) : Prop where
  contiguous : Contiguous segment offset located tail
  tail_le : tail ≤ bytes.length
  aligned : ∀ entry ∈ located, entry.2.offset % blockAlign = 0
  inside :
    ∀ entry ∈ located,
      entry.2.offset + exactLen entry.2.payloadLen ≤ bytes.length

/--
The scan ends without an overflow, its records are in the file, and reading
one of them allocates no more than the file is long.
-/
structure ScanSafe (segment : Nat) (bytes : Bytes) : Prop where
  fits : ∀ offset, Visits bytes offset → StepFits bytes offset
  ends :
    ∃ located tail,
      scan segment bytes = some (located, tail) ∧
        RecordsInside segment bytes 0 located tail ∧
        ∀ entry ∈ located, entry.2.payloadLen ≤ bytes.length

/-- The offsets of the complete records and of what is behind them. -/
inductive Reached (bytes : Bytes) : Nat → Prop where
  | start : Reached bytes 0
  | next
      {offset : Nat}
      {record : RecordHeader}
      (reached : Reached bytes offset)
      (found : headerAt bytes offset = some record)
      (complete :
        offset + exactLen record.payloadLen ≤ bytes.length) :
      Reached bytes (offset + exactLen record.payloadLen)

/-- The records of a file end at words, also the last, incomplete one. -/
def LengthsFit (bytes : Bytes) : Prop :=
  ∀ offset record,
    Reached bytes offset →
    headerAt bytes offset = some record →
    offset + exactLen record.payloadLen < 2 ^ 64

/-! ## Lengths -/

theorem exactLen_bounds (payloadLen : Nat) :
    headerLen + payloadLen ≤ exactLen payloadLen ∧
      4096 ≤ exactLen payloadLen ∧
      exactLen payloadLen % blockAlign = 0 := by
  unfold exactLen headerLen blockAlign
  omega

theorem recordLen_eq_exactLen
    {payloadLen : Nat}
    (fits : exactLen payloadLen < 2 ^ 64) :
    recordLen payloadLen = exactLen payloadLen := by
  unfold recordLen
  unfold exactLen headerLen blockAlign at *
  dsimp only
  omega

section Scan

variable {bytes : Bytes} {offset : Nat}

theorem scanStep_none
    (absent : headerAt bytes offset = none) :
    scanStep bytes offset = none := by
  unfold headerAt at absent
  unfold scanStep
  split
  · rename_i whole
    rw [if_pos whole] at absent
    rw [absent]
  · rfl

theorem scanStep_some
    {record : RecordHeader}
    (found : headerAt bytes offset = some record) :
    scanStep bytes offset =
      if (offset + recordLen record.payloadLen) % 2 ^ 64 > bytes.length then
        none
      else
        some (record, (offset + recordLen record.payloadLen) % 2 ^ 64) := by
  unfold headerAt at found
  unfold scanStep
  split at found
  · rename_i whole
    rw [if_pos whole, found]
  · cases found

/-- Without an overflow the scan steps over exactly the record. -/
theorem scanStep_fits
    {record : RecordHeader}
    (found : headerAt bytes offset = some record)
    (fits : offset + exactLen record.payloadLen < 2 ^ 64) :
    scanStep bytes offset =
      if offset + exactLen record.payloadLen > bytes.length then
        none
      else
        some (record, offset + exactLen record.payloadLen) := by
  rw [scanStep_some found, recordLen_eq_exactLen (by omega),
    Nat.mod_eq_of_lt fits]

/-- Where the sums are words, the scan comes to the records. -/
theorem Reached.visits
    (fits : ∀ offset, Visits bytes offset → StepFits bytes offset)
    (reached : Reached bytes offset) :
    Visits bytes offset := by
  induction reached with
  | start =>
      exact .start
  | @next offset record _ found complete inductionHypothesis =>
      obtain ⟨-, small, sum⟩ :=
        (fits _ inductionHypothesis).record _ found
      rw [recordLen_eq_exactLen small] at sum
      have step : scanStep bytes offset =
          some (record, offset + exactLen record.payloadLen) := by
        rw [scanStep_fits found sum, if_neg (not_lt.mpr complete)]
      exact .next inductionHypothesis step

/-- Where the records end at words, the scan comes to nothing else. -/
theorem Visits.reached
    (lengths : LengthsFit bytes)
    (visits : Visits bytes offset) :
    Reached bytes offset := by
  induction visits with
  | start =>
      exact .start
  | @next offset next record _ step inductionHypothesis =>
      cases found : headerAt bytes offset with
      | none =>
          rw [scanStep_none found] at step
          cases step
      | some other =>
          rw [scanStep_fits found
            (lengths _ _ inductionHypothesis found)] at step
          split at step
          · cases step
          · rename_i complete
            cases step
            exact .next inductionHypothesis found (not_lt.mp complete)

theorem Reached.le_length
    (reached : Reached bytes offset) :
    offset ≤ bytes.length ∧ offset % blockAlign = 0 := by
  induction reached with
  | start =>
      exact ⟨Nat.zero_le _, rfl⟩
  | @next offset record _ _ complete inductionHypothesis =>
      obtain ⟨-, -, aligned⟩ := exactLen_bounds record.payloadLen
      refine ⟨complete, ?_⟩
      rw [Nat.add_mod, inductionHypothesis.2, aligned]
      rfl

/-- Where the scan stops there are no more records. -/
theorem scanFrom_stops
    (segment fuel : Nat)
    (inside : offset ≤ bytes.length)
    (stopped : scanStep bytes offset = none) :
    scanFrom segment bytes (fuel + 1) offset = some ([], offset) ∧
      RecordsInside segment bytes offset [] offset := by
  refine ⟨by rw [scanFrom, stopped], rfl, inside, ?_, ?_⟩
  · exact fun _ member => absurd member List.not_mem_nil
  · exact fun _ member => absurd member List.not_mem_nil

/-- From a record on, the scan ends with the records that follow. -/
theorem scanFrom_of_lengthsFit
    (segment : Nat)
    (lengths : LengthsFit bytes)
    (reached : Reached bytes offset)
    {fuel : Nat}
    (enough : bytes.length - offset < fuel) :
    ∃ located tail,
      scanFrom segment bytes fuel offset = some (located, tail) ∧
        RecordsInside segment bytes offset located tail := by
  induction fuel generalizing offset with
  | zero =>
      exact absurd enough (Nat.not_lt_zero _)
  | succ fuel inductionHypothesis =>
      obtain ⟨inside, aligned⟩ := reached.le_length
      cases found : headerAt bytes offset with
      | none =>
          exact ⟨_, _, scanFrom_stops segment fuel inside
            (scanStep_none found)⟩
      | some record =>
          have step := scanStep_fits found (lengths _ _ reached found)
          by_cases complete :
              offset + exactLen record.payloadLen ≤ bytes.length
          · rw [if_neg (not_lt.mpr complete)] at step
            obtain ⟨-, positive, -⟩ := exactLen_bounds record.payloadLen
            obtain ⟨located, tail, scanned, records⟩ :=
              inductionHypothesis (.next reached found complete)
                (show bytes.length - (offset + exactLen record.payloadLen) <
                  fuel by omega)
            refine ⟨(record.id, {
                segment := segment
                offset := offset
                payloadLen := record.payloadLen }) :: located, tail, ?_,
              ⟨rfl, rfl, records.contiguous⟩, records.tail_le, ?_, ?_⟩
            · rw [scanFrom, step]
              dsimp only
              rw [scanned]
              rfl
            · exact List.forall_mem_cons.mpr ⟨aligned, records.aligned⟩
            · exact List.forall_mem_cons.mpr ⟨complete, records.inside⟩
          · exact ⟨_, _, scanFrom_stops segment fuel inside
              (step.trans (if_pos (not_le.mp complete)))⟩

end Scan

/-- The scan is safe exactly on the files whose lengths fit. -/
theorem scan_safe_iff (segment : Nat) (file : SegmentFile) :
    ScanSafe segment file.bytes ↔ LengthsFit file.bytes := by
  constructor
  · intro safe offset record reached found
    have visits := reached.visits safe.fits
    obtain ⟨-, small, sum⟩ := (safe.fits offset visits).record record found
    rwa [recordLen_eq_exactLen small] at sum
  · intro lengths
    constructor
    · intro offset visits
      have reached := visits.reached lengths
      have inside := reached.le_length.1
      have bounded := file.length_lt
      refine ⟨by unfold headerLen; omega, ?_⟩
      intro record found
      have fits := lengths offset record reached found
      obtain ⟨larger, -, -⟩ := exactLen_bounds record.payloadLen
      rw [recordLen_eq_exactLen (by omega)]
      exact ⟨by omega, by omega, fits⟩
    · obtain ⟨located, tail, scanned, records⟩ :=
        scanFrom_of_lengthsFit segment lengths .start
          (Nat.lt_succ_of_le (Nat.sub_le _ _))
      refine ⟨located, tail, scanned, records, ?_⟩
      intro entry member
      have inside := records.inside entry member
      obtain ⟨larger, -, -⟩ := exactLen_bounds entry.2.payloadLen
      omega

/-- A header that announces all the bytes that words can count. -/
def endlessSegment : SegmentFile :=
  ⟨encodeHeader (.filled 7) (2 ^ 64 - 64), by decide +kernel⟩

/-- A file of one record. -/
def singleSegment : SegmentFile :=
  ⟨encodeRecord (.filled 7) [1], by decide +kernel⟩

/-- The scan of a file of one record is safe. -/
theorem scan_safe_single : ScanSafe 0 singleSegment.bytes := by
  have first : headerAt singleSegment.bytes 0 =
      some ⟨.filled 7, 1⟩ := by
    decide +kernel
  have behind : headerAt singleSegment.bytes 4096 = none := by
    decide +kernel
  refine (scan_safe_iff 0 singleSegment).mpr ?_
  have offsets : ∀ offset, Reached singleSegment.bytes offset →
      offset = 0 ∨ offset = 4096 := by
    intro offset reached
    induction reached with
    | start =>
        exact .inl rfl
    | next _ found _ inductionHypothesis =>
        rcases inductionHypothesis with rfl | rfl
        · cases first.symm.trans found
          exact .inr (by decide)
        · cases behind.symm.trans found
  intro offset record reached found
  rcases offsets offset reached with rfl | rfl
  · cases first.symm.trans found
    decide
  · cases behind.symm.trans found

/--
The length of the record wraps around to zero: the scan reports a record of
nearly all words can count, stays where it is, and does not end.
-/
theorem endless_scan :
    scanStep endlessSegment.bytes 0 =
        some (⟨.filled 7, 2 ^ 64 - 64⟩, 0) ∧
      scan 0 endlessSegment.bytes = none := by
  decide +kernel

end KalpakDb
