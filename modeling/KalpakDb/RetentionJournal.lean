import KalpakDb.Retention

namespace KalpakDb.Retention

/-!
# Recovery of the retention journal

Batches of guards, failed writes, crashes in the middle of a record and
reopens make up a history.  A ghost list has the records that reached the
journal completely; replaying the journal recovers exactly them.
-/

open Std (ExtTreeMap ExtTreeSet)
open ByteCodec (leBytes leValue length_leBytes leValue_leBytes)

/-- The journal, and the process that has it open. -/
structure Host where
  file : Bytes := []
  process : Option Process := none

inductive Event where
  | call (call : Call)
  | crash (ids : List BlockId) (order : SetOrder) (written : Nat)
  | reopen

/-- Whether all bytes of a record reach the journal. -/
def JournalWrite.completes : JournalWrite → Nat → Bool
  | .succeeds, _ => true
  | .fails written, size => size ≤ written

/-- The record of a batch, if the batch is admitted and all of it is written. -/
def completed
    (host : Host)
    (ids : List BlockId)
    (order : SetOrder)
    (write : JournalWrite) : Option (List BlockId) :=
  match host.process with
  | none => none
  | some process =>
      match admission order process.state ids with
      | .ok (id :: rest) =>
          if write.completes (recordSize (rest.length + 1)) then
            some (id :: rest)
          else
            none
      | _ => none

/-- The record that an event completes. -/
def recorded? (host : Host) : Event → Option (List BlockId)
  | .call (.protect ids order write) => completed host ids order write
  | .crash ids order written => completed host ids order (.fails written)
  | _ => none

/-- A host, and the records that have reached its journal completely. -/
structure History where
  host : Host := {}
  records : List (List BlockId) := []

section Steps

variable (blake3 : Bytes → BlockId)

def stepHost (host : Host) : Event → Host
  | .call call =>
      match host.process with
      | none => host
      | some process =>
          match process.call blake3 host.file call with
          | none => { host with process := none }
          | some (process, file) => ⟨file, some process⟩
  | .crash ids order written =>
      match host.process with
      | none => host
      | some process =>
          ⟨(protect blake3 order (.fails written) process.state host.file
            ids).2.2, none⟩
  | .reopen =>
      match openJournal blake3 host.file with
      | .error _ => { host with process := none }
      | .ok (state, file) => ⟨file, some ⟨state, [], []⟩⟩

def step (history : History) (event : Event) : History :=
  { host := stepHost blake3 history.host event
    records := history.records ++ (recorded? history.host event).toList }

/-- The bytes of records, numbered from a sequence number on. -/
def encodeRecords : Nat → List (List BlockId) → Bytes
  | _, [] => []
  | next, ids :: rest =>
      encodeRecord blake3 next ids ++ encodeRecords (next + 1) rest

end Steps

/-- The number of the last record that names an identifier. -/
def IsGeneration
    (records : List (List BlockId))
    (id : BlockId)
    (generation : Nat) : Prop :=
  ∃ earlier record later,
    records = earlier ++ record :: later ∧
      id ∈ record ∧
      generation = earlier.length + 1 ∧
      ∀ other ∈ later, id ∉ other

/-! ## Records -/

section Records

variable {blake3 : Bytes → BlockId} {ids : List BlockId} {next : Nat}
  {state : State}

@[simp] theorem length_recordHead (count next : Nat) :
    (recordHead count next).length = 24 := by
  simp [recordHead, recordMagic]

@[simp] theorem length_idBytes (ids : List BlockId) :
    (idBytes ids).length = ids.length * 32 := by
  induction ids with
  | nil =>
      rfl
  | cons id ids inductionHypothesis =>
      have split : idBytes (id :: ids) = id.bytes ++ idBytes ids := rfl
      rw [split, List.length_append, inductionHypothesis, id.length_bytes,
        List.length_cons]
      omega

theorem length_encodeRecord (next : Nat) (ids : List BlockId) :
    (encodeRecord blake3 next ids).length = recordSize ids.length := by
  simp only [encodeRecord, List.length_append, length_recordHead,
    length_idBytes, BlockId.length_bytes, recordSize, headerLen]
  omega

theorem readIds_idBytes (ids : List BlockId) (rest : Bytes) :
    readIds ids.length (idBytes ids ++ rest) = ids := by
  induction ids with
  | nil =>
      rfl
  | cons id ids inductionHypothesis =>
      have split : idBytes (id :: ids) ++ rest =
          id.bytes ++ (idBytes ids ++ rest) := by
        simp [idBytes]
      rw [split, List.length_cons, readIds,
        List.take_left' id.length_bytes, BlockId.ofBytes?_bytes]
      simp only
      rw [List.drop_left' id.length_bytes, inductionHypothesis]

/-- The header of a record. -/
def recordHeader (blake3 : Bytes → BlockId) (count next : Nat) : Bytes :=
  recordHead count next ++ (blake3 (recordHead count next)).bytes

theorem length_recordHeader (count next : Nat) :
    (recordHeader blake3 count next).length = headerLen := by
  simp [recordHeader, headerLen, BlockId.length_bytes]

theorem headerIntact_recordHeader (count next : Nat) :
    headerIntact blake3 (recordHeader blake3 count next) = true := by
  have front : (recordHeader blake3 count next).take 24 =
      recordHead count next := List.take_left' (length_recordHead _ _)
  have back : (recordHeader blake3 count next).drop 24 =
      (blake3 (recordHead count next)).bytes :=
    List.drop_left' (length_recordHead _ _)
  have name : (recordHeader blake3 count next).take 8 = recordMagic := by
    simp [recordHeader, recordHead, recordMagic]
  have zeros : ((recordHeader blake3 count next).drop 12).take 4 =
      [0, 0, 0, 0] := by
    simp [recordHeader, recordHead, recordMagic]
  simp [headerIntact, front, back, name, zeros]

theorem count_recordHeader
    {count : Nat}
    (fits : count ≤ maxBatch)
    (next : Nat) :
    leValue (((recordHeader blake3 count next).drop 8).take 4) = count := by
  have field : ((recordHeader blake3 count next).drop 8).take 4 =
      leBytes 4 count := by
    simp [recordHeader, recordHead, recordMagic]
  rw [field, leValue_leBytes]
  unfold maxBatch at fits
  omega

theorem next_recordHeader
    (count : Nat)
    (fits : next < 2 ^ 64) :
    leValue (((recordHeader blake3 count next).drop 16).take 8) = next := by
  have past : (leBytes 4 count).drop 8 = [] :=
    List.drop_eq_nil_of_le (by simp)
  have field : ((recordHeader blake3 count next).drop 16).take 8 =
      leBytes 8 next := by
    simp [recordHeader, recordHead, recordMagic, List.drop_append, past]
  rw [field, leValue_leBytes]
  omega

/-- A record that a process may write next. -/
structure Writable (state : State) (ids : List BlockId) : Prop where
  nonempty : ids ≠ []
  bounded : ids.length ≤ maxBatch
  numbered : state.sequence + 1 < 2 ^ 64

/-- The state after a record has been replayed. -/
def State.replayed (state : State) (ids : List BlockId) : State :=
  { state with
    ids := FiniteMap.insertAll state.ids ids (state.sequence + 1)
    sequence := state.sequence + 1
    bytes := state.bytes + recordSize ids.length }

theorem Writable.count_pos
    (writable : Writable state ids) :
    1 ≤ ids.length :=
  List.length_pos_of_ne_nil writable.nonempty

theorem encodeRecord_eq (next : Nat) (ids : List BlockId) :
    encodeRecord blake3 next ids =
      recordHeader blake3 ids.length next ++
        (idBytes ids ++ (blake3 (idBytes ids)).bytes) := rfl

/-- A complete record is replayed. -/
theorem replay_record
    (writable : Writable state ids)
    (fits :
      (FiniteMap.insertAll state.ids ids (state.sequence + 1)).size ≤ maxIds)
    (fuel : Nat)
    (rest : Bytes) :
    replay blake3 (fuel + 1)
        (encodeRecord blake3 (state.sequence + 1) ids ++ rest) state =
      replay blake3 fuel rest (state.replayed ids) := by
  have header : (encodeRecord blake3 (state.sequence + 1) ids ++ rest).take
      headerLen = recordHeader blake3 ids.length (state.sequence + 1) := by
    rw [encodeRecord_eq, List.append_assoc]
    exact List.take_left' (length_recordHeader _ _)
  have behind : (encodeRecord blake3 (state.sequence + 1) ids ++ rest).drop
      headerLen = idBytes ids ++ (blake3 (idBytes ids)).bytes ++ rest := by
    rw [encodeRecord_eq, List.append_assoc]
    exact List.drop_left' (length_recordHeader _ _)
  have bodyLen : (idBytes ids ++ (blake3 (idBytes ids)).bytes).length =
      ids.length * 32 + 32 := by
    rw [List.length_append, length_idBytes, BlockId.length_bytes]
  have after : (encodeRecord blake3 (state.sequence + 1) ids ++ rest).drop
      (headerLen + (ids.length * 32 + 32)) = rest := by
    rw [← List.drop_drop, behind, ← bodyLen, List.drop_left]
  have long : ¬ (encodeRecord blake3 (state.sequence + 1) ids ++ rest).length <
      headerLen := by
    rw [List.length_append, length_encodeRecord, recordSize]
    omega
  have complete : ¬ (idBytes ids ++ (blake3 (idBytes ids)).bytes ++
      rest).length < ids.length * 32 + 32 := by
    rw [List.length_append, bodyLen]
    omega
  have body : (idBytes ids ++ (blake3 (idBytes ids)).bytes ++ rest).take
      (ids.length * 32 + 32) = idBytes ids ++ (blake3 (idBytes ids)).bytes :=
    List.take_left' bodyLen
  have named : (idBytes ids ++ (blake3 (idBytes ids)).bytes).take
      (ids.length * 32) = idBytes ids := List.take_left' (length_idBytes ids)
  have digest : (idBytes ids ++ (blake3 (idBytes ids)).bytes).drop
      (ids.length * 32) = (blake3 (idBytes ids)).bytes :=
    List.drop_left' (length_idBytes ids)
  rw [replay, if_neg long]
  simp only [header, headerIntact_recordHeader, if_true,
    count_recordHeader writable.bounded,
    next_recordHeader ids.length writable.numbered, writable.count_pos,
    writable.bounded, writable.numbered, and_self, behind, complete, if_false,
    body, named, digest, readIds_idBytes, not_lt.mpr fits, after]
  congr 1

/-- A record that is not complete ends the journal. -/
theorem replay_torn
    (writable : Writable state ids)
    {torn : Bytes}
    (part : torn <+: encodeRecord blake3 (state.sequence + 1) ids)
    (strict : torn.length < recordSize ids.length)
    (fuel : Nat) :
    replay blake3 (fuel + 1) torn state = .ok state := by
  by_cases short : torn.length < headerLen
  · rw [replay, if_pos short]
  · obtain ⟨missing, whole⟩ := part
    have header : torn.take headerLen =
        recordHeader blake3 ids.length (state.sequence + 1) := by
      have front := congrArg (List.take headerLen) whole
      rw [List.take_append_of_le_length (not_lt.mp short), encodeRecord_eq,
        List.take_left' (length_recordHeader _ _)] at front
      exact front
    have incomplete : (torn.drop headerLen).length < ids.length * 32 + 32 := by
      rw [List.length_drop]
      unfold recordSize at strict
      omega
    rw [replay, if_neg short]
    simp only [header, headerIntact_recordHeader, if_true,
      count_recordHeader writable.bounded,
      next_recordHeader ids.length writable.numbered, writable.count_pos,
      writable.bounded, writable.numbered, and_self, incomplete]

end Records

/-! ## Journals of complete records -/

/-- Records that a process may have written, and the state they recover. -/
inductive Journal : List (List BlockId) → State → Prop where
  | nil : Journal [] {}
  | snoc
      {records : List (List BlockId)}
      {state : State}
      {ids : List BlockId}
      (journal : Journal records state)
      (writable : Writable state ids)
      (fits :
        (FiniteMap.insertAll state.ids ids (state.sequence + 1)).size ≤
          maxIds) :
      Journal (records ++ [ids]) (state.replayed ids)

section Journals

variable {blake3 : Bytes → BlockId} {records : List (List BlockId)}
  {state : State} {ids : List BlockId}

theorem encodeRecords_concat
    (next : Nat)
    (records : List (List BlockId))
    (ids : List BlockId) :
    encodeRecords blake3 next (records ++ [ids]) =
      encodeRecords blake3 next records ++
        encodeRecord blake3 (next + records.length) ids := by
  induction records generalizing next with
  | nil =>
      simp [encodeRecords]
  | cons first rest inductionHypothesis =>
      rw [List.cons_append, encodeRecords, inductionHypothesis, encodeRecords,
        List.append_assoc, List.length_cons, Nat.add_right_comm,
        ← Nat.add_assoc]

theorem Journal.sequence_eq
    (journal : Journal records state) :
    state.sequence = records.length := by
  induction journal with
  | nil =>
      rfl
  | snoc journal writable fits inductionHypothesis =>
      simp [State.replayed, inductionHypothesis]

/-- The bytes of the journal with one more record. -/
theorem Journal.encode_concat
    (journal : Journal records state)
    (ids : List BlockId) :
    encodeRecords blake3 1 (records ++ [ids]) =
      encodeRecords blake3 1 records ++
        encodeRecord blake3 (state.sequence + 1) ids := by
  rw [encodeRecords_concat, journal.sequence_eq, Nat.add_comm]

theorem Journal.bytes_eq
    (journal : Journal records state) :
    state.bytes = (encodeRecords blake3 1 records).length := by
  induction journal with
  | nil =>
      rfl
  | snoc journal writable fits inductionHypothesis =>
      rw [journal.encode_concat, List.length_append, length_encodeRecord,
        ← inductionHypothesis]
      rfl

theorem Journal.length_le
    (journal : Journal records state) :
    records.length ≤ (encodeRecords blake3 1 records).length := by
  induction journal with
  | nil =>
      exact le_refl _
  | snoc journal writable fits inductionHypothesis =>
      rw [journal.encode_concat, List.length_append, List.length_append,
        length_encodeRecord, recordSize, headerLen, List.length_singleton]
      omega

/-- The generation of an identifier is the last record that names it. -/
theorem Journal.generation_iff
    (journal : Journal records state)
    (id : BlockId)
    (generation : Nat) :
    state.ids[id]? = some generation ↔ IsGeneration records id generation := by
  induction journal with
  | nil =>
      simp [IsGeneration]
  | @snoc records state ids journal writable fits inductionHypothesis =>
      have found : (state.replayed ids).ids[id]? =
          if id ∈ ids then some (state.sequence + 1) else state.ids[id]? :=
        FiniteMap.getElem?_insertAll _ _ _ _
      rw [found]
      by_cases named : id ∈ ids
      · rw [if_pos named, journal.sequence_eq]
        constructor
        · rintro ⟨⟩
          exact ⟨records, ids, [], rfl, named, rfl, by simp⟩
        · rintro ⟨earlier, record, later, split, inside, rfl, unnamed⟩
          rcases List.eq_nil_or_concat' later with rfl | ⟨front, last, rfl⟩
          · have lengths := congrArg List.length split
            simp at lengths
            rw [lengths]
          · rw [← List.cons_append, ← List.append_assoc] at split
            obtain ⟨_, same⟩ := List.append_inj' split rfl
            cases same
            exact absurd named (unnamed ids (by simp))
      · rw [if_neg named, inductionHypothesis]
        constructor
        · rintro ⟨earlier, record, later, rfl, inside, rfl, unnamed⟩
          refine ⟨earlier, record, later ++ [ids], by simp, inside, rfl, ?_⟩
          intro other member
          rcases List.mem_append.mp member with old | new
          · exact unnamed other old
          · exact List.mem_singleton.mp new ▸ named
        · rintro ⟨earlier, record, later, split, inside, rfl, unnamed⟩
          rcases List.eq_nil_or_concat' later with rfl | ⟨front, last, rfl⟩
          · obtain ⟨_, same⟩ := List.append_inj' split rfl
            cases same
            exact absurd inside named
          · rw [← List.cons_append, ← List.append_assoc] at split
            obtain ⟨rfl, _⟩ := List.append_inj' split rfl
            exact ⟨earlier, record, front, rfl, inside, rfl,
              fun other member => unnamed other (by simp [member])⟩

theorem IsGeneration.le_length
    {id : BlockId}
    {generation : Nat}
    (isGeneration : IsGeneration records id generation) :
    generation ≤ records.length := by
  obtain ⟨earlier, record, later, rfl, _, rfl, _⟩ := isGeneration
  simp

/-- Replaying a journal recovers its records, and goes on behind them. -/
theorem Journal.replay_eq
    (journal : Journal records state)
    (fuel : Nat)
    (rest : Bytes) :
    replay blake3 (fuel + records.length)
        (encodeRecords blake3 1 records ++ rest) {} =
      replay blake3 fuel rest state := by
  induction journal generalizing fuel rest with
  | nil =>
      rfl
  | snoc journal writable fits inductionHypothesis =>
      rw [journal.encode_concat, List.append_assoc, List.length_append,
        List.length_singleton, ← Nat.add_assoc, Nat.add_right_comm,
        inductionHypothesis, replay_record writable fits]

end Journals

/-! ## The journal along a history -/

/-- The journal of a history: its records, and what follows them. -/
structure Recorded
    (blake3 : Bytes → BlockId)
    (history : History)
    (state : State)
    (torn : Bytes) : Prop where
  journal : Journal history.records state
  file : history.host.file = encodeRecords blake3 1 history.records ++ torn
  cut :
    torn = [] ∨
      ∃ ids,
        Writable state ids ∧
          torn <+: encodeRecord blake3 (state.sequence + 1) ids ∧
          torn.length < recordSize ids.length
  bounded : history.host.file.length ≤ maxBytes
  exclusive :
    ∀ process, history.host.process = some process → Exclusive process
  observed :
    ∀ process, history.host.process = some process →
      ∀ (id : BlockId) (generation : Nat),
        process.state.ids[id]? = some generation →
        generation ≤ history.records.length
  running :
    ∀ process, history.host.process = some process →
      process.state.failed = false →
      torn = [] ∧
        process.state.ids = state.ids ∧
        process.state.sequence = state.sequence ∧
        process.state.bytes = state.bytes

section Histories

variable {blake3 : Bytes → BlockId} {history : History} {state : State}
  {torn : Bytes} {process : Process} {order : SetOrder} {ids : List BlockId}
  {write : JournalWrite}

/-- Opening the journal recovers the state of its records. -/
theorem Recorded.openJournal_eq
    (recorded : Recorded blake3 history state torn) :
    openJournal blake3 history.host.file =
      .ok (state, encodeRecords blake3 1 history.records) := by
  have enough : ∃ fuel, history.host.file.length + 1 =
      (fuel + 1) + history.records.length := by
    have shorter : history.records.length ≤
        (encodeRecords blake3 1 history.records).length :=
      recorded.journal.length_le
    have total := congrArg List.length recorded.file
    rw [List.length_append] at total
    exact ⟨history.host.file.length - history.records.length, by omega⟩
  obtain ⟨fuel, enough⟩ := enough
  have replayed : replay blake3 (history.host.file.length + 1)
      history.host.file {} = .ok state := by
    rw [enough, recorded.file, recorded.journal.replay_eq]
    rcases recorded.cut with rfl | ⟨ids, writable, part, strict⟩
    · rfl
    · exact replay_torn writable part strict fuel
  have kept : history.host.file.take state.bytes =
      encodeRecords blake3 1 history.records := by
    rw [recorded.file, recorded.journal.bytes_eq, List.take_left]
  rw [openJournal, if_neg (not_lt.mpr recorded.bounded), replayed]
  simp only [kept]

theorem Recorded.reopen
    (recorded : Recorded blake3 history state torn) :
    Recorded blake3 (step blake3 history .reopen) state [] := by
  have opened := recorded.openJournal_eq
  have shape : step blake3 history .reopen =
      ⟨⟨encodeRecords blake3 1 history.records, some ⟨state, [], []⟩⟩,
        history.records⟩ := by
    simp [step, stepHost, recorded?, opened]
  have shorter : (encodeRecords blake3 1 history.records).length ≤
      maxBytes := by
    have total := congrArg List.length recorded.file
    rw [List.length_append] at total
    have bounded := recorded.bounded
    omega
  rw [shape]
  exact
    { journal := recorded.journal
      file := (List.append_nil _).symm
      cut := Or.inl rfl
      bounded := shorter
      exclusive := by
        rintro process ⟨⟩
        exact exclusive_opened (openJournal_idle opened)
      observed := by
        rintro process ⟨⟩ id generation found
        exact ((recorded.journal.generation_iff id generation).mp
          found).le_length
      running := by
        rintro process ⟨⟩ _
        exact ⟨rfl, rfl, rfl, rfl⟩ }

/-- An admitted batch is a record that may be written next. -/
theorem Recorded.admitted
    (recorded : Recorded blake3 history state torn)
    (isProcess : history.host.process = some process)
    {ids admitted : List BlockId}
    (admits : admission order process.state ids = .ok admitted)
    (nonempty : admitted ≠ []) :
    torn = [] ∧
      process.state.sequence = state.sequence ∧
      Writable state admitted ∧
      (FiniteMap.insertAll state.ids admitted (state.sequence + 1)).size ≤
        maxIds ∧
      history.host.file.length + recordSize admitted.length ≤ maxBytes := by
  have facts := admitted_of_admission admits
  obtain ⟨rfl, sameIds, sameSequence, sameBytes⟩ :=
    recorded.running process isProcess facts.running
  obtain ⟨numbered, fewer, shorter⟩ := facts.fits nonempty
  have length : admitted.length ≤ ids.length := by
    rw [facts.isRequested, requested, (order.arrange_perm _).length_eq]
    exact (List.dedup_sublist ids).length_le
  refine ⟨rfl, sameSequence, ⟨nonempty, length.trans facts.bounded, ?_⟩,
    ?_, ?_⟩
  · rw [← sameSequence]
    exact numbered
  · rw [FiniteMap.size_insertAll _ facts.nodup, ← sameIds]
    exact fewer
  · rw [recorded.file, List.append_nil,
      ← recorded.journal.bytes_eq, ← sameBytes]
    exact shorter

/-- A completed record, written by a process that goes on or ends. -/
theorem Recorded.complete
    (recorded : Recorded blake3 history state [])
    (writable : Writable state ids)
    (fits :
      (FiniteMap.insertAll state.ids ids (state.sequence + 1)).size ≤ maxIds)
    (shorter :
      history.host.file.length + recordSize ids.length ≤ maxBytes)
    (process? : Option Process)
    (exclusive : ∀ process, process? = some process → Exclusive process)
    (observed :
      ∀ process, process? = some process →
        ∀ (id : BlockId) (generation : Nat),
          process.state.ids[id]? = some generation →
          generation ≤ history.records.length + 1)
    (running :
      ∀ process, process? = some process →
        process.state.failed = false →
        process.state.ids = (state.replayed ids).ids ∧
          process.state.sequence = (state.replayed ids).sequence ∧
          process.state.bytes = (state.replayed ids).bytes) :
    Recorded blake3
      ⟨⟨history.host.file ++ encodeRecord blake3 (state.sequence + 1) ids,
        process?⟩, history.records ++ [ids]⟩
      (state.replayed ids) [] where
  journal := recorded.journal.snoc writable fits
  file := by
    rw [List.append_nil, recorded.journal.encode_concat, recorded.file,
      List.append_nil]
  cut := Or.inl rfl
  bounded := by
    rw [List.length_append, length_encodeRecord]
    exact shorter
  exclusive := exclusive
  observed := by
    intro process isProcess id generation found
    rw [List.length_append, List.length_singleton]
    exact observed process isProcess id generation found
  running := fun process isProcess unfailed =>
    ⟨rfl, running process isProcess unfailed⟩

/-- A record that was cut off, by a failure or a crash. -/
theorem Recorded.cutOff
    (recorded : Recorded blake3 history state [])
    (writable : Writable state ids)
    (shorter :
      history.host.file.length + recordSize ids.length ≤ maxBytes)
    {written : Nat}
    (strict : written < recordSize ids.length)
    (process? : Option Process)
    (exclusive : ∀ process, process? = some process → Exclusive process)
    (observed :
      ∀ process, process? = some process →
        ∀ (id : BlockId) (generation : Nat),
          process.state.ids[id]? = some generation →
          generation ≤ history.records.length)
    (failed :
      ∀ process, process? = some process → process.state.failed = true) :
    Recorded blake3
      ⟨⟨history.host.file ++
          (encodeRecord blake3 (state.sequence + 1) ids).take written,
        process?⟩, history.records⟩
      state
      ((encodeRecord blake3 (state.sequence + 1) ids).take written) where
  journal := recorded.journal
  file := by
    rw [recorded.file, List.append_nil]
  cut := by
    refine Or.inr ⟨ids, writable, List.take_prefix _ _, ?_⟩
    rw [List.length_take]
    omega
  bounded := by
    rw [List.length_append, List.length_take, length_encodeRecord]
    omega
  exclusive := exclusive
  observed := observed
  running := by
    intro process isProcess unfailed
    rw [failed process isProcess] at unfailed
    cases unfailed

/-- A record of a batch that failed, or whose process ended, while writing. -/
theorem Recorded.interrupted
    (recorded : Recorded blake3 history state torn)
    (isProcess : history.host.process = some process)
    {ids admitted : List BlockId}
    (admits : admission order process.state ids = .ok admitted)
    (nonempty : admitted ≠ [])
    (written : Nat)
    (process? : Option Process)
    (exclusive : ∀ process, process? = some process → Exclusive process)
    (stopped :
      ∀ next, process? = some next →
        next.state = { process.state with failed := true }) :
    ∃ state torn,
      Recorded blake3
        ⟨⟨history.host.file ++
            (encodeRecord blake3 (process.state.sequence + 1)
              admitted).take written,
          process?⟩,
          history.records ++
            (completed history.host ids order (.fails written)).toList⟩
        state torn := by
  obtain ⟨rfl, sequence, writable, fits, shorter⟩ :=
    recorded.admitted isProcess admits nonempty
  have observed (next : Process) (isNext : process? = some next)
      (id : BlockId) (generation : Nat)
      (found : next.state.ids[id]? = some generation) :
      generation ≤ history.records.length := by
    rw [stopped next isNext] at found
    exact recorded.observed process isProcess id generation found
  have isCompleted : completed history.host ids order (.fails written) =
      if recordSize admitted.length ≤ written then some admitted
      else none := by
    cases admitted with
    | nil =>
        exact absurd rfl nonempty
    | cons id rest =>
        simp [completed, isProcess, admits, JournalWrite.completes]
  rw [isCompleted, sequence]
  by_cases whole : recordSize admitted.length ≤ written
  · rw [if_pos whole, List.take_of_length_le (by
      rw [length_encodeRecord]; exact whole)]
    refine ⟨_, _, recorded.complete writable fits shorter process? exclusive
      (fun next isNext id generation found =>
        (observed next isNext id generation found).trans (Nat.le_succ _)) ?_⟩
    intro next isNext unfailed
    rw [stopped next isNext] at unfailed
    cases unfailed
  · rw [if_neg whole, Option.toList_none, List.append_nil]
    refine ⟨_, _, recorded.cutOff writable shorter (not_le.mp whole) process?
      exclusive observed ?_⟩
    intro next isNext
    rw [stopped next isNext]

/-- The same journal under a process that has only moved its guards. -/
theorem Recorded.withProcess
    (recorded : Recorded blake3 history state torn)
    {process next : Process}
    (isProcess : history.host.process = some process)
    (exclusive : Exclusive next)
    (ids : next.state.ids = process.state.ids)
    (sequence : next.state.sequence = process.state.sequence)
    (bytes : next.state.bytes = process.state.bytes)
    (failed : next.state.failed = process.state.failed) :
    Recorded blake3
      ⟨⟨history.host.file, some next⟩, history.records⟩ state torn where
  journal := recorded.journal
  file := recorded.file
  cut := recorded.cut
  bounded := recorded.bounded
  exclusive := by
    rintro other ⟨⟩
    exact exclusive
  observed := by
    rintro other ⟨⟩
    rw [ids]
    exact recorded.observed process isProcess
  running := by
    rintro other ⟨⟩ unfailed
    rw [failed] at unfailed
    rw [ids, sequence, bytes]
    exact recorded.running process isProcess unfailed

theorem Recorded.crash
    (recorded : Recorded blake3 history state torn)
    (ids : List BlockId)
    (order : SetOrder)
    (written : Nat) :
    ∃ state torn,
      Recorded blake3 (step blake3 history (.crash ids order written))
        state torn := by
  have stopped : Recorded blake3 ⟨⟨history.host.file, none⟩, history.records⟩
      state torn :=
    { recorded with
      exclusive := by rintro _ ⟨⟩
      observed := by rintro _ ⟨⟩
      running := by rintro _ ⟨⟩ }
  cases isProcess : history.host.process with
  | none =>
      have same : step blake3 history (.crash ids order written) = history := by
        simp [step, stepHost, recorded?, completed, isProcess]
      rw [same]
      exact ⟨state, torn, recorded⟩
  | some process =>
      rcases protect_cases blake3 order (.fails written) process.state
          history.host.file ids with
        ⟨error, _, admits, result⟩ | ⟨admits, result⟩ |
        ⟨admitted, admits, nonempty, ⟨impossible, _⟩ | ⟨bytes, same, result⟩⟩
      · refine ⟨state, torn, ?_⟩
        simpa [step, stepHost, recorded?, completed, isProcess, result, admits]
          using stopped
      · refine ⟨state, torn, ?_⟩
        simpa [step, stepHost, recorded?, completed, isProcess, result, admits]
          using stopped
      · cases impossible
      · cases same
        obtain ⟨next, rest, interrupted⟩ :=
          recorded.interrupted isProcess admits nonempty written none
            (by rintro _ ⟨⟩) (by rintro _ ⟨⟩)
        refine ⟨next, rest, ?_⟩
        simpa [step, stepHost, recorded?, isProcess, result] using interrupted

theorem completed_of_admission
    {host : Host}
    (isProcess : host.process = some process)
    {ids admitted : List BlockId}
    (admits : admission order process.state ids = .ok admitted)
    (nonempty : admitted ≠ []) :
    completed host ids order .succeeds = some admitted := by
  cases admitted with
  | nil =>
      exact absurd rfl nonempty
  | cons id rest =>
      simp [completed, isProcess, admits, JournalWrite.completes]

theorem Recorded.protect
    (recorded : Recorded blake3 history state torn)
    (ids : List BlockId)
    (order : SetOrder)
    (write : JournalWrite) :
    ∃ state torn,
      Recorded blake3
        (step blake3 history (.call (.protect ids order write)))
        state torn := by
  cases isProcess : history.host.process with
  | none =>
      have same : step blake3 history (.call (.protect ids order write)) =
          history := by
        simp [step, stepHost, recorded?, completed, isProcess]
      rw [same]
      exact ⟨state, torn, recorded⟩
  | some process =>
      have exclusive := recorded.exclusive process isProcess
      rcases protect_cases blake3 order write process.state
          history.host.file ids with
        ⟨error, _, admits, result⟩ | ⟨admits, result⟩ |
        ⟨admitted, admits, nonempty, ⟨rfl, result⟩ | ⟨written, rfl, result⟩⟩
      · refine ⟨state, torn, ?_⟩
        have same := recorded.withProcess isProcess exclusive rfl rfl rfl rfl
        simpa [step, stepHost, Process.call, recorded?, completed, isProcess,
          result, admits] using same
      · refine ⟨state, torn, ?_⟩
        have same := recorded.withProcess isProcess exclusive.unguarded rfl
          rfl rfl rfl
        simpa [step, stepHost, Process.call, recorded?, completed, isProcess,
          result, admits] using same
      · obtain ⟨rfl, sequence, writable, fits, shorter⟩ :=
          recorded.admitted isProcess admits nonempty
        obtain ⟨_, sameIds, _, sameBytes⟩ := recorded.running process isProcess
          (admitted_of_admission admits).running
        have guarded := exclusive.guarded (admitted_of_admission admits)
        have isCompleted := completed_of_admission isProcess admits nonempty
        have committed : process.state.commit admitted =
            { process.state with
              ids := (state.replayed admitted).ids
              sequence := (state.replayed admitted).sequence
              bytes := (state.replayed admitted).bytes
              active := enter process.state.active admitted } := by
          simp [State.commit, State.replayed, sameIds, sequence, sameBytes]
        refine ⟨state.replayed admitted, [], ?_⟩
        have complete := recorded.complete writable fits shorter
          (some { process with
            state := process.state.commit admitted
            guards := process.guards ++ [admitted] })
          (by rintro _ ⟨⟩; exact guarded)
          (by
            rintro _ ⟨⟩ id generation found
            rw [committed] at found
            have journal := recorded.journal.snoc writable fits
            have bound := ((journal.generation_iff id generation).mp
              found).le_length
            simpa using bound)
          (by
            rintro _ ⟨⟩ _
            rw [committed]
            exact ⟨rfl, rfl, rfl⟩)
        simpa [step, stepHost, Process.call, recorded?, isProcess, result,
          isCompleted, sequence] using complete
      · have failed : Exclusive
            { process with state := { process.state with failed := true } } :=
          ⟨exclusive.distinct, exclusive.counted, exclusive.checked,
            exclusive.single, exclusive.apart, exclusive.current⟩
        obtain ⟨next, rest, interrupted⟩ :=
          recorded.interrupted isProcess admits nonempty written
            (some { process with
              state := { process.state with failed := true } })
            (by rintro _ ⟨⟩; exact failed) (by rintro _ ⟨⟩; rfl)
        refine ⟨next, rest, ?_⟩
        simpa [step, stepHost, Process.call, recorded?, isProcess, result]
          using interrupted

/-- The other calls leave the journal and what it says. -/
theorem Process.call_keeps
    {process next : Process}
    {file after : Bytes}
    {call : Call}
    (called : process.call blake3 file call = some (next, after))
    (other : ∀ ids order write, call ≠ .protect ids order write) :
    after = file ∧
      next.state.ids = process.state.ids ∧
      next.state.sequence = process.state.sequence ∧
      next.state.bytes = process.state.bytes ∧
      next.state.failed = process.state.failed := by
  cases call with
  | protect ids order write =>
      exact absurd rfl (other ids order write)
  | tryReleaseCheck id generation =>
      rw [Process.call] at called
      cases checks : tryReleaseCheck process.state id generation with
      | error error =>
          rw [checks] at called
          cases called
          exact ⟨rfl, rfl, rfl, rfl, rfl⟩
      | ok state =>
          rw [checks] at called
          cases called
          unfold tryReleaseCheck at checks
          split_ifs at checks
          cases checks
          exact ⟨rfl, rfl, rfl, rfl, rfl⟩
  | dropGuard position =>
      rw [Process.call] at called
      split at called
      · cases called
        exact ⟨rfl, rfl, rfl, rfl, rfl⟩
      · split at called
        · cases called
        · cases called
          exact ⟨rfl, rfl, rfl, rfl, rfl⟩
  | dropCheck position =>
      rw [Process.call] at called
      split at called
      · cases called
        exact ⟨rfl, rfl, rfl, rfl, rfl⟩
      · cases called
        exact ⟨rfl, rfl, rfl, rfl, rfl⟩

theorem Recorded.otherCall
    (recorded : Recorded blake3 history state torn)
    {call : Call}
    (other : ∀ ids order write, call ≠ .protect ids order write) :
    Recorded blake3 (step blake3 history (.call call)) state torn := by
  have unrecorded : recorded? history.host (.call call) = none := by
    cases call with
    | protect ids order write =>
        exact absurd rfl (other ids order write)
    | tryReleaseCheck id generation =>
        rfl
    | dropGuard position =>
        rfl
    | dropCheck position =>
        rfl
  rw [step, unrecorded, Option.toList_none, List.append_nil]
  cases isProcess : history.host.process with
  | none =>
      simpa [stepHost, isProcess] using recorded
  | some process =>
      obtain ⟨⟨next, after⟩, called, exclusive⟩ :
          ∃ next,
            process.call blake3 history.host.file call = some next ∧
              Exclusive next.1 :=
        (recorded.exclusive process isProcess).call _ _
      obtain ⟨rfl, ids, sequence, bytes, failed⟩ :=
        Process.call_keeps called other
      have moved := recorded.withProcess isProcess exclusive ids sequence
        bytes failed
      simpa [stepHost, isProcess, called] using moved

theorem Recorded.step
    (recorded : Recorded blake3 history state torn)
    (event : Event) :
    ∃ state torn, Recorded blake3 (step blake3 history event) state torn := by
  cases event with
  | call call =>
      cases call with
      | protect ids order write =>
          exact recorded.protect ids order write
      | tryReleaseCheck id generation =>
          exact ⟨state, torn, recorded.otherCall (by simp)⟩
      | dropGuard position =>
          exact ⟨state, torn, recorded.otherCall (by simp)⟩
      | dropCheck position =>
          exact ⟨state, torn, recorded.otherCall (by simp)⟩
  | crash ids order written =>
      exact recorded.crash ids order written
  | reopen =>
      exact ⟨state, [], recorded.reopen⟩

theorem recorded_start : Recorded blake3 {} {} [] where
  journal := .nil
  file := rfl
  cut := Or.inl rfl
  bounded := by decide
  exclusive := by rintro _ ⟨⟩
  observed := by rintro _ ⟨⟩
  running := by rintro _ ⟨⟩

/-- A history before an event. -/
def historyBefore
    (blake3 : Bytes → BlockId)
    (events : List Event)
    (position : Nat) : History :=
  StepRun.before (step blake3) {} events position

theorem recorded_before
    (blake3 : Bytes → BlockId)
    (events : List Event)
    (position : Nat) :
    ∃ state torn,
      Recorded blake3 (historyBefore blake3 events position) state torn := by
  refine StepRun.holds_before
    (fun history => ∃ state torn, Recorded blake3 history state torn)
    ⟨{}, [], recorded_start⟩ ?_ position
  rintro earlier event _ ⟨state, torn, recorded⟩
  exact recorded.step event

theorem step_records_le (history : History) (event : Event) :
    history.records.length ≤ (step blake3 history event).records.length := by
  rw [Retention.step, List.length_append]
  exact Nat.le_add_right _ _

theorem records_le
    (events : List Event)
    {earlier position : Nat}
    (ordered : earlier ≤ position) :
    (historyBefore blake3 events earlier).records.length ≤
      (historyBefore blake3 events position).records.length :=
  StepRun.related_before
    (fun first second : History =>
      first.records.length ≤ second.records.length)
    (fun _ => le_refl _) (fun _ _ _ => le_trans)
    (fun _ event _ => step_records_le _ event) ordered

/-- What a running process has seen is numbered below its next record. -/
theorem seen_le_records
    (events : List Event)
    {earlier position : Nat}
    (ordered : earlier ≤ position)
    {before : Process}
    (wasProcess :
      (historyBefore blake3 events earlier).host.process = some before)
    {other : BlockId}
    {seen : Nat}
    (found : before.state.ids[other]? = some seen) :
    seen ≤ (historyBefore blake3 events position).records.length := by
  obtain ⟨state, torn, recorded⟩ := recorded_before blake3 events earlier
  exact (recorded.observed before wasProcess other seen found).trans
    (records_le events ordered)

/-- An acknowledged batch has its record and the generation of that record. -/
theorem Recorded.acknowledged
    (recorded : Recorded blake3 history state torn)
    (isProcess : history.host.process = some process)
    {ids guard : List BlockId}
    (acknowledged :
      (Retention.protect blake3 order write process.state history.host.file
        ids).1 = .ok guard) :
    (∀ id, id ∈ guard ↔ id ∈ ids) ∧
      (ids ≠ [] →
        recorded? history.host (.call (.protect ids order write)) =
          some guard) ∧
      ∀ id ∈ ids,
        (Retention.protect blake3 order write process.state history.host.file
          ids).2.1.ids[id]? = some (history.records.length + 1) := by
  rcases protect_cases blake3 order write process.state
      history.host.file ids with
    ⟨error, _, admits, result⟩ | ⟨admits, result⟩ |
    ⟨admitted, admits, nonempty, ⟨rfl, result⟩ | ⟨written, rfl, result⟩⟩
  · rw [result] at acknowledged
    cases acknowledged
  · rw [result] at acknowledged
    cases acknowledged
    have none : ids = [] := by
      have members := (admitted_of_admission admits).mem_iff
      exact List.eq_nil_iff_forall_not_mem.mpr fun id member =>
        absurd ((members id).mpr member) (List.not_mem_nil)
    subst none
    exact ⟨fun id => Iff.rfl, fun absent => absurd rfl absent,
      fun id member => absurd member List.not_mem_nil⟩
  · rw [result] at acknowledged
    cases acknowledged
    have members := (admitted_of_admission admits).mem_iff
    refine ⟨members,
      fun _ => completed_of_admission isProcess admits nonempty, ?_⟩
    intro id member
    obtain ⟨_, sequence, _⟩ := recorded.admitted isProcess admits nonempty
    rw [result, State.commit, FiniteMap.getElem?_insertAll,
      if_pos ((members id).mpr member), sequence,
      recorded.journal.sequence_eq]
  · rw [result] at acknowledged
    cases acknowledged

/-- An acknowledged batch adds its guard to those that are held. -/
theorem step_acknowledged
    (isProcess : history.host.process = some process)
    {ids guard : List BlockId}
    (acknowledged :
      (Retention.protect blake3 order write process.state history.host.file
        ids).1 = .ok guard) :
    ∃ next,
      (Retention.step blake3 history
        (.call (.protect ids order write))).host.process = some next ∧
        next.guards = process.guards ++ [guard] := by
  simp only [Retention.step, stepHost, isProcess, Process.call]
  rcases result : Retention.protect blake3 order write process.state
    history.host.file ids with ⟨outcome, state, file⟩
  rw [result] at acknowledged
  cases acknowledged
  exact ⟨_, rfl, rfl⟩

theorem step_refused
    (isProcess : history.host.process = some process)
    {error : Error}
    (refused :
      (Retention.protect blake3 order write process.state history.host.file
        ids).1 = .error error) :
    ∃ next,
      (Retention.step blake3 history
        (.call (.protect ids order write))).host.process = some next ∧
        next.guards = process.guards := by
  simp only [Retention.step, stepHost, isProcess, Process.call]
  rcases result : Retention.protect blake3 order write process.state
    history.host.file ids with ⟨outcome, state, file⟩
  rw [result] at refused
  cases refused
  exact ⟨_, rfl, rfl⟩

/-- Dropping a guard that is held takes it away once. -/
theorem Recorded.step_dropGuard
    (recorded : Recorded blake3 history state torn)
    (isProcess : history.host.process = some process)
    {guard : List BlockId}
    (held : guard ∈ process.guards) :
    ∃ next,
      (Retention.step blake3 history
        (.call (.dropGuard (process.guards.idxOf guard)))).host.process =
          some next ∧
        next.guards = process.guards.erase guard := by
  have present : process.guards[process.guards.idxOf guard]? = some guard :=
    List.getElem?_idxOf held
  obtain ⟨next, called, -⟩ :
      ∃ next,
        process.call blake3 history.host.file
            (.dropGuard (process.guards.idxOf guard)) = some next ∧
          Exclusive next.1 :=
    (recorded.exclusive process isProcess).call _ _
  simp only [Retention.step, stepHost, isProcess, called]
  refine ⟨next.1, rfl, ?_⟩
  simp only [Process.call, present] at called
  split at called
  · cases called
  · cases called
    exact List.eraseIdx_idxOf_eq_erase guard process.guards

theorem step_crash_stopped
    (history : History)
    (ids : List BlockId)
    (order : SetOrder)
    (written : Nat) :
    (Retention.step blake3 history
      (.crash ids order written)).host.process = none := by
  cases isProcess : history.host.process with
  | none =>
      simp [Retention.step, stepHost, isProcess]
  | some process =>
      simp [Retention.step, stepHost, isProcess]

theorem Recorded.step_reopen
    (recorded : Recorded blake3 history state torn) :
    (Retention.step blake3 history .reopen).host.process =
      some ⟨state, [], []⟩ := by
  simp [Retention.step, stepHost, recorded.openJournal_eq]

/-- A block that a record names has a generation. -/
theorem exists_generation
    {records : List (List BlockId)}
    {record : List BlockId}
    {id : BlockId}
    (member : record ∈ records)
    (listed : id ∈ record) :
    ∃ generation, IsGeneration records id generation := by
  induction records using List.reverseRecOn generalizing record with
  | nil =>
      cases member
  | append_singleton earlier last inductionHypothesis =>
      by_cases newest : id ∈ last
      · exact ⟨earlier.length + 1, earlier, last, [], rfl, newest, rfl,
          by simp⟩
      · rcases List.mem_append.mp member with before | isLast
        · obtain ⟨generation, front, found, later, rfl, named, number,
            absent⟩ := inductionHypothesis before listed
          refine ⟨generation, front, found, later ++ [last], by simp, named,
            number, ?_⟩
          intro other isOther
          rcases List.mem_append.mp isOther with inLater | isLast
          · exact absent other inLater
          · rwa [List.mem_singleton.mp isLast]
        · rw [List.mem_singleton.mp isLast] at listed
          exact absurd listed newest

/--
At every moment of a history: the journal opens, and the recovered guards are
those of the records completely written, each under the number of the last
record that names it.  A batch that is acknowledged has its record, and gives
its identifiers the next number, larger than any seen before.  A batch that is
refused without an I/O failure changes nothing.
-/
theorem retention_journal_recovers
    (blake3 : Bytes → BlockId)
    (events : List Event)
    (position : Nat) :
    let history := historyBefore blake3 events position
    (∃ recovered file,
        openJournal blake3 history.host.file = .ok (recovered, file) ∧
          recovered.sequence = history.records.length ∧
          ∀ (id : BlockId) (generation : Nat),
            recovered.ids[id]? = some generation ↔
              IsGeneration history.records id generation) ∧
      ∀ process ids order write,
        history.host.process = some process →
        let result :=
          protect blake3 order write process.state history.host.file ids
        (∀ guard,
          result.1 = .ok guard →
          (∀ id, id ∈ guard ↔ id ∈ ids) ∧
            (ids ≠ [] →
              recorded? history.host (.call (.protect ids order write)) =
                some guard) ∧
            (∀ id ∈ ids,
              result.2.1.ids[id]? = some (history.records.length + 1)) ∧
            ∀ earlier ≤ position,
              ∀ before,
                (historyBefore blake3 events earlier).host.process =
                  some before →
                ∀ (other : BlockId) (seen : Nat),
                  before.state.ids[other]? = some seen →
                  seen < history.records.length + 1) ∧
          ∀ error,
            result.1 = .error error →
            error ≠ .io →
            result.2 = (process.state, history.host.file) := by
  intro history
  obtain ⟨state, torn, recorded⟩ := recorded_before blake3 events position
  refine ⟨⟨state, _, recorded.openJournal_eq, recorded.journal.sequence_eq,
    recorded.journal.generation_iff⟩, ?_⟩
  intro process ids order write isProcess result
  constructor
  · intro guard acknowledged
    obtain ⟨members, written, numbered⟩ :=
      recorded.acknowledged isProcess acknowledged
    refine ⟨members, written, numbered, ?_⟩
    intro earlier ordered before wasProcess other seen found
    exact Nat.lt_succ_of_le (seen_le_records events ordered wasProcess found)
  · intro error refused other
    rcases protect_cases blake3 order write process.state
        history.host.file ids with
      ⟨_, _, _, isResult⟩ | ⟨_, isResult⟩ |
      ⟨_, _, _, ⟨rfl, isResult⟩ | ⟨_, rfl, isResult⟩⟩
    · exact congrArg Prod.snd isResult
    · exact congrArg Prod.snd isResult
    · have contrary := refused.symm.trans (congrArg Prod.fst isResult)
      cases contrary
    · have io := refused.symm.trans (congrArg Prod.fst isResult)
      cases io
      exact absurd rfl other

end Histories

end KalpakDb.Retention
