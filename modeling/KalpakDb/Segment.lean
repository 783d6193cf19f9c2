import KalpakDb.Identifiers
import KalpakDb.ByteCodec
import KalpakDb.ByteFile

namespace KalpakDb

/-!
# Segment records

A segment file is a sequence of records: a 64-byte header with the length and
the digest of the payload, the payload, and zeros up to the next 4 KiB
boundary.  The scan that rebuilds the index reads headers only.  Its offsets
are 64-bit words, so a length near the top of their range wraps around.
-/

open ByteCodec (leBytes leValue)

def magic : Bytes := [75, 76, 80, 75]
def formatVersion : Nat := 1
def headerLen : Nat := 64
def blockAlign : Nat := 4096

/-- A byte slice.  No address space holds one of 2 ^ 62 bytes. -/
structure Payload where
  bytes : Bytes
  length_lt : bytes.length < 2 ^ 62
  deriving DecidableEq

/-- The single byte one. -/
def oneByte : Payload := ⟨[1], by decide⟩

def recordLen (payloadLen : Nat) : Nat :=
  let raw := (headerLen + payloadLen) % 2 ^ 64
  (raw + (blockAlign - 1)) / blockAlign * blockAlign % 2 ^ 64

def encodeHeader (id : BlockId) (payloadLen : Nat) : Bytes :=
  magic ++ leBytes 4 formatVersion ++ leBytes 8 payloadLen ++ id.bytes ++
    List.replicate 16 0

def encodeRecord (id : BlockId) (payload : Bytes) : Bytes :=
  encodeHeader id payload.length ++ payload ++
    List.replicate (recordLen payload.length - headerLen - payload.length) 0

structure RecordHeader where
  id : BlockId
  payloadLen : Nat
  deriving DecidableEq

/-- Read a header; `none` for anything that is not the start of a record. -/
def parseHeader (header : Bytes) : Option RecordHeader :=
  if header.take 4 ≠ magic then
    none
  else if leValue ((header.drop 4).take 4) ≠ formatVersion then
    none
  else
    (BlockId.ofBytes? ((header.drop 16).take 32)).map fun id =>
      { id := id, payloadLen := leValue ((header.drop 8).take 8) }

/-- Where a block lives; the offset is that of its header. -/
structure Location where
  segment : Nat
  offset : Nat
  payloadLen : Nat
  deriving DecidableEq

/-! ## Scanning -/

/-- The record at an offset and the offset after it, unless the scan stops. -/
def scanStep (bytes : Bytes) (offset : Nat) : Option (RecordHeader × Nat) :=
  if offset + headerLen ≤ bytes.length then
    match parseHeader ((bytes.drop offset).take headerLen) with
    | none => none
    | some record =>
        let next := (offset + recordLen record.payloadLen) % 2 ^ 64
        if next > bytes.length then none else some (record, next)
  else
    none

/-- The records from an offset on and the offset where valid data ends. -/
def scanFrom
    (segment : Nat)
    (bytes : Bytes) :
    Nat → Nat → Option (List (BlockId × Location) × Nat)
  | 0, _ => none
  | fuel + 1, offset =>
      match scanStep bytes offset with
      | none => some ([], offset)
      | some (record, next) =>
          (scanFrom segment bytes fuel next).map fun result =>
            ((record.id, {
              segment := segment
              offset := offset
              payloadLen := record.payloadLen }) :: result.1,
              result.2)

/--
Scan a segment from its start.  The offsets at which a record can be found
are multiples of 4096 inside the file, so a scan that takes more steps than
the file has bytes has come back to an offset and never ends: `none`.
-/
def scan
    (segment : Nat)
    (bytes : Bytes) : Option (List (BlockId × Location) × Nat) :=
  scanFrom segment bytes (bytes.length + 1) 0

/-! ## Record lengths -/

theorem recordLen_eq
    {payloadLen : Nat}
    (small : payloadLen < 2 ^ 62) :
    recordLen payloadLen = (payloadLen + 4159) / 4096 * 4096 := by
  simp only [recordLen, headerLen, blockAlign]
  omega

theorem recordLen_bounds
    {payloadLen : Nat}
    (small : payloadLen < 2 ^ 62) :
    headerLen + payloadLen ≤ recordLen payloadLen ∧
      recordLen payloadLen < 2 ^ 63 ∧
      4096 ≤ recordLen payloadLen := by
  rw [recordLen_eq small, headerLen]
  omega

@[simp] theorem length_encodeHeader (id : BlockId) (payloadLen : Nat) :
    (encodeHeader id payloadLen).length = headerLen := by
  simp [encodeHeader, magic, id.length_bytes, headerLen]

theorem length_encodeRecord
    (id : BlockId)
    {payload : Bytes}
    (small : payload.length < 2 ^ 62) :
    (encodeRecord id payload).length = recordLen payload.length := by
  have bounds := recordLen_bounds small
  simp only [encodeRecord, List.length_append, length_encodeHeader,
    List.length_replicate]
  omega

theorem parseHeader_encodeHeader
    (id : BlockId)
    {payloadLen : Nat}
    (small : payloadLen < 2 ^ 64) :
    parseHeader (encodeHeader id payloadLen) =
      some { id := id, payloadLen := payloadLen } := by
  have version : leValue (leBytes 4 formatVersion) = formatVersion := by
    decide
  have length : leValue (leBytes 8 payloadLen) = payloadLen :=
    ByteCodec.leValue_leBytes (by omega)
  have past : (leBytes 4 formatVersion).drop 12 = [] := by
    decide
  simp [parseHeader, encodeHeader, magic, List.take_append, List.drop_append,
    version, length, past, id.length_bytes]

/-! ## The scan reads records back -/

section Steps

variable {bytes front rest : Bytes} {payload : Payload}

/-- The scan steps over a complete record. -/
theorem scanStep_record
    (id : BlockId)
    (shape : bytes = front ++ (encodeRecord id payload.bytes ++ rest))
    (bounded : bytes.length < 2 ^ 63) :
    scanStep bytes front.length =
      some ({ id := id, payloadLen := payload.bytes.length },
        front.length + recordLen payload.bytes.length) := by
  have small := payload.length_lt
  have bounds := recordLen_bounds small
  have length : bytes.length =
      front.length + (recordLen payload.bytes.length + rest.length) := by
    rw [shape, List.length_append, List.length_append,
      length_encodeRecord id small]
  have header :
      (bytes.drop front.length).take headerLen =
        encodeHeader id payload.bytes.length := by
    rw [shape, List.drop_left, encodeRecord, List.append_assoc,
      List.append_assoc, List.take_left' (length_encodeHeader _ _)]
  have unwrapped :
      (front.length + recordLen payload.bytes.length) % 2 ^ 64 =
        front.length + recordLen payload.bytes.length :=
    Nat.mod_eq_of_lt (by omega)
  rw [scanStep, if_pos (by omega), header,
    parseHeader_encodeHeader id (by omega)]
  simp only [unwrapped]
  rw [if_neg (by omega)]

/-- The scan stops in front of a record whose end is missing. -/
theorem scanStep_torn
    (id : BlockId)
    {kept : Nat}
    (torn : kept < recordLen payload.bytes.length)
    (shape : bytes = front ++ (encodeRecord id payload.bytes).take kept)
    (bounded : bytes.length < 2 ^ 63) :
    scanStep bytes front.length = none := by
  have small := payload.length_lt
  have bounds := recordLen_bounds small
  have length : bytes.length = front.length + kept := by
    rw [shape, List.length_append, List.length_take,
      length_encodeRecord id small]
    omega
  unfold scanStep
  split
  · rename_i whole
    have header :
        (bytes.drop front.length).take headerLen =
          encodeHeader id payload.bytes.length := by
      rw [shape, List.drop_left, List.take_take,
        Nat.min_eq_left (by omega), encodeRecord, List.append_assoc,
        List.take_left' (length_encodeHeader _ _)]
    have unwrapped :
        (front.length + recordLen payload.bytes.length) % 2 ^ 64 =
          front.length + recordLen payload.bytes.length :=
      Nat.mod_eq_of_lt (by omega)
    rw [header, parseHeader_encodeHeader id (by omega)]
    simp only [unwrapped]
    rw [if_pos (by omega)]
  · rfl

end Steps

/-! ## Sequences of records -/

/-- A record on disk.  Damage changes its payload and not its identifier. -/
structure StoredRecord where
  id : BlockId
  payload : Payload
  deriving DecidableEq

/-- The bytes of some records, one after the other. -/
def encodeRecords (records : List StoredRecord) : Bytes :=
  records.flatMap fun record => encodeRecord record.id record.payload.bytes

/-- Records with their locations, from an offset on. -/
def placeFrom
    (segment : Nat) :
    Nat → List StoredRecord → List (StoredRecord × Location)
  | _, [] => []
  | offset, record :: rest =>
      (record, {
        segment := segment
        offset := offset
        payloadLen := record.payload.bytes.length }) ::
        placeFrom segment (offset + recordLen record.payload.bytes.length)
          rest

/-- What the index says of a record at a location. -/
def indexEntry (placed : StoredRecord × Location) : BlockId × Location :=
  (placed.1.id, placed.2)

@[simp] theorem encodeRecords_nil : encodeRecords [] = [] := rfl

@[simp] theorem encodeRecords_cons
    (record : StoredRecord)
    (rest : List StoredRecord) :
    encodeRecords (record :: rest) =
      encodeRecord record.id record.payload.bytes ++ encodeRecords rest :=
  rfl

@[simp] theorem encodeRecords_append (first second : List StoredRecord) :
    encodeRecords (first ++ second) =
      encodeRecords first ++ encodeRecords second :=
  List.flatMap_append

theorem placeFrom_append
    (segment offset : Nat)
    (first second : List StoredRecord) :
    placeFrom segment offset (first ++ second) =
      placeFrom segment offset first ++
        placeFrom segment (offset + (encodeRecords first).length)
          second := by
  induction first generalizing offset with
  | nil =>
      simp [placeFrom]
  | cons record rest inductionHypothesis =>
      simp only [List.cons_append, placeFrom, inductionHypothesis,
        encodeRecords_cons, List.length_append,
        length_encodeRecord _ record.payload.length_lt, Nat.add_assoc]

@[simp] theorem map_fst_placeFrom
    (segment offset : Nat)
    (records : List StoredRecord) :
    (placeFrom segment offset records).map Prod.fst = records := by
  induction records generalizing offset with
  | nil =>
      rfl
  | cons record rest inductionHypothesis =>
      simp [placeFrom, inductionHypothesis]

/-- A placed record has other records in front of it and behind it. -/
theorem mem_placeFrom
    {segment offset : Nat}
    {records : List StoredRecord}
    {record : StoredRecord}
    {location : Location}
    (placed : (record, location) ∈ placeFrom segment offset records) :
    ∃ before after,
      records = before ++ record :: after ∧
      location = {
        segment := segment
        offset := offset + (encodeRecords before).length
        payloadLen := record.payload.bytes.length } := by
  induction records generalizing offset with
  | nil =>
      simp [placeFrom] at placed
  | cons first rest inductionHypothesis =>
      simp only [placeFrom, List.mem_cons, Prod.mk.injEq] at placed
      rcases placed with ⟨rfl, place⟩ | later
      · exact ⟨[], rest, rfl, place⟩
      · obtain ⟨before, after, split, place⟩ := inductionHypothesis later
        refine ⟨first :: before, after, by rw [split]; rfl, ?_⟩
        rw [place, encodeRecords_cons, List.length_append,
          length_encodeRecord _ first.payload.length_lt, Nat.add_assoc]

theorem length_le_encodeRecords (records : List StoredRecord) :
    records.length ≤ (encodeRecords records).length := by
  induction records with
  | nil =>
      exact Nat.zero_le _
  | cons record rest inductionHypothesis =>
      have bounds := recordLen_bounds record.payload.length_lt
      simp only [List.length_cons, encodeRecords_cons, List.length_append,
        length_encodeRecord _ record.payload.length_lt]
      omega

/-- The payload of a placed record is behind its header. -/
theorem readAt_placed
    {segment : Nat}
    {records : List StoredRecord}
    {record : StoredRecord}
    {location : Location}
    (placed : (record, location) ∈ placeFrom segment 0 records)
    (residue : Bytes) :
    ByteFile.readAt (encodeRecords records ++ residue)
        (location.offset + headerLen) location.payloadLen =
      some record.payload.bytes := by
  obtain ⟨before, after, rfl, rfl⟩ := mem_placeFrom placed
  have bytes :
      encodeRecords (before ++ record :: after) ++ residue =
        (encodeRecords before ++
          encodeHeader record.id record.payload.bytes.length) ++
          (record.payload.bytes ++
            (List.replicate
              (recordLen record.payload.bytes.length - headerLen -
                record.payload.bytes.length) 0 ++
              (encodeRecords after ++ residue))) := by
    rw [encodeRecords_append, encodeRecords_cons, encodeRecord]
    simp only [List.append_assoc]
  have offset :
      0 + (encodeRecords before).length + headerLen =
        (encodeRecords before ++
          encodeHeader record.id record.payload.bytes.length).length := by
    simp
  rw [bytes, offset]
  exact ByteFile.readAt_append _ _ _

/-- From the start of some records the scan finds them and stops after. -/
theorem scanFrom_encodeRecords
    (segment : Nat)
    {bytes front residue : Bytes}
    {records : List StoredRecord}
    (shape : bytes = front ++ (encodeRecords records ++ residue))
    (bounded : bytes.length < 2 ^ 63)
    (stops :
      scanStep bytes (front.length + (encodeRecords records).length) = none)
    {fuel : Nat}
    (enough : records.length < fuel) :
    scanFrom segment bytes fuel front.length =
      some ((placeFrom segment front.length records).map indexEntry,
        front.length + (encodeRecords records).length) := by
  induction records generalizing front fuel with
  | nil =>
      cases fuel with
      | zero =>
          omega
      | succ fuel =>
          simp only [encodeRecords_nil, List.length_nil, Nat.add_zero]
            at stops
          simp [scanFrom, stops, placeFrom]
  | cons record rest inductionHypothesis =>
      cases fuel with
      | zero =>
          omega
      | succ fuel =>
          have length :=
            length_encodeRecord record.id record.payload.length_lt
          have step := scanStep_record record.id
            (shape.trans (by rw [encodeRecords_cons, List.append_assoc]))
            bounded
          have remaining : rest.length < fuel := by
            simpa using enough
          have later := inductionHypothesis
            (shape.trans (by
              rw [encodeRecords_cons, List.append_assoc,
                ← List.append_assoc]))
            (by
              rw [List.length_append, length, Nat.add_assoc, ← length,
                ← List.length_append]
              exact stops)
            remaining
          rw [List.length_append, length] at later
          simp only [scanFrom, step, later, Option.map_some, placeFrom,
            List.map_cons, indexEntry, encodeRecords_cons,
            List.length_append, length, Nat.add_assoc]

/-- A scan finds exactly the records in front of the point where it stops. -/
theorem scan_encodeRecords
    (segment : Nat)
    {bytes residue : Bytes}
    {records : List StoredRecord}
    (shape : bytes = encodeRecords records ++ residue)
    (bounded : bytes.length < 2 ^ 63)
    (stops : scanStep bytes (encodeRecords records).length = none) :
    scan segment bytes =
      some ((placeFrom segment 0 records).map indexEntry,
        (encodeRecords records).length) := by
  have enough : records.length < bytes.length + 1 := by
    have recordBytes := length_le_encodeRecords records
    rw [shape, List.length_append]
    omega
  have fromStart : bytes = [] ++ (encodeRecords records ++ residue) :=
    shape
  have found := scanFrom_encodeRecords segment fromStart bounded
    (by simpa using stops) enough
  simpa [scan] using found

/-! ## Records under their own digests -/

section Records

variable (blake3 : Bytes → BlockId)

/-- The record that is written for a payload. -/
def StoredRecord.of (payload : Payload) : StoredRecord where
  id := blake3 payload.bytes
  payload := payload

/-- The encodings of some payloads, each under its own digest. -/
def encodeAll (payloads : List Payload) : Bytes :=
  payloads.flatMap fun payload =>
    encodeRecord (blake3 payload.bytes) payload.bytes

/-- The identifiers and locations of records that start at an offset. -/
def locateFrom
    (segment : Nat) :
    Nat → List Payload → List (BlockId × Location)
  | _, [] => []
  | offset, payload :: rest =>
      (blake3 payload.bytes, {
        segment := segment
        offset := offset
        payloadLen := payload.bytes.length }) ::
        locateFrom segment (offset + recordLen payload.bytes.length) rest

theorem encodeAll_eq (payloads : List Payload) :
    encodeAll blake3 payloads =
      encodeRecords (payloads.map (.of blake3)) := by
  rw [encodeRecords, List.flatMap_map]
  rfl

theorem locateFrom_eq
    (segment offset : Nat)
    (payloads : List Payload) :
    locateFrom blake3 segment offset payloads =
      (placeFrom segment offset (payloads.map (.of blake3))).map
        indexEntry := by
  induction payloads generalizing offset with
  | nil =>
      rfl
  | cons payload rest inductionHypothesis =>
      simp [locateFrom, placeFrom, indexEntry, StoredRecord.of,
        inductionHypothesis]

@[simp] theorem encodeAll_nil : encodeAll blake3 [] = [] := rfl

@[simp] theorem encodeAll_cons (payload : Payload) (rest : List Payload) :
    encodeAll blake3 (payload :: rest) =
      encodeRecord (blake3 payload.bytes) payload.bytes ++
        encodeAll blake3 rest := rfl

@[simp] theorem encodeAll_append (first second : List Payload) :
    encodeAll blake3 (first ++ second) =
      encodeAll blake3 first ++ encodeAll blake3 second :=
  List.flatMap_append

theorem locateFrom_append
    (segment offset : Nat)
    (first second : List Payload) :
    locateFrom blake3 segment offset (first ++ second) =
      locateFrom blake3 segment offset first ++
        locateFrom blake3 segment
          (offset + (encodeAll blake3 first).length) second := by
  simp only [locateFrom_eq, encodeAll_eq, List.map_append, placeFrom_append]

@[simp] theorem map_fst_locateFrom
    (segment offset : Nat)
    (payloads : List Payload) :
    (locateFrom blake3 segment offset payloads).map Prod.fst =
      payloads.map fun payload => blake3 payload.bytes := by
  have ids : Prod.fst ∘ indexEntry = StoredRecord.id ∘ Prod.fst := rfl
  rw [locateFrom_eq, List.map_map, ids, ← List.map_map, map_fst_placeFrom,
    List.map_map]
  rfl

/-- A scan finds exactly the payloads in front of the point where it stops. -/
theorem scan_encodeAll
    (segment : Nat)
    {bytes residue : Bytes}
    {payloads : List Payload}
    (shape : bytes = encodeAll blake3 payloads ++ residue)
    (bounded : bytes.length < 2 ^ 63)
    (stops : scanStep bytes (encodeAll blake3 payloads).length = none) :
    scan segment bytes =
      some (locateFrom blake3 segment 0 payloads,
        (encodeAll blake3 payloads).length) := by
  rw [encodeAll_eq] at shape stops ⊢
  rw [locateFrom_eq]
  exact scan_encodeRecords segment shape bounded stops

end Records

end KalpakDb
