import KalpakDb.StoreCalls

namespace KalpakDb

/-!
# Stores with superseded and damaged records

A repair leaves the damaged record where it is and appends a new one, so a
block may have several records on disk.  The index knows at most the newest,
and after a compaction possibly none of them; opening the directory always
finds the newest.  The segments are seen as lists of records, and the index
as a part of what the scan of these lists finds last.
-/

open Std (ExtTreeMap)
open Contract

/-! ## Placed records -/

/-- The records of all segments with their locations. -/
def placeAll : Nat → List (List StoredRecord) → List (StoredRecord × Location)
  | _, [] => []
  | segment, records :: rest =>
      placeFrom segment 0 records ++ placeAll (segment + 1) rest

/-- The last record of a block. -/
def newest
    (placed : List (StoredRecord × Location))
    (id : BlockId) : Option (StoredRecord × Location) :=
  placed.reverse.find? fun entry => entry.1.id = id

section Placed

variable {segment : Nat} {segments : List (List StoredRecord)}
  {placed : List (StoredRecord × Location)} {record : StoredRecord}
  {location : Location} {id : BlockId}

theorem placeAll_append
    (segment : Nat)
    (first second : List (List StoredRecord)) :
    placeAll segment (first ++ second) =
      placeAll segment first ++ placeAll (segment + first.length) second := by
  induction first generalizing segment with
  | nil =>
      rfl
  | cons records rest inductionHypothesis =>
      simp only [List.cons_append, placeAll, inductionHypothesis,
        List.append_assoc, List.length_cons]
      rw [Nat.add_assoc, Nat.add_comm 1]

@[simp] theorem map_fst_placeAll
    (segment : Nat)
    (segments : List (List StoredRecord)) :
    (placeAll segment segments).map Prod.fst = segments.flatten := by
  induction segments generalizing segment with
  | nil =>
      rfl
  | cons records rest inductionHypothesis =>
      simp [placeAll, inductionHypothesis]

/-- A placed record is one of the segment that its location names. -/
theorem mem_placeAll :
    (record, location) ∈ placeAll segment segments ↔
      ∃ position records,
        segments[position]? = some records ∧
          (record, location) ∈ placeFrom (segment + position) 0 records :=
  mem_numbered placeAll (fun number => placeFrom number 0)
    (fun _ => rfl) (fun _ _ _ => rfl)

theorem segment_of_mem_placeFrom
    {offset : Nat}
    {records : List StoredRecord}
    (member : (record, location) ∈ placeFrom segment offset records) :
    location.segment = segment := by
  obtain ⟨before, after, -, shape⟩ := mem_placeFrom member
  rw [shape]

/-- Every record of a segment has its place there. -/
theorem exists_placed
    {position : Nat}
    {records : List StoredRecord}
    (present : segments[position]? = some records)
    (member : record ∈ records) :
    ∃ location,
      (record, location) ∈ placeAll 0 segments ∧
        location.segment = position := by
  rw [← map_fst_placeFrom position 0 records] at member
  obtain ⟨⟨found, location⟩, placed, rfl⟩ := List.mem_map.mp member
  refine ⟨location, mem_placeAll.mpr ⟨position, records, present, ?_⟩,
    segment_of_mem_placeFrom placed⟩
  rw [Nat.zero_add]
  exact placed

/-- A location names the segment of its record. -/
theorem record_of_placed
    (placed : (record, location) ∈ placeAll 0 segments) :
    ∃ records,
      segments[location.segment]? = some records ∧ record ∈ records := by
  obtain ⟨position, records, present, place⟩ := mem_placeAll.mp placed
  rw [Nat.zero_add] at place
  rw [segment_of_mem_placeFrom place]
  refine ⟨records, present, ?_⟩
  rw [← map_fst_placeFrom position 0 records]
  exact List.mem_map_of_mem place

theorem newest_append
    (first second : List (StoredRecord × Location))
    (id : BlockId) :
    newest (first ++ second) id = (newest second id).or (newest first id) := by
  rw [newest, List.reverse_append, List.find?_append]
  rfl

theorem mem_of_newest
    (found : newest placed id = some (record, location)) :
    (record, location) ∈ placed ∧ record.id = id := by
  refine ⟨List.mem_reverse.mp (List.mem_of_find?_eq_some found), ?_⟩
  simpa using List.find?_some found

theorem newest_eq_none_iff :
    newest placed id = none ↔ ∀ entry ∈ placed, entry.1.id ≠ id := by
  simp [newest]

/-- The newest record as the last one among all. -/
theorem map_fst_newest
    (segment : Nat)
    (segments : List (List StoredRecord))
    (id : BlockId) :
    (newest (placeAll segment segments) id).map Prod.fst =
      segments.flatten.reverse.find? fun record => record.id = id := by
  rw [← map_fst_placeAll segment segments, ← List.map_reverse,
    List.find?_map]
  rfl

/-- A block has a newest record if it has one at all. -/
theorem newest_isSome_iff :
    (newest (placeAll segment segments) id).isSome = true ↔
      ∃ record ∈ segments.flatten, record.id = id := by
  rw [← Option.isSome_map, map_fst_newest, List.find?_isSome]
  simp only [List.mem_reverse, decide_eq_true_eq]

/-- Indexing some records makes the newest of them known. -/
theorem getElem?_insertMany_placed
    (index : ExtTreeMap BlockId Location)
    (placed : List (StoredRecord × Location))
    (id : BlockId) :
    (index.insertMany (placed.map indexEntry))[id]? =
      ((newest placed id).map Prod.snd).or index[id]? := by
  rw [FiniteMap.getElem?_insertMany_last, ← List.map_reverse,
    List.find?_map, Option.map_map]
  rfl

end Placed

/-! ## Stores over segments of records -/

/-- An open store; its index knows the newest records of some blocks. -/
structure Node.Tracks
    (node : Node)
    (segments : List (List StoredRecord)) : Prop where
  nonempty : segments ≠ []
  files : node.disk.Files node.store.files (segments.map encodeRecords)
  indexed :
    ∀ (id : BlockId) (location : Location),
      node.store.index[id]? = some location →
        ∃ record,
          newest (placeAll 0 segments) id = some (record, location)
  tail :
    node.store.tail =
      (encodeRecords (segments.getLast?.getD [])).length
  accepting : node.store.writeFailed = false

section Tracks

variable {blake3 : Bytes → BlockId} {node : Node}
  {segments : List (List StoredRecord)} {record : StoredRecord}
  {location : Location} {id : BlockId}

theorem Node.Tracks.withFault
    (tracks : node.Tracks segments)
    (fault : Option Fault) :
    ({ node with fault := fault } : Node).Tracks segments where
  nonempty := tracks.nonempty
  files := tracks.files
  indexed := tracks.indexed
  tail := tracks.tail
  accepting := tracks.accepting

/-- The bytes of a record are in the file of its segment. -/
theorem Node.Tracks.readAt_placed
    (tracks : node.Tracks segments)
    (placed : (record, location) ∈ placeAll 0 segments) :
    ∃ handle file,
      node.store.files[location.segment]? = some handle ∧
      node.disk.objects[handle]? = some file ∧
      location.payloadLen = record.payload.bytes.length ∧
      ByteFile.readAt file.bytes (location.offset + headerLen)
        location.payloadLen = some record.payload.bytes := by
  obtain ⟨position, records, present, place⟩ := mem_placeAll.mp placed
  rw [Nat.zero_add] at place
  obtain ⟨handle, file, named, found, contents⟩ :=
    tracks.files.file_at
      (show (segments.map encodeRecords)[position]? =
        some (encodeRecords records) by simp [present])
  have read := KalpakDb.readAt_placed place []
  rw [List.append_nil, ← contents] at read
  have length : location.payloadLen = record.payload.bytes.length := by
    obtain ⟨before, after, -, shape⟩ := mem_placeFrom place
    rw [shape]
  exact ⟨handle, file,
    by rw [segment_of_mem_placeFrom place]; exact named, found, length, read⟩

/-- The file behind a handle holds the records of its segment. -/
theorem Node.Tracks.records_of_handle
    (tracks : node.Tracks segments)
    {segment handle : Nat}
    (named : node.store.files[segment]? = some handle)
    {file : SegmentFile}
    (onDisk : node.disk.objects[handle]? = some file) :
    ∃ records,
      segments[segment]? = some records ∧
        file.bytes = encodeRecords records := by
  have within := (List.getElem?_eq_some_iff.mp named).1
  rw [tracks.files.sameLength, List.length_map] at within
  have present := List.getElem?_eq_getElem within
  obtain ⟨found, sameFile, contents⟩ :=
    tracks.files.files segment handle (encodeRecords segments[segment]) named
      (by simp [present])
  rw [onDisk] at sameFile
  cases sameFile
  exact ⟨_, present, contents⟩

/-- An indexed block is read from its newest record and verified. -/
theorem Node.Tracks.getBlock_indexed
    (tracks : node.Tracks segments)
    (noFault : node.fault = none)
    (indexed : node.store.index[id]? = some location)
    (found : newest (placeAll 0 segments) id = some (record, location)) :
    execute (getBlock blake3 id) node =
      (if blake3 record.payload.bytes = id then .ok record.payload.bytes
        else .error (.corrupt id), node) := by
  obtain ⟨handle, file, named, onDisk, length, read⟩ :=
    tracks.readAt_placed (mem_of_newest found).1
  have small := record.payload.length_lt
  have allocated : ¬ location.payloadLen ≥ 2 ^ 63 := by
    omega
  apply Ends.execute_eq
  simp only [getBlock, ends_bind, ends_get, indexed, named, allocated,
    if_false, readAt, ends_ioStep_of_none noFault, ends_fileOf onDisk, read,
    ends_pure]
  by_cases verified : blake3 record.payload.bytes = id
  · simp [verified]
  · simp [verified]

theorem getBlock_unindexed
    (absent : id ∉ node.store.index) :
    execute (getBlock blake3 id) node =
      (.error (.blockNotFound id), node) := by
  have unindexed : node.store.index[id]? = none := by
    rw [← Option.not_isSome_iff_eq_none,
      ← ExtTreeMap.mem_iff_isSome_getElem?]
    exact absent
  apply Ends.execute_eq
  simp only [getBlock, ends_bind, ends_get, unindexed, ends_throw]

/-- A block that is indexed has a record. -/
theorem Node.Tracks.newest_of_mem
    (tracks : node.Tracks segments)
    (indexed : id ∈ node.store.index) :
    ∃ record location,
      node.store.index[id]? = some location ∧
        newest (placeAll 0 segments) id = some (record, location) := by
  rw [ExtTreeMap.mem_iff_isSome_getElem?, Option.isSome_iff_exists]
    at indexed
  obtain ⟨location, found⟩ := indexed
  obtain ⟨record, last⟩ := tracks.indexed id location found
  exact ⟨record, location, found, last⟩

/-- A block can be read if it is indexed and its newest record is intact. -/
theorem Node.Tracks.getBlock_ok_iff
    (tracks : node.Tracks segments)
    (noFault : node.fault = none)
    {bytes : Bytes} :
    (execute (getBlock blake3 id) node).1 = .ok bytes ↔
      id ∈ node.store.index ∧
        ∃ record,
          (newest (placeAll 0 segments) id).map Prod.fst = some record ∧
            record.payload.bytes = bytes ∧ blake3 bytes = id := by
  by_cases indexed : id ∈ node.store.index
  · obtain ⟨record, location, found, last⟩ := tracks.newest_of_mem indexed
    rw [tracks.getBlock_indexed noFault found last, last]
    by_cases verified : blake3 record.payload.bytes = id
    · simp only [verified, if_true, Except.ok.injEq, indexed, true_and,
        Option.map_some, Option.some.injEq, exists_eq_left']
      constructor
      · rintro rfl
        exact ⟨rfl, verified⟩
      · exact And.left
    · simp only [verified, if_false, reduceCtorEq, indexed, true_and,
        Option.map_some, Option.some.injEq, exists_eq_left', false_iff]
      rintro ⟨rfl, same⟩
      exact verified same
  · simp [getBlock_unindexed indexed, indexed]

/-- Reading a block while no I/O fails. -/
def Node.read
    (blake3 : Bytes → BlockId)
    (node : Node)
    (id : BlockId) : Except Failure Bytes :=
  (execute (getBlock blake3 id) { node with fault := none }).1

theorem Node.Tracks.read_ok_iff
    (tracks : node.Tracks segments)
    {bytes : Bytes} :
    node.read blake3 id = .ok bytes ↔
      id ∈ node.store.index ∧
        ∃ record,
          (newest (placeAll 0 segments) id).map Prod.fst = some record ∧
            record.payload.bytes = bytes ∧ blake3 bytes = id :=
  (tracks.withFault none).getBlock_ok_iff rfl

theorem Node.read_unindexed
    (absent : id ∉ node.store.index) :
    node.read blake3 id = .error (.blockNotFound id) :=
  congrArg Prod.fst (getBlock_unindexed
    (show id ∉ ({ node with fault := none } : Node).store.index from absent))

/-! ## Opening -/

theorem scan_records
    (segment : Nat)
    {file : SegmentFile}
    {records : List StoredRecord}
    (contents : file.bytes = encodeRecords records) :
    scan segment file.bytes =
      some ((placeFrom segment 0 records).map indexEntry,
        (encodeRecords records).length) := by
  refine scan_encodeRecords segment
    (show file.bytes = encodeRecords records ++ [] by simpa using contents)
    file.length_lt ?_
  rw [scanStep, contents, if_neg (by unfold headerLen; omega)]

/-- What the scan of each segment finds. -/
def recordScans
    (segments : List (List StoredRecord)) :
    List (List (BlockId × Location) × Nat) :=
  segments.mapIdx fun position records =>
    ((placeFrom position 0 records).map indexEntry,
      (encodeRecords records).length)

theorem flatMap_mapIdx_placeFrom
    (segment : Nat)
    (segments : List (List StoredRecord)) :
    (segments.mapIdx fun position records =>
        ((placeFrom (segment + position) 0 records).map indexEntry,
          (encodeRecords records).length)).flatMap Prod.fst =
      (placeAll segment segments).map indexEntry := by
  induction segments generalizing segment with
  | nil =>
      rfl
  | cons records rest inductionHypothesis =>
      have later := inductionHypothesis (segment + 1)
      simp only [List.mapIdx_cons, List.flatMap_cons, placeAll,
        List.map_append]
      rw [← later]
      simp only [Nat.add_zero, Nat.add_assoc, Nat.add_comm 1]

/-- A directory of records opens, and all newest records are indexed. -/
theorem ends_openWith_records
    {handles : List Nat}
    (files : node.disk.Files handles (segments.map encodeRecords))
    (noFault : node.fault = none)
    (nonempty : segments ≠ []) :
    Ends openWith node
      (fun _ final =>
        final.Tracks segments ∧
        final.disk = node.disk ∧
        final.fault = none ∧
        ∀ id,
          final.store.index[id]? =
            (newest (placeAll 0 segments) id).map Prod.snd)
      (fun _ _ => False) := by
  have located := flatMap_mapIdx_placeFrom 0 segments
  simp only [Nat.zero_add] at located
  refine (ends_openWith_scans files noFault (by simpa using nonempty)
    (show (recordScans segments).length =
      (segments.map encodeRecords).length by simp [recordScans]) ?_).imp ?_
  · intro position bytes found present scanned
    simp only [recordScans, List.getElem?_mapIdx, Option.map_eq_some_iff,
      List.getElem?_map] at present scanned
    obtain ⟨records, recordsAt, rfl⟩ := present
    obtain ⟨others, othersAt, rfl⟩ := scanned
    rw [recordsAt] at othersAt
    cases othersAt
    obtain ⟨handle, file, -, -, contents⟩ :=
      files.file_at (show (segments.map encodeRecords)[position]? =
        some (encodeRecords records) by simp [recordsAt])
    have scannedFile := scan_records position contents
    rw [contents] at scannedFile
    exact scannedFile
  · rintro - final rfl
    have index (id : BlockId) :
        (recoveredScans handles (recordScans segments)).index[id]? =
          (newest (placeAll 0 segments) id).map Prod.snd := by
      simp only [recoveredScans, recordScans, located,
        getElem?_insertMany_placed, ExtTreeMap.getElem?_empty,
        Option.or_none]
    refine ⟨?_, rfl, noFault, index⟩
    refine {
      nonempty := nonempty
      files := files
      indexed := ?_
      tail := ?_
      accepting := rfl }
    · intro id location found
      have last := (index id).symm.trans found
      obtain ⟨⟨record, place⟩, isLast, rfl⟩ :=
        Option.map_eq_some_iff.mp last
      exact ⟨record, isLast⟩
    · simp only [recoveredScans, recordScans, List.getLast?_mapIdx]
      cases segments.getLast? <;> rfl

/-- A new process on the directory of a store. -/
theorem Node.Tracks.reopen
    (tracks : node.Tracks segments)
    (rollBytes : Nat) :
    ∃ final,
      execute (openWithRoll rollBytes) { disk := node.disk } =
        (.ok (), final) ∧
      final.Tracks segments ∧
      final.fault = none ∧
      ∀ id,
        final.store.index[id]? =
          (newest (placeAll 0 segments) id).map Prod.snd := by
  have start : ({ disk := node.disk } : Node).disk.Files node.store.files
      (segments.map encodeRecords) := tracks.files
  obtain ⟨_, opened, ok, openedTracks, -, noFault, index⟩ :=
    (ends_openWith_records start rfl tracks.nonempty).exists_ok
  refine ⟨_, execute_openWithRoll ok rollBytes, ?_, noFault, index⟩
  exact {
    nonempty := openedTracks.nonempty
    files := openedTracks.files
    indexed := openedTracks.indexed
    tail := openedTracks.tail
    accepting := openedTracks.accepting }

/-- The store that opens in an empty directory. -/
theorem tracks_initial (rollBytes : Nat) :
    ((execute (openWithRoll rollBytes) {}).2).Tracks [[]] := by
  rw [execute_openWithRoll openWith_initial rollBytes]
  exact {
    nonempty := List.cons_ne_nil _ _
    files := files_initial
    indexed := by simp
    tail := rfl
    accepting := rfl }

end Tracks

/-! ## Damage -/

/-- Someone else overwrites the payload of a record, if there is such. -/
def Node.damaged?
    (node : Node)
    (segment position : Nat)
    (bytes : Bytes) : Option Node := do
  let handle ← node.disk.segments[segment]?
  let file ← node.disk.objects[handle]?
  let (located, _) ← scan segment file.bytes
  let (_, location) ← located[position]?
  if bytes.length = location.payloadLen then
    let next ← file.writePrefix? bytes.length
      [(location.offset + headerLen, bytes)]
    pure (node.setFile handle next)
  else
    none

def Node.damage
    (node : Node)
    (segment position : Nat)
    (bytes : Bytes) : Node :=
  (node.damaged? segment position bytes).getD node

theorem Node.store_damage
    (node : Node)
    (segment position : Nat)
    (bytes : Bytes) :
    (node.damage segment position bytes).store = node.store := by
  unfold Node.damage
  cases damaged : node.damaged? segment position bytes with
  | none => rfl
  | some final =>
      simp only [Node.damaged?, Option.bind_eq_bind,
        Option.bind_eq_some_iff] at damaged
      obtain ⟨handle, -, file, -, found, -, entry, -, written⟩ := damaged
      split at written
      · obtain ⟨next, -, same⟩ := Option.bind_eq_some_iff.mp written
        cases same
        rfl
      · cases written

/-- What damage leaves alone: the identifier and the payload's length. -/
def StoredRecord.header (record : StoredRecord) : BlockId × Nat :=
  (record.id, record.payload.bytes.length)

def headerEntry
    (placed : StoredRecord × Location) : (BlockId × Nat) × Location :=
  (placed.1.header, placed.2)

/-- The same headers in the same order. -/
def SameHeaders (first second : List (List StoredRecord)) : Prop :=
  first.map (List.map StoredRecord.header) =
    second.map (List.map StoredRecord.header)

section Damage

variable {segments others : List (List StoredRecord)}

/-- Locations depend on the headers only. -/
theorem placeFrom_headers
    {records replaced : List StoredRecord}
    (same : records.map StoredRecord.header = replaced.map StoredRecord.header)
    (segment offset : Nat) :
    (placeFrom segment offset records).map headerEntry =
      (placeFrom segment offset replaced).map headerEntry := by
  induction records generalizing replaced offset with
  | nil =>
      rw [List.map_nil, eq_comm, List.map_eq_nil_iff] at same
      rw [same]
  | cons record rest inductionHypothesis =>
      obtain ⟨other, later, rfl, first, tails⟩ :=
        List.map_eq_cons_iff.mp same.symm
      have lengths := congrArg Prod.snd first
      simp only [StoredRecord.header] at lengths
      simp only [placeFrom, List.map_cons, headerEntry, first, lengths,
        inductionHypothesis tails.symm]

theorem length_encodeRecords_headers
    {records replaced : List StoredRecord}
    (same :
      records.map StoredRecord.header = replaced.map StoredRecord.header) :
    (encodeRecords records).length = (encodeRecords replaced).length := by
  induction records generalizing replaced with
  | nil =>
      rw [List.map_nil, eq_comm, List.map_eq_nil_iff] at same
      rw [same]
  | cons record rest inductionHypothesis =>
      obtain ⟨other, later, rfl, first, tails⟩ :=
        List.map_eq_cons_iff.mp same.symm
      have lengths := congrArg Prod.snd first
      simp only [StoredRecord.header] at lengths
      simp only [encodeRecords_cons, List.length_append,
        length_encodeRecord _ record.payload.length_lt,
        length_encodeRecord _ other.payload.length_lt, lengths,
        inductionHypothesis tails.symm]

theorem SameHeaders.placeAll
    (same : SameHeaders segments others)
    (segment : Nat) :
    (placeAll segment segments).map headerEntry =
      (placeAll segment others).map headerEntry := by
  induction segments generalizing others segment with
  | nil =>
      rw [SameHeaders, List.map_nil, eq_comm, List.map_eq_nil_iff] at same
      rw [same]
  | cons records rest inductionHypothesis =>
      obtain ⟨replaced, later, rfl, first, tails⟩ :=
        List.map_eq_cons_iff.mp (Eq.symm same)
      simp only [KalpakDb.placeAll, List.map_append,
        placeFrom_headers first.symm segment 0,
        inductionHypothesis tails.symm]

/-- Under the same headers the newest records are at the same places. -/
theorem SameHeaders.newest
    (same : SameHeaders segments others)
    (id : BlockId) :
    (newest (KalpakDb.placeAll 0 segments) id).map headerEntry =
      (newest (KalpakDb.placeAll 0 others) id).map headerEntry := by
  have byHeader (placed : List (StoredRecord × Location)) :
      (KalpakDb.newest placed id).map headerEntry =
        (placed.map headerEntry).reverse.find?
          fun entry => entry.1.1 = id := by
    rw [← List.map_reverse, List.find?_map]
    rfl
  rw [byHeader, byHeader, same.placeAll]

theorem SameHeaders.getLast
    (same : SameHeaders segments others) :
    (encodeRecords (segments.getLast?.getD [])).length =
      (encodeRecords (others.getLast?.getD [])).length := by
  have last := congrArg List.getLast? same
  rw [List.getLast?_map, List.getLast?_map] at last
  apply length_encodeRecords_headers
  cases first : segments.getLast? with
  | none =>
      rw [first, Option.map_none, eq_comm, Option.map_eq_none_iff] at last
      rw [last]
  | some records =>
      rw [first, Option.map_some, eq_comm, Option.map_eq_some_iff] at last
      obtain ⟨replaced, second, equal⟩ := last
      rw [second]
      exact equal.symm

variable {node : Node}

/-- A store over other payloads under the same headers. -/
theorem Node.Tracks.replaced
    (tracks : node.Tracks segments)
    (same : SameHeaders segments others)
    {disk : Disk}
    (files : disk.Files node.store.files (others.map encodeRecords)) :
    ({ node with disk := disk } : Node).Tracks others := by
  refine {
    nonempty := ?_
    files := files
    indexed := ?_
    tail := tracks.tail.trans same.getLast
    accepting := tracks.accepting }
  · rintro rfl
    rw [SameHeaders, List.map_nil, List.map_eq_nil_iff] at same
    exact tracks.nonempty same
  · intro id location found
    obtain ⟨record, last⟩ := tracks.indexed id location found
    have moved := same.newest id
    rw [last, Option.map_some, eq_comm, Option.map_eq_some_iff] at moved
    obtain ⟨⟨replaced, place⟩, newestOther, equal⟩ := moved
    rw [newestOther, show place = location from congrArg Prod.snd equal]
    exact ⟨replaced, rfl⟩

/-- Overwriting a payload in the encoding of its record. -/
theorem writePrefix_payload
    (before after : List StoredRecord)
    (record : StoredRecord)
    (payload : Payload)
    (sameLength :
      payload.bytes.length = record.payload.bytes.length) :
    ByteFile.writePrefix payload.bytes.length
        [((encodeRecords before).length + headerLen, payload.bytes)]
        (encodeRecords (before ++ record :: after)) =
      encodeRecords (before ++ { record with payload := payload } :: after)
        := by
  have front :
      (encodeRecords before).length + headerLen =
        (encodeRecords before ++
          encodeHeader record.id record.payload.bytes.length).length := by
    simp
  have shape (payload : Payload) :
      encodeRecords (before ++ { record with payload := payload } :: after) =
        (encodeRecords before ++
          encodeHeader record.id payload.bytes.length) ++
          (payload.bytes ++
            (List.replicate
              (recordLen payload.bytes.length - headerLen -
                payload.bytes.length) 0 ++ encodeRecords after)) := by
    rw [encodeRecords_append, encodeRecords_cons, encodeRecord]
    simp only [List.append_assoc]
  rw [shape payload, show record = { record with payload := record.payload }
    from rfl, shape record.payload]
  simp only [ByteFile.writePrefix, Nat.le_refl, if_true]
  rw [front, ByteFile.writeAt_append, ByteFile.overlay, sameLength,
    List.drop_left]

/-- Damage changes payloads and nothing else. -/
theorem Node.Tracks.damage
    (tracks : node.Tracks segments)
    (segment position : Nat)
    (bytes : Bytes) :
    ∃ others,
      (node.damage segment position bytes).Tracks others ∧
        SameHeaders segments others := by
  unfold Node.damage
  cases damaged : node.damaged? segment position bytes with
  | none => exact ⟨segments, tracks, rfl⟩
  | some final =>
      simp only [Node.damaged?, Option.bind_eq_bind,
        Option.bind_eq_some_iff] at damaged
      obtain ⟨handle, entry, file, onDisk, ⟨located, tail⟩, scanned,
        ⟨id, location⟩, listed, written⟩ := damaged
      have named : node.store.files[segment]? = some handle := by
        rw [← tracks.files.entries]
        exact entry
      obtain ⟨records, present, contents⟩ :=
        tracks.records_of_handle named onDisk
      rw [scan_records segment contents] at scanned
      cases scanned
      rw [List.getElem?_map, Option.map_eq_some_iff] at listed
      obtain ⟨⟨record, place⟩, placed, same⟩ := listed
      cases same
      obtain ⟨before, after, rfl, rfl⟩ :=
        mem_placeFrom (List.mem_of_getElem? placed)
      simp only [Nat.zero_add] at written
      split at written
      · rename_i sameLength
        obtain ⟨next, nextFile, same⟩ := Option.bind_eq_some_iff.mp written
        cases same
        let payload : Payload :=
          ⟨bytes, sameLength ▸ record.payload.length_lt⟩
        have nextBytes :
            next.bytes = encodeRecords
              (before ++ { record with payload := payload } :: after) := by
          rw [writePrefix?_bytes nextFile, contents]
          exact writePrefix_payload before after record payload sameLength
        have headers : SameHeaders segments
            (segments.set segment
              (before ++ { record with payload := payload } :: after)) := by
          have unchanged :
              (before ++ { record with payload := payload } :: after).map
                  StoredRecord.header =
                (before ++ record :: after).map StoredRecord.header := by
            have header :
                ({ record with payload := payload } : StoredRecord).header =
                  record.header := congrArg (Prod.mk record.id) sameLength
            simp only [List.map_append, List.map_cons, header]
          rw [SameHeaders, List.map_set, unchanged]
          exact (set_same (by simp [present])).symm
        refine ⟨_, tracks.replaced headers ?_, headers⟩
        have overwritten := tracks.files.overwrite named next
        rw [nextBytes, ← List.map_set] at overwritten
        exact overwritten
      · cases written

end Damage

end KalpakDb
