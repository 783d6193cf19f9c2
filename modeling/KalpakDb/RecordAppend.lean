import KalpakDb.RecordStore

namespace KalpakDb

/-!
# Appending to a store with several records of a block

A batch puts its records behind all others, so they are the newest of their
blocks.  Nothing is said of the disk after a batch that fails: the store then
refuses every further append.
-/

open Std (ExtTreeMap)
open Contract
open ByteFile (consecutive)

section Hash

variable (blake3 : Bytes → BlockId) {payload : Payload}

/--
A batch in progress.  The disk has the earlier segments and the flushed part
of the active one; the added records are pending, and the staged ones are all
that the batch has placed so far.
-/
structure Laying
    (start : Node)
    (segments : List (List StoredRecord))
    (repair : Bool)
    (payloads : List Payload)
    (earlier : List (List StoredRecord))
    (active added : List StoredRecord)
    (staged : List (StoredRecord × Location))
    (batch : Batch)
    (state : Node) : Prop where
  files :
    state.disk.Files state.store.files
      ((earlier ++ [active]).map encodeRecords)
  target :
    batch.active.1 = earlier.length ∧
      state.store.files[earlier.length]? = some batch.active.2
  pending :
    batch.pending = consecutive (encodeRecords active).length
      (added.map fun record => encodeRecord record.id record.payload.bytes)
  tail : state.store.tail = (encodeRecords (active ++ added)).length
  index : state.store.index = start.store.index
  rollBytes : state.store.rollBytes = start.store.rollBytes
  accepting : state.store.writeFailed = start.store.writeFailed
  placed :
    placeAll 0 (earlier ++ [active ++ added]) =
      placeAll 0 segments ++ staged
  listed : batch.staged = staged.map indexEntry
  fromBatch :
    ∀ entry ∈ staged,
      ∃ payload ∈ payloads, entry.1 = StoredRecord.of blake3 payload
  fresh :
    repair = false → ∀ entry ∈ staged, entry.1.id ∉ start.store.index

variable {blake3} {start : Node} {segments : List (List StoredRecord)}
  {repair : Bool} {payloads : List Payload} {earlier : List (List StoredRecord)}
  {active added : List StoredRecord}
  {staged : List (StoredRecord × Location)} {batch : Batch} {state : Node}

omit blake3 in
theorem flatten_encodeRecords (records : List StoredRecord) :
    (records.map fun record =>
      encodeRecord record.id record.payload.bytes).flatten =
      encodeRecords records :=
  (List.flatMap_def ..).symm

omit blake3 in
/-- The place of one more record behind all others. -/
theorem placeAll_concat
    (earlier : List (List StoredRecord))
    (active : List StoredRecord)
    (record : StoredRecord) :
    placeAll 0 (earlier ++ [active ++ [record]]) =
      placeAll 0 (earlier ++ [active]) ++
        [(record, {
          segment := earlier.length
          offset := (encodeRecords active).length
          payloadLen := record.payload.bytes.length })] := by
  simp [placeAll_append, placeAll, placeFrom_append, placeFrom]

omit blake3 in
/-- Writing records behind those of a file. -/
theorem writePrefix_records (active added : List StoredRecord) :
    ByteFile.writePrefix
        (ByteFile.totalBytes
          (consecutive (encodeRecords active).length
            (added.map fun record =>
              encodeRecord record.id record.payload.bytes)))
        (consecutive (encodeRecords active).length
          (added.map fun record =>
            encodeRecord record.id record.payload.bytes))
        (encodeRecords active) =
      encodeRecords (active ++ added) := by
  have written := ByteFile.writePrefix_consecutive (encodeRecords active) []
    (added.map fun record => encodeRecord record.id record.payload.bytes)
    (encodeRecords added).length
  rw [ByteFile.totalBytes_consecutive, flatten_encodeRecords]
  rw [flatten_encodeRecords, List.append_nil, List.take_length,
    ByteFile.overlay_empty] at written
  rw [written, encodeRecords_append]

/-- A flush that returns has written all pending records. -/
theorem Laying.ends_flushPending
    (laying :
      Laying blake3 start segments repair payloads earlier active added
        staged batch state) :
    Ends (flushPending batch) state
      (fun _ final =>
        final.store = state.store ∧
        final.disk.Files state.store.files
          ((earlier ++ [active ++ added]).map encodeRecords))
      (fun _ _ => True) := by
  cases added with
  | nil =>
      have nothing : batch.pending = [] := laying.pending
      simpa [flushPending, nothing] using laying.files
  | cons record rest =>
      have nonempty : batch.pending.isEmpty = false := by
        rw [laying.pending]
        rfl
      obtain ⟨file, found, contents⟩ :=
        laying.files.files earlier.length batch.active.2
          (encodeRecords active) laying.target.2 (by simp)
      simp only [flushPending, nonempty, Bool.false_eq_true, if_false]
      refine (ends_writeBatch_file found batch.pending).mono ?_
        (fun _ _ _ => trivial)
      rintro - final ⟨store, -, next, bytes, disk⟩
      rw [contents, laying.pending, writePrefix_records] at bytes
      have written := laying.files.overwrite laying.target.2 next
      rw [bytes] at written
      refine ⟨store, ?_⟩
      rw [disk]
      simpa [Node.setFile] using written

/-- Rolling flushes the pending records and starts an empty segment. -/
theorem Laying.ends_rollSegment
    (laying :
      Laying blake3 start segments repair payloads earlier active added
        staged batch state) :
    Ends (rollSegment batch) state
      (fun next final =>
        Laying blake3 start segments repair payloads
          (earlier ++ [active ++ added]) [] [] staged next final)
      (fun _ _ => True) := by
  rw [rollSegment, ends_bind]
  refine laying.ends_flushPending.imp ?_
  rintro - flushed ⟨store, files⟩
  simp only [ends_bind, ends_get]
  rw [store]
  refine (ends_openSegment_new files).mono ?_ (fun _ _ _ => trivial)
  rintro handle final ⟨rfl, sameStore, disk⟩
  simp only [ends_modify, ends_pure]
  have lengths := files.sameLength
  simp only [List.length_map, List.length_append, List.length_singleton]
    at lengths
  refine {
    files := ?_
    target := ?_
    pending := rfl
    tail := rfl
    index := ?_
    rollBytes := ?_
    accepting := ?_
    placed := ?_
    listed := laying.listed
    fromBatch := laying.fromBatch
    fresh := laying.fresh }
  · simpa [sameStore, store, disk] using files.push
  · simp [sameStore, store, lengths]
  · simpa [sameStore, store] using laying.index
  · simpa [sameStore, store] using laying.rollBytes
  · simpa [sameStore, store] using laying.accepting
  · rw [placeAll_append, laying.placed]
    simp [placeAll, placeFrom]

/-- Staging one record behind the tail. -/
theorem Laying.ends_stageRecord
    (laying :
      Laying blake3 start segments repair payloads earlier active added
        staged batch state)
    (member : payload ∈ payloads)
    (unknown :
      repair = false → blake3 payload.bytes ∉ start.store.index) :
    Ends (stageRecord batch (blake3 payload.bytes) payload) state
      (fun next final =>
        ∃ location,
          Laying blake3 start segments repair payloads earlier active
            (added ++ [.of blake3 payload])
            (staged ++ [(.of blake3 payload, location)]) next final)
      (fun _ _ => True) := by
  simp only [stageRecord, ends_bind, ends_get, ends_modify, ends_pure]
  refine ⟨{
    segment := earlier.length
    offset := (encodeRecords (active ++ added)).length
    payloadLen := payload.bytes.length }, ?_⟩
  refine {
    files := laying.files
    target := laying.target
    pending := ?_
    tail := ?_
    index := laying.index
    rollBytes := laying.rollBytes
    accepting := laying.accepting
    placed := ?_
    listed := ?_
    fromBatch := ?_
    fresh := ?_ }
  · rw [laying.pending, laying.tail, List.map_append,
      ByteFile.consecutive_append, flatten_encodeRecords,
      encodeRecords_append, List.length_append]
    rfl
  · rw [laying.tail, ← List.append_assoc, encodeRecords_append (active ++ added),
      List.length_append, encodeRecords_cons, encodeRecords_nil,
      List.append_nil]
    rfl
  · rw [← List.append_assoc, placeAll_concat, laying.placed,
      List.append_assoc]
    rfl
  · rw [laying.listed, laying.tail, laying.target.1, List.map_append]
    rfl
  · intro entry listed
    rcases List.mem_append.mp listed with before | last
    · exact laying.fromBatch entry before
    · rw [List.mem_singleton.mp last]
      exact ⟨payload, member, rfl⟩
  · intro first entry listed
    rcases List.mem_append.mp listed with before | last
    · exact laying.fresh first entry before
    · rw [List.mem_singleton.mp last]
      exact unknown first

theorem Laying.withFault
    (laying :
      Laying blake3 start segments repair payloads earlier active added
        staged batch state)
    (fault : Option Fault) :
    Laying blake3 start segments repair payloads earlier active added staged
      batch { state with fault := fault } where
  files := laying.files
  target := laying.target
  pending := laying.pending
  tail := laying.tail
  index := laying.index
  rollBytes := laying.rollBytes
  accepting := laying.accepting
  placed := laying.placed
  listed := laying.listed
  fromBatch := laying.fromBatch
  fresh := laying.fresh

/-- Placing one record, in a new segment if the active one is full. -/
theorem Laying.ends_placeRecord
    (laying :
      Laying blake3 start segments repair payloads earlier active added
        staged batch state)
    (member : payload ∈ payloads)
    (unknown :
      repair = false → blake3 payload.bytes ∉ start.store.index)
    (full : Prop)
    [Decidable full] :
    Ends
      (if full then do
          let batch ← rollSegment batch
          stageRecord batch (blake3 payload.bytes) payload
        else
          stageRecord batch (blake3 payload.bytes) payload) state
      (fun next final =>
        ∃ earlier active added location,
          Laying blake3 start segments repair payloads earlier active added
            (staged ++ [(.of blake3 payload, location)]) next final)
      (fun _ _ => True) := by
  split
  · rw [ends_bind]
    refine laying.ends_rollSegment.imp ?_
    intro next rolled rolledLaying
    refine (rolledLaying.ends_stageRecord member unknown).imp ?_
    rintro last final ⟨location, finalLaying⟩
    exact ⟨_, _, _, location, finalLaying⟩
  · refine (laying.ends_stageRecord member unknown).imp ?_
    rintro last final ⟨location, finalLaying⟩
    exact ⟨_, _, _, location, finalLaying⟩

/-- One payload of a batch. -/
theorem Laying.ends_appendOne
    (laying :
      Laying blake3 start segments repair payloads earlier active added
        staged batch state)
    (member : payload ∈ payloads) :
    Ends (appendOne blake3 repair batch payload) state
      (fun next final =>
        ∃ earlier active added staged,
          Laying blake3 start segments repair payloads earlier active added
            staged next final)
      (fun _ _ => True) := by
  rw [appendOne, ends_bind]
  refine (ends_isPresent_any repair _).mono ?_ (fun _ _ _ => trivial)
  rintro present checked ⟨-, absent, fault, rfl⟩
  rw [laying.index] at absent
  split
  · exact ⟨earlier, active, added, staged, laying.withFault fault⟩
  · rename_i unstored
    have unknown (first : repair = false) :
        blake3 payload.bytes ∉ start.store.index := by
      refine absent first ?_
      by_contra isPresent
      exact unstored (by simp [isPresent])
    simp only [ends_bind, ends_get]
    refine ((laying.withFault fault).ends_placeRecord member unknown _).imp
      ?_
    rintro next final ⟨_, _, _, _, finalLaying⟩
    exact ⟨_, _, _, _, finalLaying⟩

/-- Where a batch starts. -/
theorem Node.Tracks.laying
    (tracks : start.Tracks segments)
    (blake3 : Bytes → BlockId)
    (repair : Bool)
    (payloads : List Payload) :
    ∃ handle earlier active,
      start.store.files.getLast? = some handle ∧
      Laying blake3 start segments repair payloads earlier active [] []
        { active := (start.store.files.length - 1, handle) } start := by
  obtain ⟨earlier, active, shape⟩ :=
    (List.eq_nil_or_concat segments).resolve_left tracks.nonempty
  rw [List.concat_eq_append] at shape
  subst shape
  have lengths := tracks.files.sameLength
  simp only [List.length_map, List.length_append, List.length_singleton]
    at lengths
  obtain ⟨handle, file, named, -, -⟩ :=
    tracks.files.file_at
      (show ((earlier ++ [active]).map encodeRecords)[earlier.length]? =
        some (encodeRecords active) by simp)
  have tail := tracks.tail
  rw [List.getLast?_concat, Option.getD_some] at tail
  refine ⟨handle, earlier, active, ?_, ?_⟩
  · rw [List.getLast?_eq_getElem?, lengths, Nat.add_sub_cancel]
    exact named
  · exact {
      files := tracks.files
      target := ⟨by simp [lengths], named⟩
      pending := rfl
      tail := by simpa using tail
      index := rfl
      rollBytes := rfl
      accepting := rfl
      placed := by simp
      listed := rfl
      fromBatch := by simp
      fresh := by simp }

/-- The store after a batch: its records are the newest of their blocks. -/
theorem Laying.tracks
    (tracks : start.Tracks segments)
    (laying :
      Laying blake3 start segments repair payloads earlier active added
        staged batch state)
    {flushed : Node}
    (store : flushed.store = state.store)
    (files :
      flushed.disk.Files state.store.files
        ((earlier ++ [active ++ added]).map encodeRecords)) :
    ({ flushed with
      store := { flushed.store with
        index := flushed.store.index.insertMany batch.staged } } :
      Node).Tracks (earlier ++ [active ++ added]) := by
  refine {
    nonempty := by simp
    files := by simpa only [store] using files
    indexed := ?_
    tail := ?_
    accepting := ?_ }
  · intro id location found
    simp only [store, laying.index, laying.listed,
      getElem?_insertMany_placed] at found
    rw [laying.placed, newest_append]
    cases added : newest staged id with
    | none =>
        rw [added, Option.map_none, Option.none_or] at found
        rw [Option.none_or]
        exact tracks.indexed id location found
    | some entry =>
        rw [added, Option.map_some, Option.some_or] at found
        cases found
        exact ⟨entry.1, rfl⟩
  · simpa [store] using laying.tail
  · simpa [store, laying.accepting] using tracks.accepting

/--
What a batch has done when it returns: it has put some of its payloads behind
all other records, and only missing ones unless it is a repair.
-/
structure Appended
    (blake3 : Bytes → BlockId)
    (start : Node)
    (segments : List (List StoredRecord))
    (repair : Bool)
    (payloads : List Payload)
    (final : Node)
    (after : List (List StoredRecord))
    (added : List Payload) : Prop where
  tracks : final.Tracks after
  records :
    after.flatten =
      segments.flatten ++ added.map (StoredRecord.of blake3)
  fromBatch : ∀ payload ∈ added, payload ∈ payloads
  fresh :
    repair = false →
      ∀ payload ∈ added, blake3 payload.bytes ∉ start.store.index
  published :
    ∀ id, id ∈ final.store.index →
      id ∈ start.store.index ∨ ∃ payload ∈ added, blake3 payload.bytes = id

/-- The staged records of a batch are those of some of its payloads. -/
theorem Laying.appended
    (tracks : start.Tracks segments)
    (laying :
      Laying blake3 start segments repair payloads earlier active added
        staged batch state)
    {flushed : Node}
    (store : flushed.store = state.store)
    (files :
      flushed.disk.Files state.store.files
        ((earlier ++ [active ++ added]).map encodeRecords)) :
    Appended blake3 start segments repair payloads
      { flushed with
        store := { flushed.store with
          index := flushed.store.index.insertMany batch.staged } }
      (earlier ++ [active ++ added])
      (staged.map fun entry => entry.1.payload) := by
  have written :
      staged.map Prod.fst =
        (staged.map fun entry => entry.1.payload).map
          (StoredRecord.of blake3) := by
    rw [List.map_map]
    refine List.map_congr_left ?_
    intro entry member
    obtain ⟨payload, -, same⟩ := laying.fromBatch entry member
    simp [same, StoredRecord.of]
  refine {
    tracks := laying.tracks tracks store files
    records := ?_
    fromBatch := ?_
    fresh := ?_
    published := ?_ }
  · rw [← written, ← map_fst_placeAll 0, laying.placed, List.map_append,
      map_fst_placeAll]
  · intro payload listed
    obtain ⟨entry, member, rfl⟩ := List.mem_map.mp listed
    obtain ⟨payload, inBatch, same⟩ := laying.fromBatch entry member
    rw [same]
    exact inBatch
  · intro first payload listed
    obtain ⟨entry, member, rfl⟩ := List.mem_map.mp listed
    obtain ⟨payload, -, same⟩ := laying.fromBatch entry member
    have unknown := laying.fresh first entry member
    rw [same] at unknown ⊢
    exact unknown
  · intro id indexed
    simp only [store, laying.index, laying.listed,
      ExtTreeMap.mem_insertMany_list, List.map_map] at indexed
    refine indexed.imp_right ?_
    intro listed
    obtain ⟨entry, member, same⟩ :=
      List.mem_map.mp (List.contains_iff_mem.mp listed)
    obtain ⟨payload, -, shape⟩ := laying.fromBatch entry member
    refine ⟨entry.1.payload, List.mem_map_of_mem member, ?_⟩
    rw [← same, Function.comp_apply, indexEntry, shape]
    rfl

/-- A batch is written, and then its records are published. -/
theorem Laying.ends_publish
    (tracks : start.Tracks segments)
    (laying :
      Laying blake3 start segments repair payloads earlier active added
        staged batch state) :
    Ends (flushPending batch) state
      (fun _ flushed =>
        Ends
          (if batch.rolled = true then do
              syncDir
              modify fun node : Node =>
                { node with
                  store := { node.store with
                    index := node.store.index.insertMany batch.staged } }
            else
              modify fun node : Node =>
                { node with
                  store := { node.store with
                    index := node.store.index.insertMany batch.staged } })
          flushed
          (fun _ final =>
            ∃ after,
              Appended blake3 start segments repair payloads final after
                (staged.map fun entry => entry.1.payload))
          (fun _ _ => True))
      (fun _ _ => True) := by
  refine laying.ends_flushPending.imp ?_
  rintro - flushed ⟨store, files⟩
  have published (fault : Option Fault) :=
    laying.appended tracks
      (show ({ flushed with fault := fault } : Node).store = state.store
        from store) files
  split
  · rw [ends_bind, syncDir]
    exact ends_ioStep (fun fault => ⟨_, published fault⟩) trivial
  · exact ⟨_, published flushed.fault⟩

section Newest

variable {final : Node} {after : List (List StoredRecord)}
  {stored : List Payload} {id : BlockId}

/-- The newest record is one that was added, or else the one from before. -/
theorem Appended.newest_eq
    (appended :
      Appended blake3 start segments repair payloads final after stored)
    (id : BlockId) :
    (newest (placeAll 0 after) id).map Prod.fst =
      ((stored.map (StoredRecord.of blake3)).reverse.find?
          fun record => record.id = id).or
        ((newest (placeAll 0 segments) id).map Prod.fst) := by
  rw [map_fst_newest, map_fst_newest, appended.records, List.reverse_append,
    List.find?_append]

/-- Reading a block of a batch: what was there already was not checked. -/
theorem Appended.read_iff
    (appended :
      Appended blake3 start segments false payloads final after stored)
    (tracks : start.Tracks segments)
    (indexed : id ∈ final.store.index)
    {payload : Payload}
    (digest : blake3 payload.bytes = id)
    (noCollision :
      ∀ other ∈ payloads, blake3 other.bytes = id → other = payload) :
    final.read blake3 id = .ok payload.bytes ↔
      id ∉ start.store.index ∨
        start.read blake3 id = .ok payload.bytes := by
  have last := appended.newest_eq id
  by_cases before : id ∈ start.store.index
  · have notAdded :
        ((stored.map (StoredRecord.of blake3)).reverse.find?
          fun record => record.id = id) = none := by
      rw [List.find?_eq_none]
      intro record member
      obtain ⟨other, isAdded, rfl⟩ :=
        List.mem_map.mp (List.mem_reverse.mp member)
      simp only [decide_eq_true_eq]
      rintro rfl
      exact appended.fresh rfl other isAdded before
    rw [notAdded, Option.none_or] at last
    rw [appended.tracks.read_ok_iff, tracks.read_ok_iff, last]
    simp [indexed, before]
  · refine iff_of_true ?_ (Or.inl before)
    obtain ⟨other, isAdded, sameDigest⟩ :=
      (appended.published id indexed).resolve_left before
    have found : ((stored.map (StoredRecord.of blake3)).reverse.find?
        fun record => record.id = id).isSome = true := by
      rw [List.find?_isSome]
      exact ⟨.of blake3 other,
        List.mem_reverse.mpr (List.mem_map_of_mem isAdded),
        decide_eq_true sameDigest⟩
    obtain ⟨record, isRecord⟩ := Option.isSome_iff_exists.mp found
    obtain ⟨newer, newerAdded, rfl⟩ := List.mem_map.mp
      (List.mem_reverse.mp (List.mem_of_find?_eq_some isRecord))
    have sameNewer := List.find?_some isRecord
    rw [decide_eq_true_eq] at sameNewer
    have isPayload := noCollision newer
      (appended.fromBatch newer newerAdded) sameNewer
    subst isPayload
    rw [isRecord, Option.some_or] at last
    exact appended.tracks.read_ok_iff.mpr ⟨indexed, _, last, rfl, digest⟩

end Newest

theorem Node.Tracks.ends_appendAll
    (tracks : start.Tracks segments)
    (payloads : List Payload)
    (repair : Bool) :
    Ends (appendAll blake3 payloads repair) start
      (fun _ final =>
        ∃ after added,
          Appended blake3 start segments repair payloads final after added)
      (fun _ _ => True) := by
  obtain ⟨handle, earlier, active, last, initially⟩ :=
    tracks.laying blake3 repair payloads
  simp only [appendAll, ends_bind, ends_get, last]
  refine (ends_foldlM
    (fun (batch : Batch) remaining state =>
      (∀ payload ∈ remaining, payload ∈ payloads) ∧
      ∃ earlier active added staged,
        Laying blake3 start segments repair payloads earlier active added
          staged batch state) ?_ ?_).imp ?_
  · rintro batch payload rest state
      ⟨members, earlier, active, added, staged, laying⟩
    refine (laying.ends_appendOne (members payload (by simp))).imp ?_
    intro next final extended
    exact ⟨fun other member => members other (by simp [member]), extended⟩
  · exact ⟨fun _ member => member, earlier, active, [], [], initially⟩
  · rintro batch state ⟨-, earlier, active, added, staged, laying⟩
    refine (laying.ends_publish tracks).imp ?_
    intro _ flushed publishes
    refine publishes.imp ?_
    rintro _ final ⟨after, appended⟩
    exact ⟨after, _, appended⟩

/-- A batch on a store with records; one that fails is the last. -/
theorem Node.Tracks.ends_putManyInner
    (tracks : start.Tracks segments)
    (payloads : List Payload)
    (repair : Bool) :
    Ends (putManyInner blake3 payloads repair) start
      (fun ids final =>
        ids = payloads.map (fun payload => blake3 payload.bytes) ∧
        ∃ after added,
          Appended blake3 start segments repair payloads final after added)
      (fun _ final => final.store.writeFailed = true) := by
  simp only [putManyInner, ends_bind, ends_get, tracks.accepting,
    Bool.false_eq_true, if_false, ends_onFailure]
  refine (tracks.ends_appendAll payloads repair).mono ?_ ?_
  · intro _ final appended
    exact ⟨rfl, appended⟩
  · exact fun _ _ _ => trivial

end Hash

end KalpakDb
