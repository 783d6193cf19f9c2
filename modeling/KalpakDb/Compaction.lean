import KalpakDb.RecordCompaction
import KalpakDb.StoreAppend

namespace KalpakDb

/-!
# Compacting an undamaged store

Where no record was damaged or superseded, every record on disk is indexed
and no two have the same digest.  Compaction then keeps exactly the live
records of the sealed segments and all records of the active one.
-/

open Std (ExtTreeMap)
open Contract

section Hash

variable {blake3 : Bytes → BlockId}

/-! ## Images and records -/

/-- The records of an image, as they are stored. -/
def SegmentImage.stored
    (blake3 : Bytes → BlockId)
    (image : SegmentImage) : List StoredRecord :=
  image.records.map (.of blake3)

/-- The image of some records with nothing behind them. -/
def plainImage (records : List StoredRecord) : SegmentImage where
  records := records.map StoredRecord.payload
  residue := []

section Images

variable {node : Node} {images : List SegmentImage}
  {segments : List (List StoredRecord)}

theorem locateImages_eq
    (segment : Nat)
    (images : List SegmentImage) :
    locateImages blake3 segment images =
      (placeAll segment (images.map (SegmentImage.stored blake3))).map
        indexEntry := by
  induction images generalizing segment with
  | nil =>
      rfl
  | cons image rest inductionHypothesis =>
      simp only [locateImages, List.map_cons, placeAll, List.map_append,
        locateFrom_eq, inductionHypothesis, SegmentImage.stored]

theorem map_id_flatten_stored (images : List SegmentImage) :
    (images.map (SegmentImage.stored blake3)).flatten.map StoredRecord.id =
      (storedPayloads images).map fun payload => blake3 payload.bytes := by
  induction images with
  | nil =>
      rfl
  | cons image rest inductionHypothesis =>
      simp only [List.map_cons, List.flatten_cons, List.map_append,
        storedPayloads, List.flatMap_cons] at inductionHypothesis ⊢
      rw [inductionHypothesis, SegmentImage.stored, List.map_map]
      rfl

/-- Without superseded records every record is the newest of its block. -/
theorem newest_of_nodup
    (distinct : (segments.flatten.map StoredRecord.id).Nodup)
    {record : StoredRecord}
    {location : Location}
    (member : (record, location) ∈ placeAll 0 segments) :
    newest (placeAll 0 segments) record.id = some (record, location) := by
  rw [← map_fst_placeAll 0 segments, List.map_map] at distinct
  cases found : newest (placeAll 0 segments) record.id with
  | none =>
      exact absurd rfl (newest_eq_none_iff.mp found _ member)
  | some entry =>
      obtain ⟨other, place⟩ := entry
      obtain ⟨placed, same⟩ := mem_of_newest found
      rw [List.inj_on_of_nodup_map distinct placed member same]

/-- An undamaged store without residue as one over records. -/
theorem Node.Serves.tracksRecords
    (serves : node.Serves blake3 images)
    (tight : ∀ image ∈ images, image.residue = []) :
    node.Tracks (images.map (SegmentImage.stored blake3)) := by
  have contents :
      images.map (SegmentImage.contents blake3) =
        (images.map (SegmentImage.stored blake3)).map encodeRecords := by
    rw [List.map_map]
    refine List.map_congr_left fun image member => ?_
    rw [SegmentImage.contents, tight image member, List.append_nil,
      encodeAll_eq]
    rfl
  refine {
    nonempty := by simpa using serves.nonempty
    files := contents ▸ serves.holds.toFiles
    indexed := ?_
    tail := ?_
    accepting := serves.accepting }
  · intro id location indexed
    have located := (serves.located id location).mp indexed
    rw [locateImages_eq] at located
    obtain ⟨⟨record, place⟩, placed, same⟩ := List.mem_map.mp located
    cases same
    refine ⟨record, newest_of_nodup ?_ placed⟩
    rw [map_id_flatten_stored]
    exact serves.distinct
  · rw [serves.tail, lastTail, List.getLast?_map]
    cases images.getLast? with
    | none => rfl
    | some image => simp [SegmentImage.tail, encodeAll_eq, SegmentImage.stored]

theorem stored_plainImage
    {records : List StoredRecord}
    (honest :
      ∀ record ∈ records, record.id = blake3 record.payload.bytes) :
    (plainImage records).stored blake3 = records := by
  rw [plainImage, SegmentImage.stored, List.map_map,
    List.map_congr_left (g := id), List.map_id]
  intro record member
  have digest := honest record member
  cases record
  simp_all [StoredRecord.of]

theorem contents_plainImage
    {records : List StoredRecord}
    (honest :
      ∀ record ∈ records, record.id = blake3 record.payload.bytes) :
    encodeAll blake3 (plainImage records).records =
      encodeRecords records := by
  have stored := stored_plainImage honest
  rw [SegmentImage.stored] at stored
  rw [encodeAll_eq, stored]

/-- A store over records that are all honest, indexed and distinct. -/
theorem Node.Tracks.serves
    (tracks : node.Tracks segments)
    (honest : ∀ record ∈ segments.flatten, record.id =
      blake3 record.payload.bytes)
    (distinct : (segments.flatten.map StoredRecord.id).Nodup)
    (indexed :
      ∀ record ∈ segments.flatten, record.id ∈ node.store.index) :
    node.Serves blake3 (segments.map plainImage) := by
  have honestIn {records : List StoredRecord} (present : records ∈ segments)
      (record : StoredRecord) (member : record ∈ records) :
      record.id = blake3 record.payload.bytes :=
    honest record (List.mem_flatten.mpr ⟨records, present, member⟩)
  have stored :
      (segments.map plainImage).map (SegmentImage.stored blake3) =
        segments := by
    rw [List.map_map, List.map_congr_left (g := id), List.map_id]
    exact fun records present => stored_plainImage (honestIn present)
  have contents :
      (segments.map plainImage).map (SegmentImage.contents blake3) =
        segments.map encodeRecords := by
    rw [List.map_map]
    refine List.map_congr_left fun records present => ?_
    rw [Function.comp_apply, SegmentImage.contents,
      contents_plainImage (honestIn present)]
    exact List.append_nil _
  refine {
    nonempty := by simpa using tracks.nonempty
    holds := .ofFiles (contents ▸ tracks.files) ?_
    located := ?_
    distinct := ?_
    tail := ?_
    accepting := tracks.accepting }
  · intro image member
    obtain ⟨records, -, rfl⟩ := List.mem_map.mp member
    exact SegmentImage.stops_of_noResidue blake3 _ rfl
  · intro id location
    rw [locateImages_eq, stored]
    constructor
    · intro found
      obtain ⟨record, last⟩ := tracks.indexed id location found
      obtain ⟨placed, same⟩ := mem_of_newest last
      exact List.mem_map.mpr ⟨(record, location), placed, by
        rw [indexEntry, same]⟩
    · intro located
      obtain ⟨⟨record, place⟩, placed, same⟩ := List.mem_map.mp located
      cases same
      have listed : record ∈ segments.flatten := by
        rw [← map_fst_placeAll 0 segments]
        exact List.mem_map_of_mem placed
      obtain ⟨other, location, found, last⟩ :=
        tracks.newest_of_mem (indexed record listed)
      rw [newest_of_nodup distinct placed] at last
      cases last
      exact found
  · rw [← map_id_flatten_stored, stored]
    exact distinct
  · rw [tracks.tail, lastTail, List.getLast?_map]
    cases last : segments.getLast? with
    | none => rfl
    | some records =>
        have present : records ∈ segments := List.mem_of_getLast? last
        simp only [Option.map_some, Option.getD_some, SegmentImage.tail,
          contents_plainImage (honestIn present)]

end Images

/-! ## Compaction -/

section Compact

variable {node final : Node} {images : List SegmentImage}
  {segments after : List (List StoredRecord)} {live : BlockId → Bool}
  {segment : Nat}

/-- The records of the segment at a position, if there is one. -/
def recordsAt (images : List SegmentImage) (position : Nat) : List Payload :=
  (images[position]?.map SegmentImage.records).getD []

omit blake3 in
theorem mem_storedPayloads
    {payload : Payload} :
    payload ∈ storedPayloads images ↔
      ∃ position, payload ∈ recordsAt images position := by
  rw [storedPayloads, List.mem_flatMap]
  constructor
  · rintro ⟨image, listed, member⟩
    obtain ⟨position, present⟩ := List.mem_iff_getElem?.mp listed
    exact ⟨position, by simpa [recordsAt, present] using member⟩
  · rintro ⟨position, member⟩
    cases present : images[position]? with
    | none =>
        simp [recordsAt, present] at member
    | some image =>
        refine ⟨image, List.mem_of_getElem? present, ?_⟩
        simpa [recordsAt, present] using member

/-- The records of one segment, among all. -/
theorem mem_locateFrom_iff
    {image : SegmentImage}
    (present : images[segment]? = some image)
    {id : BlockId}
    {location : Location} :
    (id, location) ∈ locateFrom blake3 segment 0 image.records ↔
      (id, location) ∈ locateImages blake3 0 images ∧
        location.segment = segment := by
  rw [mem_locateImages]
  constructor
  · intro located
    exact ⟨⟨segment, image, present, by rwa [Nat.zero_add]⟩,
      segment_of_mem_locateFrom blake3 located⟩
  · rintro ⟨⟨position, found, foundAt, located⟩, inSegment⟩
    rw [Nat.zero_add] at located
    have same := segment_of_mem_locateFrom blake3 located
    rw [inSegment] at same
    subst same
    rw [present] at foundAt
    cases foundAt
    exact located

/-- Compaction only removes records. -/
theorem Compacted.flatten_subperm
    (compacted : Compacted live node segments final after) :
    after.flatten.Subperm segments.flatten := by
  have lengths := compacted.sameLength
  have pointwise := compacted.fromBefore
  clear compacted
  induction after generalizing segments with
  | nil =>
      exact List.nil_subperm
  | cons records rest inductionHypothesis =>
      cases segments with
      | nil =>
          cases lengths
      | cons before others =>
          obtain ⟨_, same, first⟩ := pointwise 0 records rfl
          cases same
          refine first.append (inductionHypothesis ?_ ?_)
          · simpa using lengths
          · exact fun segment found present =>
              pointwise (segment + 1) found present

/-- What compaction leaves of a store whose records are all indexed. -/
structure Swept
    (live : BlockId → Bool)
    (node : Node)
    (segments : List (List StoredRecord))
    (final : Node)
    (after : List (List StoredRecord)) : Prop where
  indexed :
    ∀ (segment : Nat) (records : List StoredRecord) (record : StoredRecord),
      segments[segment]? = some records →
      record ∈ records →
        segmentOf node.store.index record.id = some segment
  compacted : Compacted live node segments final after
  dropped :
    Dropped live (fun segment => decide (segment < segments.length - 1))
      node.store.index final.store.index
  swept :
    SweptBelow live node.store.index (segments.length - 1) segments after

/-- The records that are left in sealed segments are live. -/
theorem Swept.live_of_mem
    (swept : Swept live node segments final after)
    {records : List StoredRecord}
    (present : after[segment]? = some records)
    {record : StoredRecord}
    (member : record ∈ records)
    (isSealed : segment + 1 < segments.length) :
    live record.id = true := by
  have below : segment < segments.length - 1 := by
    omega
  by_cases dead : HasDead live node.store.index segment
  · exact swept.swept.swept segment records present below dead record member
  · obtain ⟨before, beforePresent, subperm⟩ :=
      swept.compacted.fromBefore segment records present
    have here := swept.indexed segment before record beforePresent
      (subperm.subset member)
    by_contra notLive
    exact dead ⟨record.id, here, by simpa using notLive⟩

/-- The segment of a block that is still indexed. -/
theorem Swept.segmentOf_eq
    (swept : Swept live node segments final after)
    {records : List StoredRecord}
    (present : segments[segment]? = some records)
    {record : StoredRecord}
    (member : record ∈ records)
    (alive : segment + 1 < segments.length → live record.id = true) :
    segmentOf final.store.index record.id = some segment := by
  have within := (List.getElem?_eq_some_iff.mp present).1
  rw [swept.dropped, swept.indexed segment records record present member]
  rw [Option.filter_eq_some_iff]
  refine ⟨rfl, ?_⟩
  by_cases isSealed : segment + 1 < segments.length
  · simp [alive isSealed]
  · have active : ¬ segment < segments.length - 1 := by
      omega
    simp [active]

theorem Swept.indexed_after
    (swept : Swept live node segments final after)
    (record : StoredRecord)
    (member : record ∈ after.flatten) :
    record.id ∈ final.store.index := by
  obtain ⟨records, listed, inRecords⟩ := List.mem_flatten.mp member
  obtain ⟨segment, present⟩ := List.mem_iff_getElem?.mp listed
  obtain ⟨before, found, subperm⟩ :=
    swept.compacted.fromBefore segment records present
  rw [mem_iff_segmentOf, swept.segmentOf_eq found (subperm.subset inRecords)
    (swept.live_of_mem present inRecords)]
  rfl

theorem Swept.distinct
    (swept : Swept live node segments final after)
    (distinct : (segments.flatten.map StoredRecord.id).Nodup) :
    (after.flatten.map StoredRecord.id).Nodup := by
  obtain ⟨arranged, permuted, sublist⟩ := swept.compacted.flatten_subperm
  rw [← (permuted.map StoredRecord.id).nodup_iff]
  exact distinct.sublist (sublist.map StoredRecord.id)

/-- The records of a compacted segment. -/
theorem Swept.mem_iff
    (swept : Swept live node segments final after)
    (distinct : (segments.flatten.map StoredRecord.id).Nodup)
    {record : StoredRecord} :
    record ∈ after[segment]?.getD [] ↔
      record ∈ segments[segment]?.getD [] ∧
        (segment + 1 < segments.length → live record.id = true) := by
  constructor
  · intro member
    cases present : after[segment]? with
    | none =>
        simp [present] at member
    | some records =>
        rw [present, Option.getD_some] at member
        obtain ⟨before, found, subperm⟩ :=
          swept.compacted.fromBefore segment records present
        rw [found]
        exact ⟨subperm.subset member, swept.live_of_mem present member⟩
  · rintro ⟨member, alive⟩
    cases present : segments[segment]? with
    | none =>
        simp [present] at member
    | some records =>
        rw [present, Option.getD_some] at member
        obtain ⟨location, inSegment, isAt⟩ := Option.map_eq_some_iff.mp
          (swept.segmentOf_eq present member alive)
        obtain ⟨other, last⟩ := swept.compacted.tracks.indexed _ _ inSegment
        obtain ⟨place, placed, -⟩ := exists_placed present member
        have unchanged := (swept.compacted.kept record.id (by
          rw [ExtTreeMap.mem_iff_isSome_getElem?, inSegment]
          rfl)).2
        rw [last, newest_of_nodup distinct placed] at unchanged
        cases unchanged
        obtain ⟨left, found, stays⟩ := record_of_placed (mem_of_newest last).1
        rw [isAt] at found
        rw [found]
        exact stays

/-- A served store has every record indexed in its segment. -/
theorem Node.Serves.segmentOf_stored
    (serves : node.Serves blake3 images)
    (segment : Nat)
    (records : List StoredRecord)
    (record : StoredRecord)
    (present :
      (images.map (SegmentImage.stored blake3))[segment]? = some records)
    (member : record ∈ records) :
    segmentOf node.store.index record.id = some segment := by
  obtain ⟨location, placed, inSegment⟩ := exists_placed present member
  have indexed : node.store.index[record.id]? = some location := by
    rw [serves.located, locateImages_eq]
    exact List.mem_map_of_mem placed
  rw [segmentOf, indexed, Option.map_some, inSegment]

theorem mem_stored_iff
    {position : Nat}
    {payload : Payload} :
    StoredRecord.of blake3 payload ∈
        (images.map (SegmentImage.stored blake3))[position]?.getD [] ↔
      payload ∈ recordsAt images position := by
  rw [recordsAt, List.getElem?_map]
  cases images[position]? with
  | none =>
      simp
  | some image =>
      simp [SegmentImage.stored, StoredRecord.of]

theorem mem_recordsAt_plainImage
    (honest :
      ∀ record ∈ after.flatten, record.id = blake3 record.payload.bytes)
    {position : Nat}
    {payload : Payload} :
    payload ∈ recordsAt (after.map plainImage) position ↔
      StoredRecord.of blake3 payload ∈ after[position]?.getD [] := by
  rw [recordsAt, List.getElem?_map]
  cases present : after[position]? with
  | none =>
      simp
  | some records =>
      simp only [Option.map_some, Option.getD_some, plainImage, List.mem_map]
      constructor
      · rintro ⟨record, member, rfl⟩
        have digest := honest record (List.mem_flatten.mpr
          ⟨records, List.mem_of_getElem? present, member⟩)
        rw [StoredRecord.of, ← digest]
        exact member
      · exact fun member => ⟨_, member, rfl⟩

/--
Compaction keeps the live records of the sealed segments and all records of
the active one.  It fails only where a step of the environment does.
-/
theorem ends_compact
    (serves : node.Serves blake3 images)
    (tight : ∀ image ∈ images, image.residue = [])
    (live : BlockId → Bool)
    (order : IterationOrder) :
    Ends (compact blake3 live order) node
      (fun _ final =>
        ∃ after,
          final.Serves blake3 after ∧
          (∀ image ∈ after, image.residue = []) ∧
          ∀ position payload,
            payload ∈ recordsAt after position ↔
              payload ∈ recordsAt images position ∧
                (position + 1 < images.length →
                  live (blake3 payload.bytes) = true))
      (fun error _ => error = .io .failed) := by
  have tracks := serves.tracksRecords tight
  have distinct :
      ((images.map (SegmentImage.stored blake3)).flatten.map
        StoredRecord.id).Nodup := by
    rw [map_id_flatten_stored]
    exact serves.distinct
  have honest :
      ∀ record ∈ (images.map (SegmentImage.stored blake3)).flatten,
        record.id = blake3 record.payload.bytes := by
    intro record member
    obtain ⟨records, listed, inRecords⟩ := List.mem_flatten.mp member
    obtain ⟨image, -, rfl⟩ := List.mem_map.mp listed
    obtain ⟨payload, -, rfl⟩ := List.mem_map.mp inRecords
    rfl
  refine (tracks.ends_compact live order).mono ?_ ?_
  · rintro _ final ⟨after, compacted, dropped, sweptBelow⟩
    have swept : Swept live node
        (images.map (SegmentImage.stored blake3)) final after :=
      ⟨serves.segmentOf_stored, compacted, dropped, sweptBelow⟩
    have honestAfter :
        ∀ record ∈ after.flatten, record.id = blake3 record.payload.bytes :=
      fun record member =>
        honest record (compacted.flatten_subperm.subset member)
    refine ⟨after.map plainImage,
      compacted.tracks.serves honestAfter (swept.distinct distinct)
        swept.indexed_after, ?_, ?_⟩
    · intro image member
      obtain ⟨records, -, rfl⟩ := List.mem_map.mp member
      rfl
    · intro position payload
      rw [mem_recordsAt_plainImage honestAfter, swept.mem_iff distinct,
        mem_stored_iff, List.length_map]
      rfl
  · rintro error final ⟨failed | ⟨id, -, -, record, found, differs⟩, -⟩
    · exact failed
    · obtain ⟨⟨_, location⟩, last, rfl⟩ := Option.map_eq_some_iff.mp found
      obtain ⟨placed, rfl⟩ := mem_of_newest last
      obtain ⟨records, present, member⟩ := record_of_placed placed
      exact absurd (honest _ (List.mem_flatten.mpr
        ⟨records, List.mem_of_getElem? present, member⟩)).symm differs

end Compact

end Hash

end KalpakDb
