import KalpakDb.SegmentFiles
import KalpakDb.SegmentImage

namespace KalpakDb

/-!
# Recovering a store

A disk holds a list of segment images when its directory names one file for
each and the files have their contents.  Opening such a disk yields a store
whose index locates every complete record.  Reading through that index then
returns each stored payload, and verification finds nothing wrong.
-/

open Std (ExtTreeMap)
open Contract

section Hash

variable (blake3 : Bytes → BlockId) {id : BlockId} {location : Location}

/-! ## Locations in a list of images -/

/-- The locations of all complete records, segment by segment. -/
def locateImages : Nat → List SegmentImage → List (BlockId × Location)
  | _, [] => []
  | segment, image :: rest =>
      locateFrom blake3 segment 0 image.records ++
        locateImages (segment + 1) rest

/-- The payloads of all complete records. -/
def storedPayloads (images : List SegmentImage) : List Payload :=
  images.flatMap SegmentImage.records

/-- Where the complete records of the last segment end. -/
def lastTail (images : List SegmentImage) : Nat :=
  (images.getLast?.map (SegmentImage.tail blake3)).getD 0

@[simp] theorem lastTail_concat
    (earlier : List SegmentImage)
    (image : SegmentImage) :
    lastTail blake3 (earlier ++ [image]) = image.tail blake3 := by
  simp [lastTail]

theorem locateImages_append
    (segment : Nat)
    (first second : List SegmentImage) :
    locateImages blake3 segment (first ++ second) =
      locateImages blake3 segment first ++
        locateImages blake3 (segment + first.length) second := by
  induction first generalizing segment with
  | nil =>
      rfl
  | cons image rest inductionHypothesis =>
      simp only [List.cons_append, locateImages, inductionHypothesis,
        List.append_assoc, List.length_cons]
      rw [Nat.add_assoc, Nat.add_comm 1]

@[simp] theorem map_fst_locateImages
    (segment : Nat)
    (images : List SegmentImage) :
    (locateImages blake3 segment images).map Prod.fst =
      (storedPayloads images).map fun payload => blake3 payload.bytes := by
  induction images generalizing segment with
  | nil =>
      rfl
  | cons image rest inductionHypothesis =>
      simp [locateImages, storedPayloads, inductionHypothesis]

theorem mem_locateFrom
    {segment offset : Nat}
    {payloads : List Payload}
    (located : (id, location) ∈ locateFrom blake3 segment offset payloads) :
    ∃ before payload after,
      payloads = before ++ payload :: after ∧
      id = blake3 payload.bytes ∧
      location = {
        segment := segment
        offset := offset + (encodeAll blake3 before).length
        payloadLen := payload.bytes.length } := by
  rw [locateFrom_eq, List.mem_map] at located
  obtain ⟨⟨record, place⟩, placed, same⟩ := located
  cases same
  obtain ⟨before, after, split, rfl⟩ := mem_placeFrom placed
  obtain ⟨front, rest, rfl, rfl, tail⟩ := List.map_eq_append_iff.mp split
  obtain ⟨payload, back, rfl, rfl, rfl⟩ := List.map_eq_cons_iff.mp tail
  exact ⟨front, payload, back, rfl, rfl, by rw [encodeAll_eq]; rfl⟩

theorem mem_locateImages
    {segment : Nat}
    {images : List SegmentImage}
    {entry : BlockId × Location} :
    entry ∈ locateImages blake3 segment images ↔
      ∃ position image,
        images[position]? = some image ∧
          entry ∈ locateFrom blake3 (segment + position) 0 image.records :=
  mem_numbered (locateImages blake3)
    (fun number image => locateFrom blake3 number 0 image.records)
    (fun _ => rfl) (fun _ _ _ => rfl)

/-- A record is located in its own segment. -/
theorem segment_of_mem_locateFrom
    {segment offset : Nat}
    {payloads : List Payload}
    (located : (id, location) ∈ locateFrom blake3 segment offset payloads) :
    location.segment = segment := by
  obtain ⟨before, payload, after, -, -, shape⟩ := mem_locateFrom blake3 located
  rw [shape]

/-! ## Disks that hold images -/

/-- One directory entry and one file for each image. -/
structure Disk.Holds
    (disk : Disk)
    (handles : List Nat)
    (images : List SegmentImage) : Prop where
  entries : ∀ segment : Nat, disk.segments[segment]? = handles[segment]?
  distinct : handles.Nodup
  sameLength : handles.length = images.length
  files :
    ∀ (position handle : Nat) (image : SegmentImage),
      handles[position]? = some handle →
      images[position]? = some image →
        ∃ file : SegmentFile,
          disk.objects[handle]? = some file ∧
            file.bytes = image.contents blake3
  stops : ∀ image ∈ images, image.Stops blake3
  temporariesApart :
    ∀ segment handle : Nat, disk.temporaries[segment]? = some handle →
      handle < disk.objects.length ∧ handle ∉ handles
  temporariesDistinct :
    ∀ first second handle : Nat,
      disk.temporaries[first]? = some handle →
      disk.temporaries[second]? = some handle →
        first = second

/-- An open store whose index locates exactly the records on its disk. -/
structure Node.Serves (node : Node) (images : List SegmentImage) : Prop where
  nonempty : images ≠ []
  holds : node.disk.Holds blake3 node.store.files images
  located :
    ∀ (id : BlockId) (location : Location),
      node.store.index[id]? = some location ↔
        (id, location) ∈ locateImages blake3 0 images
  distinct :
    ((storedPayloads images).map fun payload => blake3 payload.bytes).Nodup
  tail : node.store.tail = lastTail blake3 images
  accepting : node.store.writeFailed = false

variable {blake3} {node : Node} {images : List SegmentImage}

/-- What lies ahead of a process does not change what it serves. -/
theorem Node.Serves.withFault
    (serves : node.Serves blake3 images)
    (fault : Option Fault) :
    ({ node with fault := fault } : Node).Serves blake3 images where
  nonempty := serves.nonempty
  holds := serves.holds
  located := serves.located
  distinct := serves.distinct
  tail := serves.tail
  accepting := serves.accepting

namespace Disk.Holds

variable {disk : Disk} {handles : List Nat}

theorem toFiles (holds : disk.Holds blake3 handles images) :
    disk.Files handles (images.map (SegmentImage.contents blake3)) := by
  refine {
    entries := holds.entries
    distinct := holds.distinct
    sameLength := by simpa using holds.sameLength
    files := ?_
    temporariesApart := holds.temporariesApart
    temporariesDistinct := holds.temporariesDistinct }
  intro position handle bytes named present
  rw [List.getElem?_map, Option.map_eq_some_iff] at present
  obtain ⟨image, found, rfl⟩ := present
  exact holds.files position handle image named found

theorem ofFiles
    (files :
      disk.Files handles (images.map (SegmentImage.contents blake3)))
    (stops : ∀ image ∈ images, image.Stops blake3) :
    disk.Holds blake3 handles images := by
  refine {
    entries := files.entries
    distinct := files.distinct
    sameLength := by simpa using files.sameLength
    files := ?_
    stops := stops
    temporariesApart := files.temporariesApart
    temporariesDistinct := files.temporariesDistinct }
  intro position handle image named present
  exact files.files position handle _ named (by simp [present])

theorem file_at
    (holds : disk.Holds blake3 handles images)
    {position : Nat}
    {image : SegmentImage}
    (present : images[position]? = some image) :
    ∃ handle file,
      handles[position]? = some handle ∧
        disk.objects[handle]? = some file ∧
        file.bytes = image.contents blake3 :=
  holds.toFiles.file_at (by simp [present])

/-- The directory lists the segments in order. -/
theorem keys_segments (holds : disk.Holds blake3 handles images) :
    disk.segments.keys = List.range images.length := by
  simpa using holds.toFiles.keys_segments

/-- Scanning a segment finds its records. -/
theorem scan_file
    (holds : disk.Holds blake3 handles images)
    {position : Nat}
    {image : SegmentImage}
    (present : images[position]? = some image)
    {file : SegmentFile}
    (contents : file.bytes = image.contents blake3) :
    scan position file.bytes =
      some (locateFrom blake3 position 0 image.records,
        image.tail blake3) := by
  have stops := holds.stops image (List.mem_of_getElem? present)
  rw [SegmentImage.Stops, ← contents] at stops
  exact scan_encodeAll blake3 position contents file.length_lt stops

end Disk.Holds

/-! ## Opening -/

/-- What the scan of the first segments collects. -/
def recoveredFrom
    (blake3 : Bytes → BlockId)
    (handles : List Nat)
    (images : List SegmentImage) : Recovered where
  index := ExtTreeMap.insertMany ∅ (locateImages blake3 0 images)
  files := handles
  tail := lastTail blake3 images

/-- What the scan of each segment finds. -/
def imageScans
    (blake3 : Bytes → BlockId)
    (images : List SegmentImage) : List (List (BlockId × Location) × Nat) :=
  images.mapIdx fun position image =>
    (locateFrom blake3 position 0 image.records, image.tail blake3)

theorem flatMap_mapIdx_locateFrom
    (blake3 : Bytes → BlockId)
    (segment : Nat)
    (images : List SegmentImage) :
    (images.mapIdx fun position image =>
        (locateFrom blake3 (segment + position) 0 image.records,
          image.tail blake3)).flatMap Prod.fst =
      locateImages blake3 segment images := by
  induction images generalizing segment with
  | nil =>
      rfl
  | cons image rest inductionHypothesis =>
      have later := inductionHypothesis (segment + 1)
      simp only [List.mapIdx_cons, List.flatMap_cons, locateImages]
      rw [← later]
      simp only [Nat.add_zero, Nat.add_assoc, Nat.add_comm 1]

theorem recoveredScans_images
    (handles : List Nat)
    (images : List SegmentImage) :
    recoveredScans handles (imageScans blake3 images) =
      recoveredFrom blake3 handles images := by
  have located := flatMap_mapIdx_locateFrom blake3 0 images
  simp only [Nat.zero_add] at located
  simp only [recoveredScans, recoveredFrom, imageScans, located, lastTail,
    List.getLast?_mapIdx, Option.map_map]
  rfl

/-- Opening a disk with segments indexes every record and changes nothing. -/
theorem ends_openWith
    {handles : List Nat}
    (holds : node.disk.Holds blake3 handles images)
    (noFault : node.fault = none)
    (nonempty : images ≠ []) :
    Ends openWith node
      (fun _ final =>
        final = { node with
          store := {
            index := ExtTreeMap.insertMany ∅ (locateImages blake3 0 images)
            files := handles
            tail := lastTail blake3 images } })
      (fun _ _ => False) := by
  have opened := ends_openWith_scans holds.toFiles noFault
    (by simpa using nonempty)
    (show (imageScans blake3 images).length =
      (images.map (SegmentImage.contents blake3)).length by
        simp [imageScans]) ?_
  · rw [recoveredScans_images] at opened
    exact opened
  · intro position bytes found present scanned
    simp only [imageScans, List.getElem?_mapIdx, Option.map_eq_some_iff,
      List.getElem?_map] at present scanned
    obtain ⟨image, imageAt, rfl⟩ := present
    obtain ⟨other, otherAt, rfl⟩ := scanned
    rw [imageAt] at otherAt
    cases otherAt
    obtain ⟨handle, file, -, -, contents⟩ := holds.file_at imageAt
    rw [← contents]
    exact holds.scan_file imageAt contents

/-- Distinct identifiers on disk: the recovered index locates all records. -/
theorem openWith_serves
    {handles : List Nat}
    (holds : node.disk.Holds blake3 handles images)
    (noFault : node.fault = none)
    (nonempty : images ≠ [])
    (distinct :
      ((storedPayloads images).map fun payload =>
        blake3 payload.bytes).Nodup) :
    ∃ final,
      execute openWith node = (.ok (), final) ∧
        final.Serves blake3 images ∧
        final.disk = node.disk ∧
        final.fault = none ∧
        final.store.rollBytes = defaultSegmentRollBytes := by
  obtain ⟨⟨⟩, final, ok, shape⟩ :=
    (ends_openWith holds noFault nonempty).exists_ok
  subst shape
  refine ⟨_, ok, ?_, rfl, noFault, rfl⟩
  refine {
    nonempty := nonempty
    holds := holds
    located := ?_
    distinct := distinct
    tail := rfl
    accepting := rfl }
  intro id location
  have distinctKeys :
      ((locateImages blake3 0 images).map Prod.fst).Nodup := by
    rw [map_fst_locateImages]
    exact distinct
  simp [FiniteMap.getElem?_insertMany_eq_some_iff _ distinctKeys]

/-- The store that opens in an empty directory. -/
theorem openWith_empty (blake3 : Bytes → BlockId) :
    ∃ final,
      execute openWith {} = (.ok (), final) ∧
        final.Serves blake3 [{ records := [], residue := [] }] ∧
        final.disk.temporaries = ∅ ∧
        final.fault = none ∧
        final.store.rollBytes = defaultSegmentRollBytes := by
  refine ⟨_, openWith_initial, ?_, rfl, rfl, rfl⟩
  refine {
    nonempty := List.cons_ne_nil _ _
    holds := .ofFiles files_initial ?_
    located := by simp [locateImages, locateFrom]
    distinct := List.nodup_nil
    tail := rfl
    accepting := rfl }
  intro image member
  rw [List.mem_singleton.mp member]
  rfl

/-! ## Reading -/

/-- The file bytes at a located record. -/
theorem Node.Serves.readAt_located
    (serves : node.Serves blake3 images)
    (located : (id, location) ∈ locateImages blake3 0 images) :
    ∃ image payload handle file,
      images[location.segment]? = some image ∧
      payload ∈ image.records ∧
      blake3 payload.bytes = id ∧
      location.payloadLen = payload.bytes.length ∧
      node.store.files[location.segment]? = some handle ∧
      node.disk.objects[handle]? = some file ∧
      ByteFile.readAt file.bytes (location.offset + headerLen)
        location.payloadLen = some payload.bytes := by
  obtain ⟨position, image, present, place⟩ :=
    (mem_locateImages blake3).mp located
  rw [Nat.zero_add, locateFrom_eq, List.mem_map] at place
  obtain ⟨⟨record, location⟩, placed, same⟩ := place
  cases same
  obtain ⟨before, after, split, shape⟩ := mem_placeFrom placed
  have stored : record ∈ image.records.map (StoredRecord.of blake3) := by
    rw [split]
    simp
  obtain ⟨payload, member, rfl⟩ := List.mem_map.mp stored
  obtain ⟨handle, file, named, found, contents⟩ :=
    serves.holds.file_at present
  refine ⟨image, payload, handle, file, by rw [shape]; exact present, member,
    rfl, by rw [shape]; rfl, by rw [shape]; exact named, found, ?_⟩
  rw [contents, SegmentImage.contents, encodeAll_eq]
  exact readAt_placed placed image.residue

/-- A located block is returned. -/
theorem Node.Serves.getBlock_located
    (serves : node.Serves blake3 images)
    (noFault : node.fault = none)
    (located : (id, location) ∈ locateImages blake3 0 images) :
    ∃ payload ∈ storedPayloads images,
      blake3 payload.bytes = id ∧
      execute (getBlock blake3 id) node = (.ok payload.bytes, node) := by
  obtain ⟨image, payload, handle, file, present, member, same, length, named,
    found, read⟩ := serves.readAt_located located
  have small := payload.length_lt
  have stored : payload ∈ storedPayloads images :=
    List.mem_flatMap.mpr ⟨image, List.mem_of_getElem? present, member⟩
  refine ⟨payload, stored, same, Ends.execute_eq ?_⟩
  have indexed := (serves.located id location).mpr located
  have allocated : ¬ location.payloadLen ≥ 2 ^ 63 := by
    omega
  simp only [getBlock, ends_bind, ends_get, indexed, named, allocated,
    if_false, readAt, ends_ioStep_of_none noFault, ends_fileOf found, read,
    ends_pure, same, ne_eq, not_true_eq_false]

theorem Node.Serves.getBlock_absent
    (serves : node.Serves blake3 images)
    (absent :
      id ∉ (storedPayloads images).map fun payload =>
        blake3 payload.bytes) :
    execute (getBlock blake3 id) node = (.error (.blockNotFound id), node) := by
  have unindexed : node.store.index[id]? = none := by
    rw [Option.eq_none_iff_forall_ne_some]
    intro location indexed
    have located := (serves.located id location).mp indexed
    apply absent
    rw [← map_fst_locateImages blake3 0]
    exact List.mem_map_of_mem located
  apply Ends.execute_eq
  simp only [getBlock, ends_bind, ends_get, unindexed, ends_throw]

/-- A stored payload is returned under its digest. -/
theorem Node.Serves.getBlock_stored
    (serves : node.Serves blake3 images)
    (noFault : node.fault = none)
    {payload : Payload}
    (member : payload ∈ storedPayloads images) :
    execute (getBlock blake3 (blake3 payload.bytes)) node =
      (.ok payload.bytes, node) := by
  have listed :
      blake3 payload.bytes ∈
        (locateImages blake3 0 images).map Prod.fst := by
    rw [map_fst_locateImages]
    exact List.mem_map_of_mem member
  obtain ⟨⟨id, location⟩, located, same⟩ := List.mem_map.mp listed
  simp only at same
  obtain ⟨found, foundMember, digest, read⟩ :=
    serves.getBlock_located noFault located
  have equal : found = payload :=
    List.inj_on_of_nodup_map serves.distinct foundMember member
      (digest.trans same)
  rw [← same, read, equal]

/-- Verification of a served store is clean. -/
theorem Node.Serves.verifyAll_clean
    (serves : node.Serves blake3 images)
    (noFault : node.fault = none) :
    ∃ report,
      execute (verifyAll blake3) node = (.ok report, node) ∧
        report.isClean = true := by
  have checked :
      Ends (verifyAll blake3) node
        (fun report final =>
          (report.corrupt = [] ∧ report.unreadable = []) ∧ final = node)
        (fun _ _ => False) := by
    simp only [verifyAll, ends_bind, ends_get]
    refine (ends_foldlM
      (fun (report : VerifyReport) remaining final =>
        (report.corrupt = [] ∧ report.unreadable = []) ∧ final = node ∧
          ∀ id ∈ remaining, id ∈ node.store.index) ?_ ?_).imp ?_
    · rintro report id rest state ⟨clean, rfl, indexed⟩
      have present := indexed id (by simp)
      rw [ExtTreeMap.mem_iff_isSome_getElem?, Option.isSome_iff_exists]
        at present
      obtain ⟨location, found⟩ := present
      obtain ⟨payload, -, -, read⟩ :=
        serves.getBlock_located noFault ((serves.located id location).mp found)
      simp only [verifyOne, ends_bind, ends_observe, ends_of_ok read,
        ends_pure, true_and]
      exact ⟨clean, fun later member => indexed later (by simp [member])⟩
    · exact ⟨⟨rfl, rfl⟩, rfl, fun id member => by simpa using member⟩
    · rintro report final ⟨clean, same, -⟩
      exact ⟨clean, same⟩
  obtain ⟨report, final, ok, ⟨noCorrupt, noUnreadable⟩, rfl⟩ :=
    checked.exists_ok
  exact ⟨report, ok, by simp [VerifyReport.isClean, noCorrupt, noUnreadable]⟩

end Hash

end KalpakDb
