import KalpakDb.StoreRecovery

namespace KalpakDb

/-!
# Appending a batch

A batch skips the payloads that are already stored and lays the others out
behind the tail, rolling to a new segment when the active one is full.  Every
flush turns the image of the active segment into the one that has absorbed
the records.  A batch that is interrupted has absorbed a front part of them.
-/

open Std (ExtTreeMap)
open Contract
open ByteFile (consecutive)

section Hash

variable (blake3 : Bytes → BlockId)

/-- The payloads of a batch that are neither stored nor staged yet. -/
def freshPayloads
    (index : ExtTreeMap BlockId Location) :
    List BlockId → List Payload → List Payload
  | _, [] => []
  | staged, payload :: rest =>
      if index.contains (blake3 payload.bytes) ||
          staged.contains (blake3 payload.bytes) then
        freshPayloads index staged rest
      else
        payload ::
          freshPayloads index (staged ++ [blake3 payload.bytes]) rest

/-- The records that still go to the active segment, from a tail on. -/
def firstChunk (rollBytes : Nat) : Nat → List Payload → List Payload
  | _, [] => []
  | tail, payload :: rest =>
      if tail + recordSize payload > rollBytes ∧ tail > 0 then
        []
      else
        payload :: firstChunk rollBytes (tail + recordSize payload) rest

variable {blake3}

/-! ## Changing one file of the disk -/

section Holds

variable {disk : Disk} {front : List Nat} {active : Nat}
  {earlier : List SegmentImage} {image : SegmentImage}

theorem Disk.Holds.lastFile
    (holds : disk.Holds blake3 (front ++ [active]) (earlier ++ [image])) :
    front.length = earlier.length ∧
      ∃ file,
        disk.objects[active]? = some file ∧
          file.bytes = image.contents blake3 := by
  have lengths : front.length = earlier.length := by
    simpa using holds.sameLength
  have named : (front ++ [active])[front.length]? = some active := by
    simp
  have present : (earlier ++ [image])[front.length]? = some image := by
    simp [lengths]
  exact ⟨lengths, holds.files front.length active image named present⟩

/-- The active segment of a served store. -/
theorem Node.Serves.activeSegment
    {node : Node}
    {images : List SegmentImage}
    (serves : node.Serves blake3 images) :
    ∃ front active earlier image,
      node.store.files = front ++ [active] ∧
      images = earlier ++ [image] ∧
      node.disk.Holds blake3 (front ++ [active]) (earlier ++ [image]) ∧
      node.store.tail = image.tail blake3 := by
  obtain ⟨earlier, image, shape⟩ :=
    (List.eq_nil_or_concat images).resolve_left serves.nonempty
  have filesNonempty : node.store.files ≠ [] := by
    rw [← List.length_pos_iff, serves.holds.sameLength, List.length_pos_iff]
    exact serves.nonempty
  obtain ⟨front, active, files⟩ :=
    (List.eq_nil_or_concat node.store.files).resolve_left filesNonempty
  rw [List.concat_eq_append] at shape files
  have holds := serves.holds
  rw [files, shape] at holds
  have tail := serves.tail
  rw [shape, lastTail_concat] at tail
  exact ⟨front, active, earlier, image, files, shape, holds, tail⟩

/-- The last file is overwritten. -/
theorem Disk.Holds.replaceLast
    (holds : disk.Holds blake3 (front ++ [active]) (earlier ++ [image]))
    {next : SegmentImage}
    (stops : next.Stops blake3)
    {file : SegmentFile}
    (contents : file.bytes = next.contents blake3) :
    ({ disk with objects := disk.objects.set active file } : Disk).Holds
      blake3 (front ++ [active]) (earlier ++ [next]) := by
  obtain ⟨lengths, -⟩ := holds.lastFile
  have named : (front ++ [active])[earlier.length]? = some active := by
    rw [← lengths]
    simp
  refine .ofFiles ?_ ?_
  · have written := holds.toFiles.overwrite named file
    rw [contents] at written
    simpa [List.map_append] using written
  · intro current member
    rcases List.mem_append.mp member with before | last
    · exact holds.stops current (List.mem_append_left _ before)
    · rw [List.mem_singleton.mp last]
      exact stops

/-- A new, empty segment is created behind the others. -/
theorem Disk.Holds.push
    {handles : List Nat}
    {images : List SegmentImage}
    (holds : disk.Holds blake3 handles images) :
    ({ disk with
      objects := disk.objects ++ [.empty]
      segments := disk.segments.insert handles.length disk.objects.length } :
        Disk).Holds
      blake3 (handles ++ [disk.objects.length])
      (images ++ [{ records := [], residue := [] }]) := by
  refine .ofFiles ?_ ?_
  · simpa [SegmentImage.contents] using holds.toFiles.push
  · intro current member
    rcases List.mem_append.mp member with before | last
    · exact holds.stops current before
    · rw [List.mem_singleton.mp last]
      rfl

end Holds

/-! ## Flushing -/

section Flush

variable {node : Node} {front : List Nat} {active : Nat}
  {earlier : List SegmentImage} {image : SegmentImage}

/-- Writing some bytes of a batch to the last file. -/
theorem ends_writeBatch
    (holds : node.disk.Holds blake3 (front ++ [active]) (earlier ++ [image]))
    {added : List Payload}
    {writes : List (Nat × Bytes)}
    (consecutiveWrites :
      writes = consecutive (image.tail blake3)
        (added.map (encodePayload blake3)))
    (stops :
      ((image.absorb blake3 added (node.writeBudget writes)).contents
        blake3).length < 2 ^ 63 →
      (image.absorb blake3 added (node.writeBudget writes)).Stops blake3) :
    Ends (writeBatch active writes) node
      (fun _ final =>
        final.store = node.store ∧
        final.disk.temporaries = node.disk.temporaries ∧
        final.disk.Holds blake3 (front ++ [active])
          (earlier ++ [image.extend blake3 added]))
      (fun error final =>
        error = .io .failed ∧
        final.store = node.store ∧
        ∃ budget,
          final.disk.Holds blake3 (front ++ [active])
            (earlier ++ [image.absorb blake3 added budget])) := by
  obtain ⟨-, file, found, contents⟩ := holds.lastFile
  have total :
      ByteFile.totalBytes writes = (encodeAll blake3 added).length := by
    rw [consecutiveWrites, ByteFile.totalBytes_consecutive,
      flatten_encodePayload]
  have absorbed
      {next : SegmentFile}
      (bytes :
        next.bytes =
          ByteFile.writePrefix (node.writeBudget writes) writes file.bytes) :
      (node.setFile active next).disk.Holds blake3 (front ++ [active])
        (earlier ++
          [image.absorb blake3 added (node.writeBudget writes)]) := by
    have nextBytes :
        next.bytes =
          (image.absorb blake3 added (node.writeBudget writes)).contents
            blake3 := by
      rw [bytes, contents, ← SegmentImage.writePrefix_contents,
        consecutiveWrites]
    exact holds.replaceLast (stops (nextBytes ▸ next.length_lt)) nextBytes
  refine (ends_writeBatch_file found writes).mono ?_ ?_
  · rintro - final ⟨store, whole, next, bytes, disk⟩
    rw [← whole] at bytes
    have written := absorbed bytes
    rw [whole, total, SegmentImage.absorb_all _ _ _ _ (Nat.le_refl _)]
      at written
    rw [disk]
    exact ⟨store, rfl, written⟩
  · rintro error final ⟨rfl, store, unchanged | ⟨next, bytes, disk⟩⟩
    · refine ⟨rfl, store, 0, ?_⟩
      rw [SegmentImage.absorb_zero, unchanged]
      exact holds
    · rw [disk]
      exact ⟨rfl, store, _, absorbed bytes⟩

theorem ends_flushPending
    (holds : node.disk.Holds blake3 (front ++ [active]) (earlier ++ [image]))
    {added : List Payload}
    {batch : Batch}
    (target : batch.active.2 = active)
    (pending :
      batch.pending = consecutive (image.tail blake3)
        (added.map (encodePayload blake3)))
    (stops :
      added ≠ [] →
      ((image.absorb blake3 added (node.writeBudget batch.pending)).contents
        blake3).length < 2 ^ 63 →
      (image.absorb blake3 added (node.writeBudget batch.pending)).Stops
        blake3) :
    Ends (flushPending batch) node
      (fun _ final =>
        final.store = node.store ∧
        final.disk.temporaries = node.disk.temporaries ∧
        final.disk.Holds blake3 (front ++ [active])
          (earlier ++ [image.extend blake3 added]))
      (fun error final =>
        error = .io .failed ∧
        final.store = node.store ∧
        ∃ budget,
          final.disk.Holds blake3 (front ++ [active])
            (earlier ++ [image.absorb blake3 added budget])) := by
  cases added with
  | nil =>
      simp only [List.map_nil, consecutive] at pending
      simpa [flushPending, pending, SegmentImage.extend] using holds
  | cons payload rest =>
      have nonempty : batch.pending.isEmpty = false := by
        rw [pending]
        rfl
      simp only [flushPending, nonempty, Bool.false_eq_true, if_false, target]
      exact ends_writeBatch holds pending (stops (List.cons_ne_nil _ _))

end Flush

/-! ## The batch loop -/

section Loop

variable (start : Node) (images : List SegmentImage) (payloads : List Payload)
  {progress : Progress} {todo : List Payload} {batch : Batch} {node : Node}
  {payload : Payload}

/-- The payloads that a batch adds to the store. -/
def batchFresh (blake3 : Bytes → BlockId) : List Payload :=
  freshPayloads blake3 start.store.index [] payloads

/-- Those of them that go to the segment active at the start. -/
def batchChunk (blake3 : Bytes → BlockId) : List Payload :=
  firstChunk start.store.rollBytes start.store.tail
    (batchFresh start payloads blake3)

/-- How far a batch has come: the disk so far and the records pending. -/
structure Progress where
  front : List Nat
  active : Nat
  earlier : List SegmentImage
  image : SegmentImage
  added : List Payload

/-- The state of a running batch that has yet to stage the given payloads. -/
structure Progress.Tracks
    (blake3 : Bytes → BlockId)
    (progress : Progress)
    (todo : List Payload)
    (batch : Batch)
    (node : Node) : Prop where
  files : node.store.files = progress.front ++ [progress.active]
  holds :
    node.disk.Holds blake3 (progress.front ++ [progress.active])
      (progress.earlier ++ [progress.image])
  temporaries : node.disk.temporaries = start.disk.temporaries
  target : batch.active = (progress.earlier.length, progress.active)
  pending :
    batch.pending = consecutive (progress.image.tail blake3)
      (progress.added.map (encodePayload blake3))
  tail :
    node.store.tail =
      progress.image.tail blake3 + (encodeAll blake3 progress.added).length
  index : node.store.index = start.store.index
  rollBytes : node.store.rollBytes = start.store.rollBytes
  accepting : node.store.writeFailed = start.store.writeFailed
  located :
    locateImages blake3 0
        (progress.earlier ++ [progress.image.extend blake3 progress.added]) =
      locateImages blake3 0 images ++ batch.staged
  flushed :
    ∃ flushed,
      storedPayloads progress.earlier ++ progress.image.records =
          storedPayloads images ++ flushed ∧
        flushed ++ (progress.added ++ todo) =
          batchFresh start payloads blake3
  unrolled :
    batch.rolled = false →
      node.fault = start.fault ∧
      progress.earlier ++ [progress.image] = images ∧
      progress.added ++
          firstChunk start.store.rollBytes node.store.tail todo =
        batchChunk start payloads blake3
  rolled : batch.rolled = true → progress.image.residue = []
  tight :
    (∀ image ∈ images, image.residue = []) →
      ∀ image ∈ progress.earlier ++ [progress.image], image.residue = []

/-- An interrupted batch: a front part of its records is on the disk. -/
def Interrupted
    (blake3 : Bytes → BlockId)
    (error : Failure)
    (node : Node) : Prop :=
  error = .io .failed ∧
    ∃ handles after,
      after ≠ [] ∧
      node.disk.Holds blake3 handles after ∧
      ∃ written,
        written <+: batchFresh start payloads blake3 ∧
          storedPayloads after = storedPayloads images ++ written

/--
The condition under which a batch leaves its first segment readable: where
its complete records end, the scan stops.
-/
def Settles (blake3 : Bytes → BlockId) : Prop :=
  ∀ earlier image,
    images = earlier ++ [image] →
    batchChunk start payloads blake3 ≠ [] →
    let absorbed :=
      image.absorb blake3 (batchChunk start payloads blake3)
        (start.writeBudget
          (consecutive (image.tail blake3)
            ((batchChunk start payloads blake3).map (encodePayload blake3))))
    (absorbed.contents blake3).length < 2 ^ 63 → absorbed.Stops blake3

variable {start images payloads}

/-- The location of one more record behind those of the last image. -/
theorem locateImages_concat
    (earlier : List SegmentImage)
    (image : SegmentImage)
    (added : List Payload)
    (payload : Payload) :
    locateImages blake3 0
        (earlier ++ [image.extend blake3 (added ++ [payload])]) =
      locateImages blake3 0 (earlier ++ [image.extend blake3 added]) ++
        [(blake3 payload.bytes, {
          segment := earlier.length
          offset := image.tail blake3 + (encodeAll blake3 added).length
          payloadLen := payload.bytes.length })] := by
  simp only [locateImages_append, locateImages, SegmentImage.extend,
    List.append_nil, ← List.append_assoc, Nat.zero_add]
  rw [locateFrom_append blake3 _ _ (image.records ++ added)]
  simp [locateFrom, SegmentImage.tail]

/-- While flushing, the scan of the active segment stops where it should. -/
theorem Progress.Tracks.stops
    (tracks :
      progress.Tracks start images payloads blake3 todo batch node)
    (settles : Settles start images payloads blake3)
    (chunkEnds :
      batch.rolled = false →
        firstChunk start.store.rollBytes node.store.tail todo = [])
    (nonempty : progress.added ≠ [])
    (bounded :
      ((progress.image.absorb blake3 progress.added
        (node.writeBudget batch.pending)).contents blake3).length < 2 ^ 63) :
    (progress.image.absorb blake3 progress.added
      (node.writeBudget batch.pending)).Stops blake3 := by
  cases rolled : batch.rolled with
  | true =>
      exact SegmentImage.stops_absorb_of_noResidue blake3 _ _ _
        (tracks.rolled rolled) bounded
  | false =>
      obtain ⟨fault, same, chunk⟩ := tracks.unrolled rolled
      rw [chunkEnds rolled, List.append_nil] at chunk
      have budget :
          node.writeBudget batch.pending =
            start.writeBudget batch.pending := by
        simp only [Node.writeBudget, fault]
      have settled := settles progress.earlier progress.image same.symm
      rw [← chunk, ← tracks.pending, ← budget] at settled
      exact settled nonempty bounded

/-- A disk on which part of the pending records was written. -/
theorem Progress.Tracks.interrupted
    (tracks :
      progress.Tracks start images payloads blake3 todo batch node)
    {budget : Nat}
    {handles : List Nat}
    {final : Node}
    (holds :
      final.disk.Holds blake3 handles
        (progress.earlier ++
          [progress.image.absorb blake3 progress.added budget])) :
    Interrupted start images payloads blake3 (.io .failed) final := by
  obtain ⟨flushed, stored, fresh⟩ := tracks.flushed
  obtain ⟨missing, split⟩ :=
    ByteFile.whole_isPrefix recordSize budget progress.added
  refine ⟨rfl, handles, _, by simp, holds,
    flushed ++ ByteFile.whole recordSize budget progress.added, ?_, ?_⟩
  · refine ⟨missing ++ todo, ?_⟩
    rw [← fresh]
    nth_rewrite 2 [← split]
    simp
  · rw [← List.append_assoc, ← stored]
    simp [storedPayloads, SegmentImage.absorb]

/-- Rolling flushes the pending records and starts an empty segment. -/
theorem ends_rollSegment
    (tracks :
      progress.Tracks start images payloads blake3 (payload :: todo) batch
        node)
    (settles : Settles start images payloads blake3)
    (full :
      node.store.tail + recordSize payload > start.store.rollBytes ∧
        node.store.tail > 0) :
    Ends (rollSegment batch) node
      (fun next final =>
        (∃ progress : Progress,
          progress.Tracks start images payloads blake3 (payload :: todo) next
            final) ∧
        final.store.tail = 0 ∧
        next.staged = batch.staged)
      (Interrupted start images payloads blake3) := by
  have chunkEnds :
      batch.rolled = false →
        firstChunk start.store.rollBytes node.store.tail (payload :: todo) =
          [] := by
    intro _
    rw [firstChunk, if_pos full]
  have complete :
      (encodeAll blake3 progress.added).length ≤
        (encodeAll blake3 progress.added).length := Nat.le_refl _
  have whole := SegmentImage.absorb_all blake3 progress.image progress.added
    _ complete
  have flush := ends_flushPending tracks.holds
    (congrArg Prod.snd tracks.target) tracks.pending
    (tracks.stops settles chunkEnds)
  have lengths := tracks.holds.lastFile.1
  rw [rollSegment, ends_bind]
  refine flush.mono ?_ ?_
  · rintro - flushed ⟨store, temporaries, holds⟩
    simp only [ends_bind, ends_get, store, tracks.files]
    refine (ends_openSegment_new holds.toFiles).mono ?_ ?_
    · rintro handle final ⟨rfl, sameStore, disk⟩
      simp only [ends_modify, ends_pure, and_true]
      refine ⟨⟨progress.front ++ [progress.active],
        flushed.disk.objects.length,
        progress.earlier ++ [progress.image.extend blake3 progress.added],
        { records := [], residue := [] }, []⟩, ?_⟩
      rw [store] at sameStore
      refine {
        files := by simp [sameStore, tracks.files]
        holds := by simpa only [disk] using holds.push
        temporaries := by rw [disk]; exact temporaries.trans tracks.temporaries
        target := by simp [lengths]
        pending := rfl
        tail := rfl
        index := by simpa [sameStore] using tracks.index
        rollBytes := by simpa [sameStore] using tracks.rollBytes
        accepting := by simpa [sameStore] using tracks.accepting
        located := ?_
        flushed := ?_
        unrolled := by simp
        rolled := fun _ => rfl
        tight := ?_ }
      · rw [locateImages_append, tracks.located]
        simp [locateImages, locateFrom, SegmentImage.extend]
      · obtain ⟨written, stored, fresh⟩ := tracks.flushed
        refine ⟨written ++ progress.added, ?_, by rw [← fresh]; simp⟩
        rw [← List.append_assoc, ← stored]
        simp [storedPayloads, SegmentImage.extend]
      · intro tight image member
        have before := tracks.tight tight
        simp only [List.mem_append, List.mem_singleton] at member before
        rcases member with (earlier | last) | new
        · exact before image (Or.inl earlier)
        · rw [last, SegmentImage.extend, before progress.image (Or.inr rfl)]
          simp
        · rw [new]
    · rintro error final ⟨rfl, -, disk⟩
      rw [← whole] at holds
      exact tracks.interrupted (disk ▸ holds)
  · rintro error final ⟨rfl, -, budget, holds⟩
    exact tracks.interrupted holds

/-- Staging one record behind the tail. -/
theorem ends_stageRecord
    (tracks :
      progress.Tracks start images payloads blake3 (payload :: todo) batch
        node)
    (room :
      ¬ (node.store.tail + recordSize payload > start.store.rollBytes ∧
        node.store.tail > 0)) :
    Ends (stageRecord batch (blake3 payload.bytes) payload) node
      (fun next final =>
        ({ progress with added := progress.added ++ [payload] } :
          Progress).Tracks start images payloads blake3 todo next final ∧
        next.staged.map Prod.fst =
          batch.staged.map Prod.fst ++ [blake3 payload.bytes])
      (fun _ _ => False) := by
  have size := length_encodePayload blake3 payload
  rw [encodePayload] at size
  simp only [stageRecord, ends_bind, ends_get, ends_modify, ends_pure,
    List.map_append, List.map_cons, List.map_nil, and_true]
  refine {
    files := tracks.files
    holds := tracks.holds
    temporaries := tracks.temporaries
    target := tracks.target
    pending := ?_
    tail := ?_
    index := tracks.index
    rollBytes := tracks.rollBytes
    accepting := tracks.accepting
    located := ?_
    flushed := ?_
    unrolled := ?_
    rolled := tracks.rolled
    tight := tracks.tight }
  · rw [tracks.pending, tracks.tail, List.map_append,
      ByteFile.consecutive_append, flatten_encodePayload]
    rfl
  · rw [tracks.tail, size, encodeAll_append, List.length_append,
      ← Nat.add_assoc]
    simp [size]
  · rw [locateImages_concat, tracks.located, tracks.target, tracks.tail,
      List.append_assoc]
  · obtain ⟨flushed, stored, fresh⟩ := tracks.flushed
    exact ⟨flushed, stored, by rw [← fresh]; simp⟩
  · intro unrolled
    obtain ⟨fault, same, chunk⟩ := tracks.unrolled unrolled
    refine ⟨fault, same, ?_⟩
    rw [firstChunk, if_neg room] at chunk
    simpa [size] using chunk

/-- One payload of the batch. -/
theorem ends_appendOne
    {rest : List Payload}
    (tracks :
      progress.Tracks start images payloads blake3
        (freshPayloads blake3 start.store.index (batch.staged.map Prod.fst)
          (payload :: rest)) batch node)
    (settles : Settles start images payloads blake3) :
    Ends (appendOne blake3 false batch payload) node
      (fun next final =>
        ∃ progress : Progress,
          progress.Tracks start images payloads blake3
            (freshPayloads blake3 start.store.index
              (next.staged.map Prod.fst) rest) next final)
      (Interrupted start images payloads blake3) := by
  have size := length_encodePayload blake3 payload
  rw [encodePayload] at size
  have staged :
      (batch.staged.any fun entry => entry.1 = blake3 payload.bytes) =
        (batch.staged.map Prod.fst).contains (blake3 payload.bytes) := by
    rw [List.contains_eq_any_beq, List.any_map]
    congr
    funext entry
    simp [eq_comm, beq_eq_decide]
  simp only [appendOne, isPresent, Bool.false_eq_true, if_false, ends_bind,
    ends_get, ends_pure, tracks.index, staged]
  split
  · rename_i known
    rw [freshPayloads, if_pos known] at tracks
    exact ⟨progress, tracks⟩
  · rename_i fresh
    rw [freshPayloads, if_neg fresh] at tracks
    simp only [ends_bind, ends_get, tracks.rollBytes, size]
    split
    · rename_i full
      rw [ends_bind]
      refine (ends_rollSegment tracks settles full).imp ?_
      rintro next middle ⟨⟨moved, movedTracks⟩, tail, sameStaged⟩
      refine (ends_stageRecord movedTracks (by simp [tail])).mono ?_ ?_
      · rintro final state ⟨finalTracks, ids⟩
        rw [ids, sameStaged]
        exact ⟨_, finalTracks⟩
      · exact fun _ _ impossible => impossible.elim
    · rename_i room
      refine (ends_stageRecord tracks room).mono ?_ ?_
      · rintro final state ⟨finalTracks, ids⟩
        rw [ids]
        exact ⟨_, finalTracks⟩
      · exact fun _ _ impossible => impossible.elim

/-- Where a batch starts on a served store. -/
theorem Node.Serves.tracks
    (serves : start.Serves blake3 images)
    (payloads : List Payload) :
    ∃ (progress : Progress) (handle : Nat),
      start.store.files.getLast? = some handle ∧
      progress.Tracks start images payloads blake3
        (batchFresh start payloads blake3)
        { active := (start.store.files.length - 1, handle) } start := by
  obtain ⟨front, active, earlier, image, files, shape, holds, tail⟩ :=
    serves.activeSegment
  have lengths := holds.lastFile.1
  refine ⟨⟨front, active, earlier, image, []⟩, active, by simp [files], ?_⟩
  refine {
    files := files
    holds := holds
    temporaries := rfl
    target := by simp [files, lengths]
    pending := rfl
    tail := tail
    index := rfl
    rollBytes := rfl
    accepting := rfl
    located := by simp [shape, SegmentImage.extend]
    flushed := ⟨[], by simp [shape, storedPayloads], rfl⟩
    unrolled := fun _ => ⟨rfl, shape.symm, rfl⟩
    rolled := by simp
    tight := by rw [shape]; exact id }

/-! ## Fresh payloads -/

theorem mem_freshPayloads
    {index : ExtTreeMap BlockId Location}
    {staged : List BlockId}
    {payloads : List Payload}
    (member : payload ∈ freshPayloads blake3 index staged payloads) :
    payload ∈ payloads ∧
      blake3 payload.bytes ∉ index ∧
      blake3 payload.bytes ∉ staged := by
  induction payloads generalizing staged with
  | nil =>
      simp [freshPayloads] at member
  | cons first rest inductionHypothesis =>
      unfold freshPayloads at member
      split at member
      · obtain ⟨listed, unknown⟩ := inductionHypothesis member
        exact ⟨List.mem_cons_of_mem _ listed, unknown⟩
      · rename_i fresh
        rcases List.mem_cons.mp member with rfl | later
        · simp only [Bool.or_eq_true, ExtTreeMap.contains_iff_mem,
            List.contains_iff_mem, not_or] at fresh
          exact ⟨List.mem_cons_self, fresh⟩
        · obtain ⟨listed, unknown, unstaged⟩ := inductionHypothesis later
          simp only [List.mem_append, not_or] at unstaged
          exact ⟨List.mem_cons_of_mem _ listed, unknown, unstaged.1⟩

/-- A batch adds every identifier at most once. -/
theorem freshPayloads_distinct
    (index : ExtTreeMap BlockId Location)
    (staged : List BlockId)
    (payloads : List Payload) :
    ((freshPayloads blake3 index staged payloads).map fun payload =>
      blake3 payload.bytes).Nodup := by
  induction payloads generalizing staged with
  | nil =>
      exact List.nodup_nil
  | cons first rest inductionHypothesis =>
      unfold freshPayloads
      split
      · exact inductionHypothesis staged
      · refine List.nodup_cons.mpr ⟨?_, inductionHypothesis _⟩
        intro repeated
        obtain ⟨other, member, same⟩ := List.mem_map.mp repeated
        have unstaged := (mem_freshPayloads member).2.2
        simp [same] at unstaged

/-- Every payload of a batch is stored, staged, or added by it. -/
theorem stored_or_fresh
    (index : ExtTreeMap BlockId Location)
    (staged : List BlockId)
    {payloads : List Payload}
    (member : payload ∈ payloads) :
    blake3 payload.bytes ∈ index ∨ blake3 payload.bytes ∈ staged ∨
      blake3 payload.bytes ∈
        (freshPayloads blake3 index staged payloads).map fun payload =>
          blake3 payload.bytes := by
  induction payloads generalizing staged with
  | nil =>
      cases member
  | cons first rest inductionHypothesis =>
      unfold freshPayloads
      rcases List.mem_cons.mp member with rfl | later
      · split
        · rename_i known
          simp only [Bool.or_eq_true, ExtTreeMap.contains_iff_mem,
            List.contains_iff_mem] at known
          exact known.imp_right Or.inl
        · exact Or.inr (Or.inr (by simp))
      · split
        · exact inductionHypothesis staged later
        · rcases inductionHypothesis (staged ++ [blake3 first.bytes]) later
            with known | known | fresh
          · exact Or.inl known
          · rcases List.mem_append.mp known with before | here
            · exact Or.inr (Or.inl before)
            · rw [List.mem_singleton.mp here]
              exact Or.inr (Or.inr (by simp))
          · exact Or.inr (Or.inr (List.mem_cons_of_mem _ fresh))

/-- What a served store knows are the identifiers on its disk. -/
theorem Node.Serves.mem_index
    (serves : start.Serves blake3 images)
    {id : BlockId} :
    id ∈ start.store.index ↔
      id ∈ (storedPayloads images).map fun payload =>
        blake3 payload.bytes := by
  rw [ExtTreeMap.mem_iff_isSome_getElem?, Option.isSome_iff_exists,
    ← map_fst_locateImages blake3 0]
  constructor
  · rintro ⟨location, indexed⟩
    exact List.mem_map_of_mem ((serves.located id location).mp indexed)
  · intro listed
    obtain ⟨⟨found, location⟩, located, rfl⟩ := List.mem_map.mp listed
    exact ⟨location, (serves.located _ location).mpr located⟩

/-- After a batch every payload of it is stored, here or from before. -/
theorem Node.Serves.stored_of_batch
    (serves : start.Serves blake3 images)
    {after : List SegmentImage}
    (stored :
      storedPayloads after =
        storedPayloads images ++ batchFresh start payloads blake3)
    (member : payload ∈ payloads) :
    ∃ found ∈ storedPayloads after,
      blake3 found.bytes = blake3 payload.bytes := by
  have present :
      blake3 payload.bytes ∈
        (storedPayloads after).map fun stored => blake3 stored.bytes := by
    rw [stored, List.map_append, List.mem_append, ← serves.mem_index]
    rcases stored_or_fresh start.store.index [] member with
      indexed | staged | fresh
    · exact Or.inl indexed
    · cases staged
    · exact Or.inr fresh
  exact List.mem_map.mp present

/-- A front part of the fresh payloads has identifiers new to the store. -/
theorem Node.Serves.distinct_append
    (serves : start.Serves blake3 images)
    {written : List Payload}
    (front : written <+: batchFresh start payloads blake3) :
    ((storedPayloads images ++ written).map fun payload =>
      blake3 payload.bytes).Nodup := by
  have fresh :
      ((batchFresh start payloads blake3).map fun payload =>
        blake3 payload.bytes).Nodup :=
    freshPayloads_distinct start.store.index [] payloads
  rw [List.map_append]
  refine List.nodup_append.mpr ⟨serves.distinct,
    fresh.sublist (front.sublist.map _), ?_⟩
  rintro id stored other added rfl
  obtain ⟨payload, member, rfl⟩ := List.mem_map.mp added
  have unknown := (mem_freshPayloads (front.subset member)).2.1
  exact unknown (serves.mem_index.mpr stored)

/-! ## A whole batch -/

/-- After the last flush: the payloads on the disk. -/
theorem Progress.Tracks.stored
    (tracks : progress.Tracks start images payloads blake3 [] batch node) :
    storedPayloads
        (progress.earlier ++ [progress.image.extend blake3 progress.added]) =
      storedPayloads images ++ batchFresh start payloads blake3 := by
  obtain ⟨flushed, stored, fresh⟩ := tracks.flushed
  rw [← fresh, ← List.append_assoc, ← stored]
  simp [storedPayloads, SegmentImage.extend]

/-- After the last flush the staged locations complete the index. -/
theorem Progress.Tracks.serves
    (serves : start.Serves blake3 images)
    {node flushed : Node}
    (tracks : progress.Tracks start images payloads blake3 [] batch node)
    (store : flushed.store = node.store)
    (holds :
      flushed.disk.Holds blake3 (progress.front ++ [progress.active])
        (progress.earlier ++
          [progress.image.extend blake3 progress.added])) :
    ({ flushed with
      store := { flushed.store with
        index := flushed.store.index.insertMany batch.staged } } :
      Node).Serves blake3
      (progress.earlier ++
        [progress.image.extend blake3 progress.added]) := by
  have distinct := serves.distinct_append
    (List.prefix_refl (batchFresh start payloads blake3))
  rw [← tracks.stored] at distinct
  have separate :
      ((locateImages blake3 0 images ++ batch.staged).map
        Prod.fst).Nodup := by
    rw [← tracks.located, map_fst_locateImages]
    exact distinct
  rw [List.map_append] at separate
  have stagedDistinct := (List.nodup_append.mp separate).2.1
  refine {
    nonempty := by simp
    holds := by simpa only [store, tracks.files] using holds
    located := ?_
    distinct := distinct
    tail := ?_
    accepting := by
      simpa only [store, tracks.accepting] using serves.accepting }
  · intro id location
    simp only [store, tracks.index, tracks.located, List.mem_append]
    rw [FiniteMap.getElem?_insertMany_eq_some_iff _ stagedDistinct,
      serves.located]
    constructor
    · rintro (new | ⟨-, old⟩)
      · exact Or.inr new
      · exact Or.inl old
    · rintro (old | new)
      · refine Or.inr ⟨?_, old⟩
        intro again
        exact (List.nodup_append.mp separate).2.2 id
          (List.mem_map_of_mem old) id again rfl
      · exact Or.inl new
  · simp only [store, tracks.tail, lastTail_concat, SegmentImage.tail,
      SegmentImage.extend, encodeAll_append, List.length_append]

/--
A batch on a served store.  If it returns, the store serves the payloads it
served before and the fresh ones; if it fails, the disk holds the old ones
and a front part of the fresh ones.
-/
theorem ends_appendAll
    (serves : start.Serves blake3 images)
    (settles : Settles start images payloads blake3) :
    Ends (appendAll blake3 payloads false) start
      (fun _ final =>
        ∃ after,
          final.Serves blake3 after ∧
          storedPayloads after =
            storedPayloads images ++ batchFresh start payloads blake3 ∧
          final.store.rollBytes = start.store.rollBytes ∧
          final.disk.temporaries = start.disk.temporaries ∧
          ((∀ image ∈ images, image.residue = []) →
            ∀ image ∈ after, image.residue = []))
      (Interrupted start images payloads blake3) := by
  obtain ⟨initial, handle, last, initially⟩ := serves.tracks payloads
  have loop :
      Ends (payloads.foldlM (appendOne blake3 false)
          { active := (start.store.files.length - 1, handle) }) start
        (fun batch final =>
          ∃ progress : Progress,
            progress.Tracks start images payloads blake3
              (freshPayloads blake3 start.store.index
                (batch.staged.map Prod.fst) []) batch final)
        (Interrupted start images payloads blake3) := by
    refine ends_foldlM
      (fun (batch : Batch) remaining final =>
        ∃ progress : Progress,
          progress.Tracks start images payloads blake3
            (freshPayloads blake3 start.store.index
              (batch.staged.map Prod.fst) remaining) batch final) ?_ ?_
    · rintro batch payload rest state ⟨progress, tracks⟩
      exact ends_appendOne tracks settles
    · exact ⟨initial, initially⟩
  simp only [appendAll, ends_bind, ends_get, last]
  refine loop.imp ?_
  rintro batch node ⟨progress, tracks⟩
  rw [freshPayloads] at tracks
  have flush := ends_flushPending tracks.holds
    (congrArg Prod.snd tracks.target) tracks.pending
    (tracks.stops settles fun _ => rfl)
  refine flush.mono ?_ ?_
  · rintro - flushed ⟨store, temporaries, holds⟩
    have published (fault : Option Fault) :=
      tracks.serves serves
        (show ({ flushed with fault := fault } : Node).store = node.store
          from store) holds
    have tight :
        (∀ image ∈ images, image.residue = []) →
          ∀ image ∈ progress.earlier ++
            [progress.image.extend blake3 progress.added],
            image.residue = [] := by
      intro before image member
      have clean := tracks.tight before
      simp only [List.mem_append, List.mem_singleton] at clean member
      rcases member with earlier | rfl
      · exact clean image (Or.inl earlier)
      · simp [SegmentImage.extend, clean progress.image (Or.inr rfl)]
    have rollBytes : flushed.store.rollBytes = start.store.rollBytes := by
      rw [store, tracks.rollBytes]
    have sameTemporaries := temporaries.trans tracks.temporaries
    split
    · rw [ends_bind, syncDir]
      refine ends_ioStep ?_ ?_
      · intro fault
        exact ⟨_, published fault, tracks.stored, rollBytes, sameTemporaries,
          tight⟩
      · rw [← SegmentImage.absorb_all blake3 _ _ _ (Nat.le_refl _)] at holds
        exact tracks.interrupted holds
    · exact ⟨_, published flushed.fault, tracks.stored, rollBytes,
        sameTemporaries, tight⟩
  · rintro error final ⟨rfl, -, budget, holds⟩
    exact tracks.interrupted holds

/-- `putMany` on a served store. -/
theorem ends_putMany
    (serves : start.Serves blake3 images)
    (settles : Settles start images payloads blake3) :
    Ends (putMany blake3 payloads) start
      (fun ids final =>
        ids = payloads.map (fun payload => blake3 payload.bytes) ∧
        ∃ after,
          final.Serves blake3 after ∧
          storedPayloads after =
            storedPayloads images ++ batchFresh start payloads blake3 ∧
          final.store.rollBytes = start.store.rollBytes ∧
          final.disk.temporaries = start.disk.temporaries ∧
          ((∀ image ∈ images, image.residue = []) →
            ∀ image ∈ after, image.residue = []))
      (fun error final =>
        Interrupted start images payloads blake3 error final ∧
          final.store.writeFailed = true) := by
  simp only [putMany, putManyInner, ends_bind, ends_get, serves.accepting,
    Bool.false_eq_true, if_false, ends_onFailure]
  refine (ends_appendAll serves settles).mono ?_ ?_
  · intro _ final appended
    exact ⟨rfl, appended⟩
  · intro error final interrupted
    exact ⟨interrupted, trivial⟩

end Loop

end Hash

end KalpakDb
