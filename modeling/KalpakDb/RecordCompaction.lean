import KalpakDb.CompactionIndex
import KalpakDb.RecordStore

namespace KalpakDb

/-!
# Compacting sealed segments

A sealed segment with dead records is copied, record by record, into a file
of its own, which then takes the segment's name and place.  Only indexed
records are copied, so superseded ones go with the dead.  Whatever step
fails, the store goes on with each segment either untouched or replaced.
-/

open Std (ExtTreeMap)
open Contract
open ByteFile (consecutive)

section Hash

variable {blake3 : Bytes → BlockId}

/-! ## The file of a rewrite -/

/--
A rewrite in progress: the temporary file of a segment has some records, and
everything the node had before is still there.
-/
structure Rewriting
    (blake3 : Bytes → BlockId)
    (node : Node)
    (segment temporary : Nat)
    (copied : List Payload)
    (state : Node) : Prop where
  store : state.store = node.store
  noFault : state.fault = none
  segments : state.disk.segments = node.disk.segments
  named : state.disk.temporaries[segment]? = some temporary
  apart : temporary ∉ node.store.files
  others :
    ∀ other handle : Nat, other ≠ segment →
      state.disk.temporaries[other]? = some handle →
        node.disk.temporaries[other]? = some handle ∧ handle ≠ temporary
  kept :
    ∀ (handle : Nat) (file : SegmentFile),
      handle ≠ temporary →
      node.disk.objects[handle]? = some file →
        state.disk.objects[handle]? = some file
  grows : node.disk.objects.length ≤ state.disk.objects.length
  contents :
    ∃ file : SegmentFile,
      state.disk.objects[temporary]? = some file ∧
        file.bytes = encodeAll blake3 copied

/-- A rewrite in progress, whichever failure lies ahead of it. -/
def Copying
    (blake3 : Bytes → BlockId)
    (node : Node)
    (segment temporary : Nat)
    (copied : List Payload)
    (state : Node) : Prop :=
  Rewriting blake3 node segment temporary copied { state with fault := none }

/-- Nothing that the store relies on has changed. -/
def Undisturbed (node : Node) (contents : List Bytes) (state : Node) : Prop :=
  state.store = node.store ∧ state.disk.Files node.store.files contents

section Temporary

variable {node state : Node} {contents : List Bytes}
  {segment temporary : Nat} {copied : List Payload}

theorem Copying.undisturbed
    (files : node.disk.Files node.store.files contents)
    (copying : Copying blake3 node segment temporary copied state) :
    Undisturbed node contents state := by
  refine ⟨copying.store, ?_⟩
  have segments : state.disk.segments = node.disk.segments :=
    copying.segments
  have named : state.disk.temporaries[segment]? = some temporary :=
    copying.named
  obtain ⟨file, found, -⟩ := copying.contents
  have allocated : temporary < state.disk.objects.length :=
    (List.getElem?_eq_some_iff.mp found).1
  refine {
    entries := by rw [segments]; exact files.entries
    distinct := files.distinct
    sameLength := files.sameLength
    files := ?_
    temporariesApart := ?_
    temporariesDistinct := ?_ }
  · intro position handle bytes isNamed present
    obtain ⟨kept, onDisk, same⟩ :=
      files.files position handle bytes isNamed present
    have different : handle ≠ temporary := by
      rintro rfl
      exact copying.apart (List.mem_of_getElem? isNamed)
    exact ⟨kept, copying.kept handle kept different onDisk, same⟩
  · intro other handle isNamed
    by_cases same : other = segment
    · subst same
      rw [named] at isNamed
      cases isNamed
      exact ⟨allocated, copying.apart⟩
    · obtain ⟨before, -⟩ := copying.others other handle same isNamed
      obtain ⟨bound, apart⟩ := files.temporariesApart other handle before
      exact ⟨bound.trans_le copying.grows, apart⟩
  · intro first second handle firstNamed secondNamed
    by_cases firstSame : first = segment
    · by_cases secondSame : second = segment
      · rw [firstSame, secondSame]
      · rw [firstSame, named] at firstNamed
        cases firstNamed
        exact absurd rfl
          (copying.others second temporary secondSame secondNamed).2
    · by_cases secondSame : second = segment
      · rw [secondSame, named] at secondNamed
        cases secondNamed
        exact absurd rfl
          (copying.others first temporary firstSame firstNamed).2
      · exact files.temporariesDistinct first second handle
          (copying.others first handle firstSame firstNamed).1
          (copying.others second handle secondSame secondNamed).1

theorem Copying.withFault
    (copying : Copying blake3 node segment temporary copied state)
    (fault : Option Fault) :
    Copying blake3 node segment temporary copied
      { state with fault := fault } :=
  copying

/-- A rewrite starts with an empty file, whatever an earlier one left. -/
theorem ends_truncateTemporary
    (blake3 : Bytes → BlockId)
    (files : node.disk.Files node.store.files contents) :
    Ends (truncateTemporary segment) node
      (fun _ final =>
        ∃ temporary, Copying blake3 node segment temporary [] final)
      (fun error final =>
        error = .io .failed ∧ Undisturbed node contents final) := by
  rw [truncateTemporary, openTemporary, ends_bind, ends_bind]
  refine ends_ioStep ?_ ⟨rfl, rfl, files⟩
  intro fault
  simp only [ends_bind, ends_get]
  split
  · rename_i temporary found
    obtain ⟨within, apart⟩ := files.temporariesApart segment temporary found
    simp only [ends_pure, ends_modify]
    refine ⟨temporary, ?_⟩
    refine {
      store := rfl
      noFault := rfl
      segments := rfl
      named := found
      apart := apart
      others := ?_
      kept := ?_
      grows := by simp [Node.setFile]
      contents := ⟨.empty, by simp [Node.setFile, within], rfl⟩ }
    · intro other handle different otherFound
      refine ⟨otherFound, ?_⟩
      rintro rfl
      exact different
        (files.temporariesDistinct other segment handle otherFound found)
    · intro handle file different present
      simp only [Node.setFile, List.getElem?_set]
      rw [if_neg (Ne.symm different)]
      exact present
  · rename_i absent
    simp only [createFile, ends_bind, ends_get, ends_modify, ends_pure]
    refine ⟨node.disk.objects.length, ?_⟩
    refine {
      store := rfl
      noFault := rfl
      segments := rfl
      named := by simp [Node.setFile]
      apart := fun member => (files.handle_lt member).ne rfl
      others := ?_
      kept := ?_
      grows := by simp [Node.setFile]
      contents := ⟨.empty, by simp [Node.setFile], rfl⟩ }
    · intro other handle different otherFound
      have notEqual : compare segment other ≠ .eq :=
        fun equal => different (Std.LawfulEqOrd.eq_of_compare equal).symm
      simp only [Node.setFile, ExtTreeMap.getElem?_insert] at otherFound
      rw [if_neg notEqual] at otherFound
      have within := (files.temporariesApart other handle otherFound).1
      exact ⟨otherFound, within.ne⟩
    · intro handle file different present
      have within := (List.getElem?_eq_some_iff.mp present).1
      simp only [Node.setFile, List.getElem?_set]
      rw [if_neg (Ne.symm different), List.getElem?_append_left within]
      exact present

/-- Reopening the file of a running rewrite. -/
theorem Copying.ends_openTemporary
    (files : node.disk.Files node.store.files contents)
    (copying : Copying blake3 node segment temporary copied state) :
    Ends (openTemporary segment) state
      (fun handle final =>
        handle = temporary ∧
          Copying blake3 node segment temporary copied final)
      (fun error final =>
        error = .io .failed ∧ Undisturbed node contents final) := by
  rw [openTemporary, ends_bind]
  refine ends_ioStep ?_ ⟨rfl, copying.undisturbed files⟩
  intro fault
  have named : state.disk.temporaries[segment]? = some temporary :=
    copying.named
  simp only [ends_bind, ends_get, named, ends_pure]
  exact ⟨trivial, copying⟩

/-- The file of a rewrite gets other contents. -/
theorem Copying.setFile
    (copying : Copying blake3 node segment temporary copied state)
    {next : SegmentFile}
    {longer : List Payload}
    (bytes : next.bytes = encodeAll blake3 longer)
    {final : Node}
    (store : final.store = state.store)
    (disk : final.disk = (state.setFile temporary next).disk) :
    Copying blake3 node segment temporary longer final := by
  obtain ⟨file, found, -⟩ := copying.contents
  have within : temporary < state.disk.objects.length :=
    (List.getElem?_eq_some_iff.mp found).1
  refine {
    store := store.trans copying.store
    noFault := rfl
    segments := ?_
    named := ?_
    apart := copying.apart
    others := ?_
    kept := ?_
    grows := ?_
    contents := ⟨next, by simp [disk, Node.setFile, within], bytes⟩ }
  · simpa only [disk, Node.setFile] using copying.segments
  · simpa only [disk, Node.setFile] using copying.named
  · simpa only [disk, Node.setFile] using copying.others
  · intro handle kept different present
    simp only [disk, Node.setFile, List.getElem?_set]
    rw [if_neg (Ne.symm different)]
    exact copying.kept handle kept different present
  · simpa [disk, Node.setFile] using copying.grows

/-- One more record behind those already copied. -/
theorem Copying.ends_writeBatch
    (files : node.disk.Files node.store.files contents)
    (copying : Copying blake3 node segment temporary copied state)
    (payload : Payload) :
    Ends (writeBatch temporary
        [((encodeAll blake3 copied).length,
          encodeRecord (blake3 payload.bytes) payload.bytes)]) state
      (fun _ final =>
        Copying blake3 node segment temporary (copied ++ [payload]) final)
      (fun error final =>
        error = .io .failed ∧ Undisturbed node contents final) := by
  obtain ⟨store, onDisk⟩ := copying.undisturbed files
  obtain ⟨file, onTemporary, bytes⟩ := copying.contents
  have found : state.disk.objects[temporary]? = some file := onTemporary
  refine (ends_writeBatch_file found _).mono ?_ ?_
  · rintro - final ⟨sameStore, -, next, nextBytes, disk⟩
    refine copying.setFile ?_ sameStore disk
    have overlaid := ByteFile.writePrefix_consecutive
      (encodeAll blake3 copied) []
      [encodeRecord (blake3 payload.bytes) payload.bytes]
      (encodeRecord (blake3 payload.bytes) payload.bytes).length
    rw [nextBytes, bytes, encodeAll_append]
    simpa [ByteFile.totalBytes, consecutive] using overlaid
  · rintro error final ⟨reason, sameStore, unchanged | ⟨next, -, disk⟩⟩
    · exact ⟨reason, sameStore.trans store, by rw [unchanged]; exact onDisk⟩
    · exact ⟨reason, sameStore.trans store,
        by rw [disk]; exact onDisk.setApart copying.apart next⟩

end Temporary

/-! ## Copying the live records -/

section Copy

variable {node state : Node} {segments : List (List StoredRecord)}
  {segment old temporary : Nat} {copied : List Payload}

/-- The payload of an indexed block whose record is intact. -/
def Intact
    (blake3 : Bytes → BlockId)
    (segments : List (List StoredRecord))
    (payload : Payload) : Prop :=
  ∃ location,
    newest (placeAll 0 segments) (blake3 payload.bytes) =
      some (.of blake3 payload, location)

/-- An indexed block whose newest record has another digest. -/
def Damaged
    (blake3 : Bytes → BlockId)
    (node : Node)
    (segments : List (List StoredRecord))
    (id : BlockId) : Prop :=
  id ∈ node.store.index ∧
    ∃ record,
      (newest (placeAll 0 segments) id).map Prod.fst = some record ∧
        blake3 record.payload.bytes ≠ id

/-- Why a rewrite stops: an I/O step fails, or a live record is damaged. -/
def StopReason
    (blake3 : Bytes → BlockId)
    (node : Node)
    (segments : List (List StoredRecord))
    (error : Failure) : Prop :=
  error = .io .failed ∨
    ∃ id, error = .corrupt id ∧ Damaged blake3 node segments id

/-- A live record is read through the old handle, verified and copied. -/
theorem Copying.ends_rewriteRecord
    (tracks : node.Tracks segments)
    (named : node.store.files[segment]? = some old)
    (copying : Copying blake3 node segment temporary copied state)
    {entry : BlockId × Location}
    (indexed :
      node.store.index[entry.1]? = some entry.2 ∧
        entry.2.segment = segment) :
    Ends (rewriteRecord blake3 old temporary segment
        ((encodeAll blake3 copied).length,
          locateFrom blake3 segment 0 copied) entry) state
      (fun rewritten final =>
        ∃ payload,
          blake3 payload.bytes = entry.1 ∧
          Intact blake3 segments payload ∧
          rewritten =
            ((encodeAll blake3 (copied ++ [payload])).length,
              locateFrom blake3 segment 0 (copied ++ [payload])) ∧
          Copying blake3 node segment temporary (copied ++ [payload]) final)
      (fun error final =>
        StopReason blake3 node segments error ∧
          Undisturbed node (segments.map encodeRecords) final) := by
  obtain ⟨id, location⟩ := entry
  obtain ⟨found, inSegment⟩ := indexed
  obtain ⟨record, last⟩ := tracks.indexed id location found
  obtain ⟨handle, file, handleAt, onDisk, length, read⟩ :=
    tracks.readAt_placed (mem_of_newest last).1
  rw [inSegment, named] at handleAt
  cases handleAt
  have small := record.payload.length_lt
  have allocated : ¬ location.payloadLen ≥ 2 ^ 63 := by
    omega
  have different : old ≠ temporary := by
    rintro rfl
    exact copying.apart (List.mem_of_getElem? named)
  have kept := copying.kept old file different onDisk
  simp only [rewriteRecord, ends_bind, allocated, if_false, readAt]
  refine ends_ioStep ?_ ⟨Or.inl rfl, copying.undisturbed tracks.files⟩
  intro fault
  have keptFile :
      ({ state with fault := fault } : Node).disk.objects[old]? = some file :=
    kept
  simp only [ends_fileOf keptFile, read, ends_pure]
  split
  · rename_i different
    refine ⟨Or.inr ⟨id, rfl, ?_, record, ?_, different⟩,
      copying.undisturbed tracks.files⟩
    · rw [ExtTreeMap.mem_iff_isSome_getElem?, found]
      rfl
    · rw [last]
      rfl
  · rename_i verified
    have verified := not_not.mp verified
    have written := (copying.withFault fault).ends_writeBatch tracks.files
      record.payload
    rw [verified] at written
    simp only [ends_bind, ends_pure]
    refine written.mono ?_ fun error final stopped =>
      ⟨Or.inl stopped.1, stopped.2⟩
    intro _ final extended
    have own : record = .of blake3 record.payload := by
      have sameId := (mem_of_newest last).2
      cases record
      simp only [StoredRecord.of, StoredRecord.mk.injEq, and_true] at *
      rw [sameId, verified]
    refine ⟨record.payload, verified, ⟨location, ?_⟩, ?_, extended⟩
    · rw [verified, ← own]
      exact last
    · rw [encodeAll_append, locateFrom_append, length]
      simp [encodeAll, locateFrom, verified,
        length_encodeRecord _ record.payload.length_lt]

theorem Copying.ends_rewriteRecords
    (tracks : node.Tracks segments)
    (named : node.store.files[segment]? = some old)
    (copying : Copying blake3 node segment temporary [] state)
    {kept : List (BlockId × Location)}
    (indexed :
      ∀ entry ∈ kept,
        node.store.index[entry.1]? = some entry.2 ∧
          entry.2.segment = segment) :
    Ends (kept.foldlM (rewriteRecord blake3 old temporary segment) (0, []))
      state
      (fun rewritten final =>
        ∃ copied,
          rewritten =
            ((encodeAll blake3 copied).length,
              locateFrom blake3 segment 0 copied) ∧
          copied.map (fun payload => blake3 payload.bytes) =
            kept.map Prod.fst ∧
          (∀ payload ∈ copied, Intact blake3 segments payload) ∧
          Copying blake3 node segment temporary copied final)
      (fun error final =>
        StopReason blake3 node segments error ∧
          Undisturbed node (segments.map encodeRecords) final) := by
  refine (ends_foldlM
    (fun rewritten remaining final =>
      ∃ copied,
        rewritten =
          ((encodeAll blake3 copied).length,
            locateFrom blake3 segment 0 copied) ∧
        copied.map (fun payload => blake3 payload.bytes) ++
            remaining.map Prod.fst =
          kept.map Prod.fst ∧
        (∀ payload ∈ copied, Intact blake3 segments payload) ∧
        (∀ entry ∈ remaining, entry ∈ kept) ∧
        Copying blake3 node segment temporary copied final) ?_ ?_).imp ?_
  · rintro _ entry rest current ⟨copied, rfl, ids, intact, left, running⟩
    refine (running.ends_rewriteRecord tracks named
      (indexed entry (left entry (by simp)))).imp ?_
    rintro _ final ⟨payload, digest, here, rfl, extended⟩
    refine ⟨copied ++ [payload], rfl, ?_, ?_, ?_, extended⟩
    · rw [← ids]
      simp [digest]
    · intro other member
      rcases List.mem_append.mp member with before | last
      · exact intact other before
      · rw [List.mem_singleton.mp last]
        exact here
    · exact fun later member => left later (by simp [member])
  · exact ⟨[], rfl, rfl, by simp, fun _ member => member, copying⟩
  · rintro rewritten final ⟨copied, shape, ids, intact, -, finished⟩
    rw [List.map_nil, List.append_nil] at ids
    exact ⟨copied, shape, ids, intact, finished⟩

end Copy

/-! ## Taking over the name of the segment -/

section Install

variable {node state : Node} {contents : List Bytes}
  {segments : List (List StoredRecord)} {segment temporary : Nat}
  {copied : List Payload}

/-- The directory after the rename names the rewritten file. -/
theorem Copying.renamed
    (files : node.disk.Files node.store.files contents)
    (within : segment < contents.length)
    (copying : Copying blake3 node segment temporary copied state) :
    ({ state.disk with
      segments := state.disk.segments.insert segment temporary
      temporaries := state.disk.temporaries.erase segment } : Disk).Files
      (node.store.files.set segment temporary)
      (contents.set segment (encodeAll blake3 copied)) := by
  obtain ⟨-, onDisk⟩ := copying.undisturbed files
  obtain ⟨file, found, same⟩ := copying.contents
  rw [← same]
  refine onDisk.swap copying.named found ?_
  rw [files.sameLength]
  exact within

/-- A rewrite up to the rename: if it fails, nothing has changed. -/
theorem Node.Tracks.ends_installRewrite
    (tracks : node.Tracks segments)
    (within : segment < segments.length)
    {kept : List (BlockId × Location)}
    (indexed :
      ∀ entry ∈ kept,
        node.store.index[entry.1]? = some entry.2 ∧
          entry.2.segment = segment) :
    Ends (installRewrite blake3 segment kept) node
      (fun installed final =>
        ∃ copied,
          installed.2.2.2 = locateFrom blake3 segment 0 copied ∧
          copied.map (fun payload => blake3 payload.bytes) =
            kept.map Prod.fst ∧
          (∀ payload ∈ copied, Intact blake3 segments payload) ∧
          final.store = node.store ∧
          final.disk.Files (node.store.files.set segment installed.1)
            ((segments.set segment
              (copied.map (StoredRecord.of blake3))).map encodeRecords))
      (fun error final =>
        StopReason blake3 node segments error ∧
          Undisturbed node (segments.map encodeRecords) final) := by
  obtain ⟨old, file, named, onDisk, -⟩ :=
    tracks.files.file_at
      (show (segments.map encodeRecords)[segment]? =
        some (encodeRecords segments[segment]) by simp [within])
  simp only [installRewrite, ends_bind, ends_get, named]
  have failing (error : Failure) (final : Node)
      (stopped :
        error = .io .failed ∧
          Undisturbed node (segments.map encodeRecords) final) :
      StopReason blake3 node segments error ∧
        Undisturbed node (segments.map encodeRecords) final :=
    ⟨Or.inl stopped.1, stopped.2⟩
  refine (ends_truncateTemporary blake3 tracks.files).mono ?_ failing
  rintro - started ⟨_, starting⟩
  refine (starting.ends_openTemporary tracks.files).mono ?_ failing
  rintro temporary opened ⟨rfl, openedCopying⟩
  refine (openedCopying.ends_rewriteRecords tracks named indexed).imp ?_
  rintro _ state ⟨copied, rfl, copiedIds, intact, finished⟩
  simp only
  refine ends_ioStep ?_ ⟨Or.inl rfl, finished.undisturbed tracks.files⟩
  intro synced
  simp only [fileLen, ends_bind]
  refine ends_ioStep ?_ ⟨Or.inl rfl, finished.undisturbed tracks.files⟩
  intro measured
  have different : old ≠ temporary := by
    rintro rfl
    exact finished.apart (List.mem_of_getElem? named)
  have oldFound :
      ({ state with fault := measured } : Node).disk.objects[old]? =
        some file :=
    finished.kept old file different onDisk
  simp only [ends_fileOf oldFound, ends_pure]
  refine ((finished.withFault measured).ends_openTemporary
    tracks.files).mono ?_ failing
  rintro handle reopened ⟨rfl, ready⟩
  rw [renameTemporary, ends_bind]
  refine ends_ioStep ?_ ⟨Or.inl rfl, ready.undisturbed tracks.files⟩
  intro renamed
  have present : reopened.disk.temporaries[segment]? = some handle :=
    ready.named
  simp only [ends_bind, ends_get, present, ends_modify]
  refine ⟨copied, rfl, copiedIds, intact, ready.store, ?_⟩
  rw [List.map_set, ← encodeAll_eq]
  exact ready.renamed tracks.files (by simpa using within)

end Install

/-! ## The newest records after a swap -/

section Newest

variable {segments : List (List StoredRecord)} {segment : Nat}
  {old : List StoredRecord} {id : BlockId} {record : StoredRecord}
  {location : Location}

/-- Behind, in and before one segment. -/
theorem newest_set
    (within : segment < segments.length)
    (records : List StoredRecord)
    (id : BlockId) :
    newest (placeAll 0 (segments.set segment records)) id =
      (newest (placeAll (segment + 1) (segments.drop (segment + 1))) id).or
        ((newest (placeFrom segment 0 records) id).or
          (newest (placeAll 0 (segments.take segment)) id)) := by
  rw [List.set_eq_take_append_cons_drop, if_pos within, placeAll_append,
    newest_append, placeAll, newest_append, Option.or_assoc]
  simp [Nat.min_eq_left within.le]

theorem segment_lt_of_newest_drop
    (found :
      newest (placeAll (segment + 1) (segments.drop (segment + 1))) id =
        some (record, location)) :
    segment < location.segment := by
  obtain ⟨position, records, -, placed⟩ :=
    mem_placeAll.mp (mem_of_newest found).1
  rw [segment_of_mem_placeFrom placed]
  omega

theorem segment_gt_of_newest_take
    (found :
      newest (placeAll 0 (segments.take segment)) id =
        some (record, location)) :
    location.segment < segment := by
  obtain ⟨position, records, present, placed⟩ :=
    mem_placeAll.mp (mem_of_newest found).1
  have within := (List.getElem?_eq_some_iff.mp present).1
  rw [List.length_take] at within
  rw [segment_of_mem_placeFrom placed]
  omega

/-- The newest record of a block is in one segment: none is behind it. -/
theorem newest_in_segment
    (present : segments[segment]? = some old)
    (found : newest (placeAll 0 segments) id = some (record, location))
    (inSegment : location.segment = segment) :
    newest (placeAll (segment + 1) (segments.drop (segment + 1))) id = none ∧
      newest (placeFrom segment 0 old) id = some (record, location) := by
  have within := (List.getElem?_eq_some_iff.mp present).1
  rw [← set_same present, newest_set within] at found
  cases behind :
      newest (placeAll (segment + 1) (segments.drop (segment + 1))) id with
  | some entry =>
      rw [behind, Option.some_or] at found
      cases found
      have later := segment_lt_of_newest_drop behind
      omega
  | none =>
      rw [behind, Option.none_or] at found
      refine ⟨rfl, ?_⟩
      cases here : newest (placeFrom segment 0 old) id with
      | some entry =>
          rwa [here, Option.some_or] at found
      | none =>
          rw [here, Option.none_or] at found
          have earlier := segment_gt_of_newest_take found
          omega

/-- A block whose newest record is elsewhere keeps it. -/
theorem newest_set_elsewhere
    (present : segments[segment]? = some old)
    (found : newest (placeAll 0 segments) id = some (record, location))
    (elsewhere : location.segment ≠ segment)
    {records : List StoredRecord}
    (absent : ∀ other ∈ records, other.id ≠ id) :
    newest (placeAll 0 (segments.set segment records)) id =
      some (record, location) := by
  have within := (List.getElem?_eq_some_iff.mp present).1
  have none : newest (placeFrom segment 0 records) id = none := by
    rw [newest_eq_none_iff]
    intro entry member
    refine absent entry.1 ?_
    rw [← map_fst_placeFrom segment 0 records]
    exact List.mem_map_of_mem member
  rw [newest_set within, none, Option.none_or]
  rw [← set_same present, newest_set within] at found
  cases behind :
      newest (placeAll (segment + 1) (segments.drop (segment + 1))) id with
  | some entry =>
      rwa [behind, Option.some_or] at found
  | none =>
      rw [behind, Option.none_or] at found
      rw [Option.none_or]
      cases here : newest (placeFrom segment 0 old) id with
      | some entry =>
          rw [here, Option.some_or] at found
          cases found
          exact absurd
            (segment_of_mem_placeFrom (mem_of_newest here).1) elsewhere
      | none =>
          rwa [here, Option.none_or] at found

end Newest

/-! ## What compaction leaves -/

/-- A compaction, complete or not, as far as reading is concerned. -/
structure Compacted
    (live : BlockId → Bool)
    (node : Node)
    (segments : List (List StoredRecord))
    (final : Node)
    (after : List (List StoredRecord)) : Prop where
  tracks : final.Tracks after
  sameLength : after.length = segments.length
  kept :
    ∀ id, id ∈ final.store.index →
      id ∈ node.store.index ∧
        (newest (placeAll 0 after) id).map Prod.fst =
          (newest (placeAll 0 segments) id).map Prod.fst
  alive :
    ∀ id, id ∈ node.store.index → live id = true →
      id ∈ final.store.index
  fromBefore :
    ∀ (segment : Nat) (records : List StoredRecord),
      after[segment]? = some records →
        ∃ before, segments[segment]? = some before ∧ records.Subperm before

section Compacted

variable {live : BlockId → Bool} {node middle final : Node}
  {segments between after : List (List StoredRecord)}

theorem Compacted.refl
    (live : BlockId → Bool)
    (tracks : node.Tracks segments) :
    Compacted live node segments node segments where
  tracks := tracks
  sameLength := rfl
  kept := fun _ indexed => ⟨indexed, rfl⟩
  alive := fun _ indexed _ => indexed
  fromBefore := fun _ records present =>
    ⟨records, present, List.Subperm.refl records⟩

theorem Compacted.trans
    (early : Compacted live node segments middle between)
    (late : Compacted live middle between final after) :
    Compacted live node segments final after where
  tracks := late.tracks
  sameLength := late.sameLength.trans early.sameLength
  kept := fun id indexed =>
    have ⟨before, same⟩ := late.kept id indexed
    have ⟨first, sameFirst⟩ := early.kept id before
    ⟨first, same.trans sameFirst⟩
  alive := fun id indexed alive =>
    late.alive id (early.alive id indexed alive) alive
  fromBefore := fun segment records present =>
    have ⟨_, middlePresent, inMiddle⟩ :=
      late.fromBefore segment records present
    have ⟨first, firstPresent, inFirst⟩ :=
      early.fromBefore segment _ middlePresent
    ⟨first, firstPresent, inMiddle.trans inFirst⟩

/-- A record that stops a later round was there from the start. -/
theorem Compacted.stopReason
    (compacted : Compacted live node segments middle between)
    {error : Failure}
    (reason : StopReason blake3 middle between error) :
    StopReason blake3 node segments error := by
  rcases reason with failed | ⟨id, corrupt, indexed, record, found, differs⟩
  · exact Or.inl failed
  · obtain ⟨before, same⟩ := compacted.kept id indexed
    exact Or.inr ⟨id, corrupt, before, record, same ▸ found, differs⟩

/-- The state that a failed rewrite leaves. -/
theorem Compacted.of_undisturbed
    (live : BlockId → Bool)
    (tracks : node.Tracks segments)
    (undisturbed :
      Undisturbed node (segments.map encodeRecords) final) :
    Compacted live node segments final segments := by
  obtain ⟨store, files⟩ := undisturbed
  refine {
    tracks := {
      nonempty := tracks.nonempty
      files := by rw [store]; exact files
      indexed := by rw [store]; exact tracks.indexed
      tail := by rw [store]; exact tracks.tail
      accepting := by rw [store]; exact tracks.accepting }
    sameLength := rfl
    kept := ?_
    alive := ?_
    fromBefore := fun _ records present =>
      ⟨records, present, List.Subperm.refl records⟩ }
  · rw [store]
    exact fun _ indexed => ⟨indexed, rfl⟩
  · rw [store]
    exact fun _ indexed _ => indexed

end Compacted

/-! ## Swapping a segment -/

section Swap

variable {node : Node} {segments : List (List StoredRecord)} {segment : Nat}
  {old : List StoredRecord} {copied : List Payload}
  {kept : List (BlockId × Location)} {handle : Nat} {id : BlockId}

/-- The copies that a rewrite made of the newest records of a segment. -/
structure Copies
    (blake3 : Bytes → BlockId)
    (node : Node)
    (segments : List (List StoredRecord))
    (segment : Nat)
    (kept : List (BlockId × Location))
    (copied : List Payload) : Prop where
  indexed :
    ∀ entry ∈ kept,
      node.store.index[entry.1]? = some entry.2 ∧ entry.2.segment = segment
  ids :
    copied.map (fun payload => blake3 payload.bytes) = kept.map Prod.fst
  nodup : (kept.map Prod.fst).Nodup
  intact : ∀ payload ∈ copied, Intact blake3 segments payload

/-- A copied payload was the newest of its block, and in this segment. -/
theorem Copies.newest_before
    (copies : Copies blake3 node segments segment kept copied)
    (tracks : node.Tracks segments)
    (present : segments[segment]? = some old)
    {payload : Payload}
    (member : payload ∈ copied) :
    ∃ location,
      newest (placeAll (segment + 1) (segments.drop (segment + 1)))
          (blake3 payload.bytes) = none ∧
        newest (placeFrom segment 0 old) (blake3 payload.bytes) =
          some (.of blake3 payload, location) ∧
        newest (placeAll 0 segments) (blake3 payload.bytes) =
          some (.of blake3 payload, location) := by
  obtain ⟨location, found⟩ := copies.intact payload member
  have listed : blake3 payload.bytes ∈ kept.map Prod.fst := by
    rw [← copies.ids]
    exact List.mem_map_of_mem member
  obtain ⟨entry, inKept, same⟩ := List.mem_map.mp listed
  obtain ⟨isIndexed, inSegment⟩ := copies.indexed entry inKept
  obtain ⟨record, last⟩ := tracks.indexed entry.1 entry.2 isIndexed
  rw [same, found] at last
  cases last
  obtain ⟨behind, here⟩ := newest_in_segment present found inSegment
  exact ⟨entry.2, behind, here, found⟩

/-- After the swap the newest record of a kept block is its copy. -/
theorem Copies.newest_after
    (copies : Copies blake3 node segments segment kept copied)
    (tracks : node.Tracks segments)
    (present : segments[segment]? = some old)
    (member : id ∈ kept.map Prod.fst) :
    ∃ record location,
      newest (placeFrom segment 0 (copied.map (StoredRecord.of blake3))) id =
          some (record, location) ∧
        newest (placeAll 0
            (segments.set segment (copied.map (StoredRecord.of blake3)))) id =
          some (record, location) ∧
        (newest (placeAll 0 segments) id).map Prod.fst = some record := by
  have within := (List.getElem?_eq_some_iff.mp present).1
  rw [← copies.ids] at member
  obtain ⟨first, inCopied, rfl⟩ := List.mem_map.mp member
  cases here : newest
      (placeFrom segment 0 (copied.map (StoredRecord.of blake3)))
      (blake3 first.bytes) with
  | none =>
      have listed : StoredRecord.of blake3 first ∈
          (placeFrom segment 0
            (copied.map (StoredRecord.of blake3))).map Prod.fst := by
        rw [map_fst_placeFrom]
        exact List.mem_map_of_mem inCopied
      obtain ⟨entry, placed, same⟩ := List.mem_map.mp listed
      exact absurd (congrArg StoredRecord.id same)
        (newest_eq_none_iff.mp here entry placed)
  | some entry =>
      obtain ⟨record, location⟩ := entry
      obtain ⟨placed, sameId⟩ := mem_of_newest here
      have listed : record ∈ copied.map (StoredRecord.of blake3) := by
        rw [← map_fst_placeFrom segment 0
          (copied.map (StoredRecord.of blake3))]
        exact List.mem_map_of_mem placed
      obtain ⟨payload, payloadCopied, rfl⟩ := List.mem_map.mp listed
      obtain ⟨_, behind, -, before⟩ :=
        copies.newest_before tracks present payloadCopied
      have sameDigest : blake3 payload.bytes = blake3 first.bytes := sameId
      rw [sameDigest] at behind before
      refine ⟨_, location, rfl, ?_, by rw [before]; rfl⟩
      rw [newest_set within, behind, here, Option.none_or, Option.some_or]

/-- A block that is not in the segment keeps its newest record. -/
theorem Copies.newest_elsewhere
    (copies : Copies blake3 node segments segment kept copied)
    (tracks : node.Tracks segments)
    (present : segments[segment]? = some old)
    {location : Location}
    (indexed : node.store.index[id]? = some location)
    (elsewhere : location.segment ≠ segment) :
    ∃ record,
      newest (placeAll 0
          (segments.set segment (copied.map (StoredRecord.of blake3)))) id =
          some (record, location) ∧
        (newest (placeAll 0 segments) id).map Prod.fst = some record := by
  obtain ⟨record, found⟩ := tracks.indexed id location indexed
  refine ⟨record, newest_set_elsewhere present found elsewhere ?_,
    by rw [found]; rfl⟩
  intro other member same
  obtain ⟨payload, inCopied, rfl⟩ := List.mem_map.mp member
  have listed : blake3 payload.bytes ∈ kept.map Prod.fst := by
    rw [← copies.ids]
    exact List.mem_map_of_mem inCopied
  obtain ⟨entry, inKept, sameEntry⟩ := List.mem_map.mp listed
  obtain ⟨isIndexed, inSegment⟩ := copies.indexed entry inKept
  have sameDigest : blake3 payload.bytes = id := same
  rw [sameEntry, sameDigest, indexed] at isIndexed
  cases isIndexed
  exact elsewhere inSegment

/-- What the index says after the swap. -/
theorem Copies.index_after
    {live : BlockId → Bool}
    {order : IterationOrder}
    (copies : Copies blake3 node segments segment
      ((segmentEntries order segment node.store.index).filter
        fun entry => live entry.1) copied)
    (tracks : node.Tracks segments)
    (present : segments[segment]? = some old)
    {location : Location}
    (indexed :
      (node.store.swapSegment segment handle
        ((segmentEntries order segment node.store.index).filter
          fun entry => !live entry.1)
        (locateFrom blake3 segment 0 copied)).index[id]? = some location) :
    ∃ record,
      newest (placeAll 0
          (segments.set segment (copied.map (StoredRecord.of blake3)))) id =
          some (record, location) ∧
        (newest (placeAll 0 segments) id).map Prod.fst = some record := by
  simp only [BlockStore.swapSegment, locateFrom_eq,
    getElem?_insertMany_placed] at indexed
  by_cases isKept : id ∈ ((segmentEntries order segment
      node.store.index).filter fun entry => live entry.1).map Prod.fst
  · obtain ⟨record, place, here, after, before⟩ :=
      copies.newest_after tracks present isKept
    rw [here] at indexed
    cases indexed
    exact ⟨record, after, before⟩
  · have uncopied : newest
        (placeFrom segment 0 (copied.map (StoredRecord.of blake3))) id =
          none := by
      rw [newest_eq_none_iff]
      intro entry placed same
      have listed : entry.1 ∈ copied.map (StoredRecord.of blake3) := by
        rw [← map_fst_placeFrom segment 0
          (copied.map (StoredRecord.of blake3))]
        exact List.mem_map_of_mem placed
      obtain ⟨payload, inCopied, sameRecord⟩ := List.mem_map.mp listed
      rw [← copies.ids, ← same, ← sameRecord] at isKept
      exact isKept (List.mem_map_of_mem inCopied)
    rw [uncopied, Option.map_none, Option.none_or,
      FiniteMap.getElem?_eraseAll] at indexed
    split at indexed
    · cases indexed
    · rename_i notDropped
      refine copies.newest_elsewhere tracks present indexed ?_
      intro inSegment
      rw [mem_ids_segmentEntries live] at isKept
      rw [mem_ids_segmentEntries fun id => !live id] at notDropped
      have here : segmentOf node.store.index id = some segment := by
        rw [segmentOf, indexed, Option.map_some, inSegment]
      cases alive : live id with
      | true => exact isKept ⟨here, alive⟩
      | false => exact notDropped ⟨here, by rw [alive]; rfl⟩

/-- Each copied record is one of the segment, and none is copied twice. -/
theorem Copies.subperm
    {kept : List (BlockId × Location)}
    (copies : Copies blake3 node segments segment kept copied)
    (tracks : node.Tracks segments)
    {records : List StoredRecord}
    (present : segments[segment]? = some records) :
    (copied.map (StoredRecord.of blake3)).Subperm records := by
  refine List.subperm_of_subset ?_ ?_
  · have keys := copies.nodup
    rw [← copies.ids] at keys
    refine List.Nodup.of_map StoredRecord.id ?_
    rw [List.map_map]
    exact keys
  · intro record member
    obtain ⟨payload, inCopied, rfl⟩ := List.mem_map.mp member
    obtain ⟨location, -, here, -⟩ :=
      copies.newest_before tracks present inCopied
    rw [← map_fst_placeFrom segment 0 records]
    exact List.mem_map_of_mem (mem_of_newest here).1

/-- A swapped segment leaves a store that is compacted that far. -/
theorem Copies.compacted
    {live : BlockId → Bool}
    {order : IterationOrder}
    (copies : Copies blake3 node segments segment
      ((segmentEntries order segment node.store.index).filter
        fun entry => live entry.1) copied)
    (tracks : node.Tracks segments)
    (isSealed : segment + 1 < segments.length)
    {handle : Nat}
    {final : Node}
    (store :
      final.store =
        node.store.swapSegment segment handle
          ((segmentEntries order segment node.store.index).filter
            fun entry => !live entry.1)
          (locateFrom blake3 segment 0 copied))
    (files :
      final.disk.Files (node.store.files.set segment handle)
        ((segments.set segment
          (copied.map (StoredRecord.of blake3))).map encodeRecords)) :
    Compacted live node segments final
      (segments.set segment (copied.map (StoredRecord.of blake3))) := by
  have within : segment < segments.length := Nat.lt_of_succ_lt isSealed
  have present : segments[segment]? = some segments[segment] :=
    List.getElem?_eq_getElem within
  have moved : (locateFrom blake3 segment 0 copied).map Prod.fst =
      ((segmentEntries order segment node.store.index).filter
        fun entry => live entry.1).map Prod.fst := by
    rw [map_fst_locateFrom]
    exact copies.ids
  have inSegment :
      ∀ entry ∈ locateFrom blake3 segment 0 copied,
        entry.2.segment = segment := by
    rw [locateFrom_eq]
    intro entry member
    obtain ⟨⟨record, place⟩, placed, rfl⟩ := List.mem_map.mp member
    exact segment_of_mem_placeFrom placed
  have dropped := dropped_swapSegment moved inSegment handle
  rw [← store] at dropped
  have known {id : BlockId} {location : Location}
      (found : final.store.index[id]? = some location) :
      ∃ record,
        newest (placeAll 0
            (segments.set segment (copied.map (StoredRecord.of blake3)))) id =
            some (record, location) ∧
          (newest (placeAll 0 segments) id).map Prod.fst = some record :=
    copies.index_after tracks present (by rw [← store]; exact found)
  refine {
    tracks := {
      nonempty := by simpa using tracks.nonempty
      files := by rw [store]; exact files
      indexed := ?_
      tail := ?_
      accepting := by rw [store]; exact tracks.accepting }
    sameLength := List.length_set
    kept := ?_
    alive := ?_
    fromBefore := ?_ }
  · intro id location found
    obtain ⟨record, last, -⟩ := known found
    exact ⟨record, last⟩
  · rw [store, getLast?_set_of_lt isSealed]
    exact tracks.tail
  · intro id indexed
    obtain ⟨location, before, -⟩ := dropped.mem_iff.mp indexed
    rw [ExtTreeMap.mem_iff_isSome_getElem?, Option.isSome_iff_exists]
      at indexed
    obtain ⟨place, found⟩ := indexed
    obtain ⟨record, after, same⟩ := known found
    refine ⟨?_, by rw [after, same]; rfl⟩
    rw [ExtTreeMap.mem_iff_isSome_getElem?, before]
    rfl
  · intro id indexed alive
    rw [ExtTreeMap.mem_iff_isSome_getElem?, Option.isSome_iff_exists]
      at indexed
    obtain ⟨location, found⟩ := indexed
    exact dropped.mem_iff.mpr ⟨location, found, Or.inl alive⟩
  · intro position records found
    by_cases same : segment = position
    · subst same
      rw [List.getElem?_set_self within] at found
      cases found
      exact ⟨_, present, copies.subperm tracks present⟩
    · rw [List.getElem?_set_ne same] at found
      exact ⟨records, found, List.Subperm.refl records⟩

end Swap

/-! ## One segment -/

section Segment

variable {node : Node} {segments : List (List StoredRecord)} {segment : Nat}

theorem nodup_segmentEntries
    (order : IterationOrder)
    (segment : Nat)
    (index : ExtTreeMap BlockId Location) :
    ((segmentEntries order segment index).map Prod.fst).Nodup := by
  have keys : (index.toList.map Prod.fst).Nodup := by
    rw [ExtTreeMap.map_fst_toList_eq_keys]
    exact ExtTreeMap.nodup_keys
  rw [segmentEntries, ((order.arrange_perm _).map Prod.fst).nodup_iff]
  exact keys.sublist (List.filter_sublist.map Prod.fst)

/-- A segment in which a dead block is indexed. -/
def HasDead
    (live : BlockId → Bool)
    (index : ExtTreeMap BlockId Location)
    (segment : Nat) : Prop :=
  ∃ id, segmentOf index id = some segment ∧ live id = false

/-- Dead blocks are those that compaction lists as dropped. -/
theorem hasDead_iff
    {live : BlockId → Bool}
    (order : IterationOrder)
    {index : ExtTreeMap BlockId Location} :
    HasDead live index segment ↔
      ((segmentEntries order segment index).filter
        fun entry => !live entry.1) ≠ [] := by
  rw [Ne, ← List.map_eq_nil_iff (f := Prod.fst),
    List.eq_nil_iff_forall_not_mem]
  simp only [mem_ids_segmentEntries fun id => !live id, not_forall, not_not,
    Bool.not_eq_true', HasDead]

/-- The segments after one of them was compacted. -/
def SweptSegment
    (live : BlockId → Bool)
    (index : ExtTreeMap BlockId Location)
    (segment : Nat)
    (segments after : List (List StoredRecord)) : Prop :=
  ¬ HasDead live index segment ∧ after = segments ∨
    HasDead live index segment ∧
      ∃ records,
        after = segments.set segment records ∧
          ∀ record ∈ records, live record.id = true

/-- Compacting a sealed segment, whatever fails. -/
theorem Node.Tracks.ends_compactSegment
    (tracks : node.Tracks segments)
    (isSealed : segment + 1 < segments.length)
    (live : BlockId → Bool)
    (order : IterationOrder)
    (stats : CompactStats) :
    Ends (compactSegment blake3 live order stats segment) node
      (fun _ final =>
        ∃ after,
          Compacted live node segments final after ∧
            SweptSegment live node.store.index segment segments after)
      (fun error final =>
        StopReason blake3 node segments error ∧
          ∃ after, Compacted live node segments final after) := by
  have within : segment < segments.length := Nat.lt_of_succ_lt isSealed
  simp only [compactSegment, ends_bind, ends_get]
  split
  · rename_i nothingDead
    refine ⟨segments, .refl live tracks, Or.inl ⟨?_, rfl⟩⟩
    rw [hasDead_iff order, not_not]
    exact List.isEmpty_iff.mp nothingDead
  · rename_i someDead
    have hasDead : HasDead live node.store.index segment :=
      (hasDead_iff order).mpr (mt List.isEmpty_iff.mpr someDead)
    rw [rewriteSegment_eq, ends_bind]
    have indexed :
        ∀ entry ∈ ((segmentEntries order segment node.store.index).filter
            fun entry => live entry.1),
          node.store.index[entry.1]? = some entry.2 ∧
            entry.2.segment = segment :=
      fun entry member =>
        mem_segmentEntries.mp (List.mem_filter.mp member).1
    refine (tracks.ends_installRewrite within indexed).mono ?_ ?_
    · rintro ⟨handle, oldLen, offset, moved⟩ state
        ⟨copied, rfl, ids, intact, store, files⟩
      have copies : Copies blake3 node segments segment
          ((segmentEntries order segment node.store.index).filter
            fun entry => live entry.1) copied := {
        indexed := indexed
        ids := ids
        nodup := (nodup_segmentEntries order segment node.store.index).sublist
          (List.filter_sublist.map Prod.fst)
        intact := intact }
      have alive : ∀ record ∈ copied.map (StoredRecord.of blake3),
          live record.id = true := by
        intro record member
        obtain ⟨payload, inCopied, rfl⟩ := List.mem_map.mp member
        have listed := List.mem_map_of_mem
          (f := fun payload : Payload => blake3 payload.bytes) inCopied
        rw [ids, mem_ids_segmentEntries live] at listed
        exact listed.2
      simp only [publishRewrite, ends_bind, ends_modify, syncDir]
      refine ends_ioStep ?_ ?_
      · intro fault
        exact ⟨_, copies.compacted tracks isSealed (by rw [store]; rfl) files,
          Or.inr ⟨hasDead, _, rfl, alive⟩⟩
      · exact ⟨Or.inl rfl, _,
          copies.compacted tracks isSealed (by rw [store]; rfl) files⟩
    · rintro error final ⟨reason, undisturbed⟩
      exact ⟨reason, segments, .of_undisturbed live tracks undisturbed⟩

end Segment

/-! ## All segments -/

section Rounds

variable {node : Node} {segments : List (List StoredRecord)}
  {live : BlockId → Bool}

/-- The segments after the first rounds: those with dead blocks are swept. -/
structure SweptBelow
    (live : BlockId → Bool)
    (index : ExtTreeMap BlockId Location)
    (done : Nat)
    (segments after : List (List StoredRecord)) : Prop where
  swept :
    ∀ (segment : Nat) (records : List StoredRecord),
      after[segment]? = some records →
      segment < done →
      HasDead live index segment →
        ∀ record ∈ records, live record.id = true
  untouched :
    ∀ segment : Nat,
      ¬ (segment < done ∧ HasDead live index segment) →
        after[segment]? = segments[segment]?

/-- Earlier rounds do not touch the blocks of a later segment. -/
theorem Dropped.hasDead_iff
    {done segment : Nat}
    {before after : ExtTreeMap BlockId Location}
    (dropped :
      Dropped live (fun segment => decide (segment < done)) before after)
    (later : done ≤ segment) :
    HasDead live after segment ↔ HasDead live before segment := by
  have here (id : BlockId) :
      segmentOf after id = some segment ↔
        segmentOf before id = some segment := by
    rw [dropped id, Option.filter_eq_some_iff]
    simp [later]
  simp only [HasDead, here]

theorem SweptBelow.succ
    {index current : ExtTreeMap BlockId Location}
    {done : Nat}
    {between after : List (List StoredRecord)}
    (swept : SweptBelow live index done segments between)
    (sameDead : HasDead live current done ↔ HasDead live index done)
    (round : SweptSegment live current done between after) :
    SweptBelow live index (done + 1) segments after := by
  rcases round with ⟨noneDead, rfl⟩ | ⟨someDead, rewritten, rfl, alive⟩
  · rw [sameDead] at noneDead
    constructor
    · intro segment records present earlier dead
      rcases Nat.lt_succ_iff_lt_or_eq.mp earlier with before | rfl
      · exact swept.swept segment records present before dead
      · exact absurd dead noneDead
    · intro segment unswept
      exact swept.untouched segment fun both =>
        unswept ⟨both.1.trans (Nat.lt_succ_self done), both.2⟩
  · constructor
    · intro segment records present earlier dead
      rcases Nat.lt_succ_iff_lt_or_eq.mp earlier with before | rfl
      · rw [List.getElem?_set_ne before.ne'] at present
        exact swept.swept segment records present before dead
      · rw [List.getElem?_set, if_pos rfl] at present
        split at present
        · cases present
          exact alive
        · cases present
    · intro segment unswept
      have different : done ≠ segment := by
        rintro rfl
        exact unswept ⟨Nat.lt_succ_self done, sameDead.mp someDead⟩
      rw [List.getElem?_set_ne different]
      exact swept.untouched segment fun both =>
        unswept ⟨both.1.trans (Nat.lt_succ_self done), both.2⟩

/--
Compaction, whatever fails.  If it returns, the sealed segments with dead
blocks have live records only.
-/
theorem Node.Tracks.ends_compact
    (tracks : node.Tracks segments)
    (live : BlockId → Bool)
    (order : IterationOrder) :
    Ends (compact blake3 live order) node
      (fun _ final =>
        ∃ after,
          Compacted live node segments final after ∧
          Dropped live (fun segment => decide (segment < segments.length - 1))
            node.store.index final.store.index ∧
          SweptBelow live node.store.index (segments.length - 1) segments
            after)
      (fun error final =>
        StopReason blake3 node segments error ∧
          ∃ after, Compacted live node segments final after) := by
  have fileCount : node.store.files.length = segments.length := by
    rw [tracks.files.sameLength, List.length_map]
  simp only [compact, ends_bind, ends_get, fileCount]
  refine ends_foldlM_range
    (fun done _ (state : Node) =>
      ∃ between,
        Compacted live node segments state between ∧
        Dropped live (fun segment => decide (segment < done))
          node.store.index state.store.index ∧
        SweptBelow live node.store.index done segments between) ?_ ?_
  · rintro segment stats state within ⟨between, compacted, dropped, swept⟩
    have isSealed : segment + 1 < between.length := by
      rw [compacted.sameLength]
      omega
    refine ((compacted.tracks.ends_compactSegment isSealed live order
      stats).and
        (ends_compactSegment_index live order stats segment)).mono ?_ ?_
    · rintro _ final ⟨⟨after, round, sweptRound⟩, droppedRound, -⟩
      exact ⟨after, compacted.trans round, dropped.succ droppedRound,
        swept.succ (dropped.hasDead_iff (Nat.le_refl segment)) sweptRound⟩
    · rintro error final ⟨⟨reason, after, round⟩, -⟩
      exact ⟨compacted.stopReason reason, after, compacted.trans round⟩
  · refine ⟨segments, .refl live tracks, ?_, ?_⟩
    · simpa using Dropped.refl live node.store.index
    · exact ⟨fun _ _ _ impossible => absurd impossible (Nat.not_lt_zero _),
        fun _ _ => rfl⟩

end Rounds

end Hash

end KalpakDb
