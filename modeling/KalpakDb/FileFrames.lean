import KalpakDb.CompactionIndex

namespace KalpakDb

/-!
# What the calls of a store leave alone in its files

A batch writes behind the tail of the active file and to files it creates; a
compaction writes to the files of its rewrites.  Everything else that was
ever written stays as it is, whichever I/O step fails.  Nothing is assumed of
what the files contain, so this also holds after damage and torn writes.
-/

open Std (ExtTreeMap)
open Contract
open ByteFile (consecutive)

/-- The file table of a store is that of its directory. -/
def Node.Regular (node : Node) : Prop :=
  ∃ contents, node.disk.Files node.store.files contents

theorem Node.Regular.withFault
    {node : Node}
    (regular : node.Regular)
    (fault : Option Fault) :
    ({ node with fault := fault } : Node).Regular :=
  regular

/-- A file of the table is on the disk. -/
theorem Node.Regular.file_of_mem
    {node : Node}
    (regular : node.Regular)
    {handle : Nat}
    (member : handle ∈ node.store.files) :
    ∃ file, node.disk.objects[handle]? = some file := by
  obtain ⟨contents, files⟩ := regular
  exact ⟨_, List.getElem?_eq_getElem (files.handle_lt member)⟩

/-- A segment that is stored in the active file is the last one. -/
theorem Node.Regular.last_of_active
    {node : Node}
    (regular : node.Regular)
    {segment handle : Nat}
    (named : node.store.files[segment]? = some handle)
    (active : node.store.files.getLast? = some handle) :
    segment + 1 = node.store.files.length := by
  obtain ⟨contents, files⟩ := regular
  obtain ⟨within, -⟩ := List.getElem?_eq_some_iff.mp named
  rw [List.getLast?_eq_getElem?] at active
  have position := (List.getElem?_inj within files.distinct).mp
    (named.trans active.symm)
  omega

/-! ## Appending -/

/--
What a batch leaves alone: every file but the active one, and the front of
that one up to the tail.
-/
structure Kept (start final : Node) : Prop where
  objects :
    ∀ (handle : Nat) (file : SegmentFile),
      start.disk.objects[handle]? = some file →
        ∃ later : SegmentFile,
          final.disk.objects[handle]? = some later ∧
          (start.store.files.getLast? ≠ some handle → later = file) ∧
          later.bytes.take start.store.tail =
            file.bytes.take start.store.tail ∧
          file.bytes.length ≤ later.bytes.length
  grows : start.disk.objects.length ≤ final.disk.objects.length
  temporaries : final.disk.temporaries = start.disk.temporaries
  files : start.store.files <+: final.store.files
  active :
    (final.store.files = start.store.files ∧
      start.store.tail ≤ final.store.tail) ∨
      ∃ handle,
        final.store.files.getLast? = some handle ∧
          start.disk.objects.length ≤ handle

theorem Kept.refl (node : Node) : Kept node node where
  objects := fun _ file found =>
    ⟨file, found, fun _ => rfl, rfl, Nat.le_refl _⟩
  grows := Nat.le_refl _
  temporaries := rfl
  files := List.prefix_rfl
  active := Or.inl ⟨rfl, Nat.le_refl _⟩

/-- What is left alone is seen in the store and on the disk. -/
theorem Kept.of_eq
    {start state final : Node}
    (kept : Kept start state)
    (store : final.store = state.store)
    (disk : final.disk = state.disk) :
    Kept start final where
  objects := by rw [disk]; exact kept.objects
  grows := by rw [disk]; exact kept.grows
  temporaries := by rw [disk]; exact kept.temporaries
  files := by rw [store]; exact kept.files
  active := by rw [store]; exact kept.active

/-- A store whose tail is in the active file. -/
structure Node.Placed (node : Node) : Prop where
  regular : node.Regular
  tail_le :
    ∀ (handle : Nat) (file : SegmentFile),
      node.store.files.getLast? = some handle →
      node.disk.objects[handle]? = some file →
        node.store.tail ≤ file.bytes.length

/-- A store whose next batch goes behind everything that is indexed. -/
structure Node.Anchored (node : Node) : Prop extends node.Placed where
  indexed :
    ∀ (id : BlockId) (location : Location),
      node.store.index[id]? = some location →
        location.segment < node.store.files.length ∧
        (location.payloadLen < 2 ^ 63 →
          location.segment + 1 = node.store.files.length →
            location.offset + headerLen + location.payloadLen ≤
              node.store.tail)

theorem Node.Placed.withFault
    {node : Node}
    (placed : node.Placed)
    (fault : Option Fault) :
    ({ node with fault := fault } : Node).Placed where
  regular := placed.regular
  tail_le := placed.tail_le

theorem Node.Anchored.withFault
    {node : Node}
    (anchored : node.Anchored)
    (fault : Option Fault) :
    ({ node with fault := fault } : Node).Anchored where
  regular := anchored.regular
  tail_le := anchored.tail_le
  indexed := anchored.indexed

section Append

/--
A batch in progress.  The pending chunks go to the active file from an offset
on that is not in front of the tail at the start, unless the file is new.
-/
structure Extending
    (start : Node)
    (flushed : Nat)
    (chunks : List Bytes)
    (batch : Batch)
    (state : Node) : Prop where
  regular : state.Regular
  kept : Kept start state
  active : state.store.files.getLast? = some batch.active.2
  position : batch.active.1 + 1 = state.store.files.length
  target :
    (state.store.files = start.store.files ∧ start.store.tail ≤ flushed) ∨
      start.disk.objects.length ≤ batch.active.2
  pending : batch.pending = consecutive flushed chunks
  tail : state.store.tail = flushed + chunks.flatten.length
  flushed_le :
    ∀ file : SegmentFile,
      state.disk.objects[batch.active.2]? = some file →
        flushed ≤ file.bytes.length
  index : state.store.index = start.store.index
  accepting : state.store.writeFailed = start.store.writeFailed
  staged :
    ∀ entry ∈ batch.staged,
      entry.2.segment < state.store.files.length ∧
        (entry.2.segment + 1 = state.store.files.length →
          entry.2.offset + headerLen + entry.2.payloadLen ≤
            state.store.tail)

variable {start state : Node} {flushed : Nat} {chunks : List Bytes}
  {batch : Batch}

theorem Extending.withFault
    (extending : Extending start flushed chunks batch state)
    (fault : Option Fault) :
    Extending start flushed chunks batch { state with fault := fault } where
  regular := extending.regular
  kept := { extending.kept with }
  active := extending.active
  position := extending.position
  target := extending.target
  pending := extending.pending
  tail := extending.tail
  flushed_le := extending.flushed_le
  index := extending.index
  accepting := extending.accepting
  staged := extending.staged

/-- Overwriting one file of the table leaves the table regular. -/
theorem Node.Regular.setFile
    (regular : state.Regular)
    {handle : Nat}
    (member : handle ∈ state.store.files)
    (next : SegmentFile)
    {final : Node}
    (store : final.store = state.store)
    (disk : final.disk = (state.setFile handle next).disk) :
    final.Regular := by
  obtain ⟨contents, files⟩ := regular
  obtain ⟨position, within, named⟩ := List.getElem_of_mem member
  have present : state.store.files[position]? = some handle := by
    rw [List.getElem?_eq_getElem within, named]
  refine ⟨contents.set position next.bytes, ?_⟩
  rw [store, disk]
  exact files.overwrite present next

/-- Writing the pending chunks leaves what was there at the start. -/
theorem Extending.kept_setFile
    (extending : Extending start flushed chunks batch state)
    {file next : SegmentFile}
    (found : state.disk.objects[batch.active.2]? = some file)
    {budget : Nat}
    (bytes :
      next.bytes =
        ByteFile.writePrefix budget batch.pending file.bytes)
    {final : Node}
    (store : final.store = state.store)
    (disk : final.disk = (state.setFile batch.active.2 next).disk) :
    Kept start final := by
  have inside := extending.flushed_le file found
  have longer : file.bytes.length ≤ next.bytes.length := by
    rw [bytes]
    exact ByteFile.length_le_writePrefix
  have within := (List.getElem?_eq_some_iff.mp found).1
  refine {
    objects := ?_
    grows := ?_
    temporaries := ?_
    files := by rw [store]; exact extending.kept.files
    active := by rw [store]; exact extending.kept.active }
  · intro handle old present
    obtain ⟨later, isLater, same, front, long⟩ :=
      extending.kept.objects handle old present
    by_cases isActive : batch.active.2 = handle
    · subst isActive
      rw [found] at isLater
      cases isLater
      refine ⟨next, by simp [disk, Node.setFile, within], ?_⟩
      rcases extending.target with ⟨sameFiles, behind⟩ | new
      · refine ⟨?_, ?_, long.trans longer⟩
        · intro other
          rw [← sameFiles] at other
          exact absurd extending.active other
        · have behindAll :
              ∀ write ∈ batch.pending, start.store.tail ≤ write.1 := by
            intro write member
            rw [extending.pending] at member
            exact behind.trans (ByteFile.le_of_mem_consecutive member)
          rw [bytes, ByteFile.take_writePrefix (behind.trans inside)
            behindAll, front]
      · have old := (List.getElem?_eq_some_iff.mp present).1
        omega
    · refine ⟨later, ?_, same, front, long⟩
      simp only [disk, Node.setFile]
      rw [List.getElem?_set_ne isActive]
      exact isLater
  · simpa [disk, Node.setFile] using extending.kept.grows
  · simpa [disk, Node.setFile] using extending.kept.temporaries

/-- A flush, complete or not, leaves what was there at the start. -/
theorem Extending.ends_flushPending
    (extending : Extending start flushed chunks batch state) :
    Ends (flushPending batch) state
      (fun _ final =>
        final.store = state.store ∧ final.Regular ∧ Kept start final ∧
          ∀ file : SegmentFile,
            final.disk.objects[batch.active.2]? = some file →
              state.store.tail ≤ file.bytes.length)
      (fun _ final => final.Regular ∧ Kept start final) := by
  have member := List.mem_of_getLast? extending.active
  obtain ⟨file, found⟩ := extending.regular.file_of_mem member
  have inside := extending.flushed_le file found
  unfold flushPending
  split
  · rename_i empty
    have nothing : chunks = [] := by
      have pending := extending.pending
      rw [List.isEmpty_iff.mp empty] at pending
      cases chunks with
      | nil => rfl
      | cons chunk rest => cases pending
    refine ⟨rfl, extending.regular, extending.kept, ?_⟩
    intro other present
    rw [found] at present
    cases present
    rw [extending.tail, nothing]
    exact inside
  · refine (ends_writeBatch_file found batch.pending).mono ?_ ?_
    · rintro - final ⟨store, -, next, bytes, disk⟩
      refine ⟨store, extending.regular.setFile member next store disk,
        extending.kept_setFile found bytes store disk, ?_⟩
      intro other present
      have within := (List.getElem?_eq_some_iff.mp found).1
      simp only [disk, Node.setFile, List.getElem?_set_self within]
        at present
      cases present
      rw [bytes, extending.tail, extending.pending]
      exact ByteFile.le_length_writePrefix_consecutive inside chunks
    · rintro error final ⟨-, store, unchanged | ⟨next, bytes, disk⟩⟩
      · refine ⟨?_, extending.kept.of_eq store unchanged⟩
        rw [Node.Regular, store, unchanged]
        exact extending.regular
      · exact ⟨extending.regular.setFile member next store disk,
          extending.kept_setFile found bytes store disk⟩

/-- Rolling flushes the pending chunks and goes on in a new file. -/
theorem Extending.ends_rollSegment
    (extending : Extending start flushed chunks batch state) :
    Ends (rollSegment batch) state
      (fun next final => Extending start 0 [] next final)
      (fun _ final => final.Regular ∧ Kept start final) := by
  rw [rollSegment, ends_bind]
  refine extending.ends_flushPending.imp ?_
  rintro - synced ⟨store, ⟨contents, files⟩, kept, -⟩
  simp only [ends_bind, ends_get]
  refine (ends_openSegment_new files).mono ?_ ?_
  · rintro handle final ⟨rfl, sameStore, disk⟩
    simp only [ends_modify, ends_pure]
    have objects : final.disk.objects = synced.disk.objects ++ [.empty] := by
      rw [disk]
    refine {
      regular := ⟨contents ++ [[]], by
        simpa [sameStore, disk] using files.push⟩
      kept := ?_
      active := by simp [sameStore]
      position := by simp [sameStore]
      target := Or.inr kept.grows
      pending := rfl
      tail := rfl
      flushed_le := fun _ _ => Nat.zero_le _
      index := by simpa [sameStore, store] using extending.index
      accepting := by simpa [sameStore, store] using extending.accepting
      staged := ?_ }
    · refine {
        objects := ?_
        grows := by
          simpa [objects] using Nat.le_succ_of_le kept.grows
        temporaries := by simpa [disk] using kept.temporaries
        files := kept.files.trans (by simp [sameStore])
        active := Or.inr ⟨_, by simp [sameStore], kept.grows⟩ }
      intro handle file found
      obtain ⟨later, isLater, same⟩ := kept.objects handle file found
      refine ⟨later, ?_, same⟩
      simp only [objects]
      rw [List.getElem?_append_left
        (List.getElem?_eq_some_iff.mp isLater).1]
      exact isLater
    · intro entry member
      obtain ⟨within, -⟩ := extending.staged entry member
      simp only [sameStore, store, List.length_append,
        List.length_singleton]
      omega
  · rintro error final ⟨-, sameStore, disk⟩
    refine ⟨⟨contents, by rw [sameStore, disk]; exact files⟩, ?_⟩
    exact kept.of_eq sameStore disk

/-- A record is staged behind the tail. -/
theorem Extending.ends_stageRecord
    (extending : Extending start flushed chunks batch state)
    (id : BlockId)
    (payload : Payload) :
    Ends (stageRecord batch id payload) state
      (fun next final =>
        Extending start flushed (chunks ++ [encodeRecord id payload.bytes])
          next final)
      (fun _ _ => False) := by
  have length := length_encodeRecord id payload.length_lt
  have bounds := recordLen_bounds payload.length_lt
  simp only [stageRecord, ends_bind, ends_get, ends_modify, ends_pure]
  refine {
    regular := extending.regular
    kept := ?_
    active := extending.active
    position := extending.position
    target := extending.target
    pending := ?_
    tail := ?_
    flushed_le := extending.flushed_le
    index := extending.index
    accepting := extending.accepting
    staged := ?_ }
  · refine { extending.kept with active := ?_ }
    rcases extending.kept.active with ⟨sameFiles, behind⟩ | new
    · exact Or.inl ⟨sameFiles, behind.trans (Nat.le_add_right _ _)⟩
    · exact Or.inr new
  · rw [extending.pending, extending.tail, ByteFile.consecutive_append]
    rfl
  · simp only [extending.tail, List.flatten_append, List.flatten_cons,
      List.flatten_nil, List.append_nil, List.length_append, Nat.add_assoc]
  · intro entry member
    rcases List.mem_append.mp member with before | last
    · obtain ⟨within, below⟩ := extending.staged entry before
      refine ⟨within, fun isLast => (below isLast).trans ?_⟩
      exact Nat.le_add_right _ _
    · rw [List.mem_singleton.mp last]
      have position := extending.position
      refine ⟨by dsimp only; omega, fun _ => ?_⟩
      dsimp only
      omega

variable {blake3 : Bytes → BlockId}

/-- One payload of a batch, whatever I/O fails. -/
theorem Extending.ends_appendOne
    (extending : Extending start flushed chunks batch state)
    (repair : Bool)
    (payload : Payload) :
    Ends (appendOne blake3 repair batch payload) state
      (fun next final =>
        ∃ flushed chunks, Extending start flushed chunks next final)
      (fun _ final => final.Regular ∧ Kept start final) := by
  rw [appendOne, ends_bind]
  refine (ends_isPresent_any repair _).mono ?_ ?_
  · rintro present checked ⟨-, -, fault, rfl⟩
    have unchanged := extending.withFault fault
    split
    · exact ⟨flushed, chunks, unchanged⟩
    · simp only [ends_bind, ends_get]
      split
      · rw [ends_bind]
        refine unchanged.ends_rollSegment.mono ?_ ?_
        · intro next rolled onward
          refine (onward.ends_stageRecord _ payload).mono ?_
            (fun _ _ => False.elim)
          exact fun last final done => ⟨_, _, done⟩
        · exact fun _ _ failed => failed
      · refine (unchanged.ends_stageRecord _ payload).mono ?_
          (fun _ _ => False.elim)
        exact fun last final done => ⟨_, _, done⟩
  · rintro error final ⟨fault, rfl⟩
    have unchanged := extending.withFault fault
    exact ⟨unchanged.regular, unchanged.kept⟩

/-- The batch before its first payload. -/
theorem Node.Placed.extending
    (placed : start.Placed)
    {handle : Nat}
    (last : start.store.files.getLast? = some handle) :
    Extending start start.store.tail []
      { active := (start.store.files.length - 1, handle) } start where
  regular := placed.regular
  kept := .refl start
  active := last
  position := by
    have nonempty := List.length_pos_of_mem (List.mem_of_getLast? last)
    dsimp only
    omega
  target := Or.inl ⟨rfl, Nat.le_refl _⟩
  pending := rfl
  tail := rfl
  flushed_le := fun file found => placed.tail_le handle file last found
  index := rfl
  accepting := rfl
  staged := fun _ member => absurd member List.not_mem_nil

/-- A batch that has rolled has more files than there were. -/
theorem Extending.length_lt
    (extending : Extending start flushed chunks batch state)
    (regular : start.Regular)
    (new : start.disk.objects.length ≤ batch.active.2) :
    start.store.files.length < state.store.files.length := by
  rcases Nat.lt_or_ge start.store.files.length state.store.files.length with
    more | same
  · exact more
  · have files : start.store.files = state.store.files :=
      extending.kept.files.eq_of_length_le same
    have member := List.mem_of_getLast? extending.active
    rw [← files] at member
    obtain ⟨file, found⟩ := regular.file_of_mem member
    have within := (List.getElem?_eq_some_iff.mp found).1
    omega

/-- Publishing the staged records of a batch that is flushed. -/
theorem Extending.placed
    (extending : Extending start flushed chunks batch state)
    {synced : Node}
    (store : synced.store = state.store)
    (regular : synced.Regular)
    (long :
      ∀ file : SegmentFile,
        synced.disk.objects[batch.active.2]? = some file →
          state.store.tail ≤ file.bytes.length) :
    ({ synced with
      store := { synced.store with
        index := synced.store.index.insertMany batch.staged } } :
      Node).Placed := by
  refine {
    regular := regular
    tail_le := ?_ }
  intro handle file last found
  simp only [store] at last ⊢
  rw [extending.active] at last
  cases last
  exact long file found

/-- The published records are in front of the tail. -/
theorem Extending.anchored
    (extending : Extending start flushed chunks batch state)
    (anchored : start.Anchored)
    {synced : Node}
    (store : synced.store = state.store)
    (placed :
      ({ synced with
        store := { synced.store with
          index := synced.store.index.insertMany batch.staged } } :
        Node).Placed) :
    ({ synced with
      store := { synced.store with
        index := synced.store.index.insertMany batch.staged } } :
      Node).Anchored := by
  refine { placed with indexed := ?_ }
  intro id location found
  simp only [store, extending.index,
    FiniteMap.getElem?_insertMany_last] at found
  simp only [store]
  rcases Option.or_eq_some_iff.mp found with published | ⟨-, old⟩
  · obtain ⟨entry, isLast, rfl⟩ := Option.map_eq_some_iff.mp published
    obtain ⟨within, below⟩ := extending.staged entry
      (List.mem_reverse.mp (List.mem_of_find?_eq_some isLast))
    exact ⟨within, fun _ => below⟩
  · obtain ⟨within, below⟩ := anchored.indexed id location old
    refine ⟨within.trans_le extending.kept.files.length_le, ?_⟩
    intro small last
    rcases extending.target with ⟨sameFiles, behind⟩ | new
    · rw [sameFiles] at last
      have tail := extending.tail
      exact (below small last).trans (by omega)
    · have more := extending.length_lt anchored.regular new
      omega

/-- A batch that returns leaves a store for the next one. -/
theorem Node.Placed.ends_appendAll
    (placed : start.Placed)
    (payloads : List Payload)
    (repair : Bool) :
    Ends (appendAll blake3 payloads repair) start
      (fun _ final =>
        Kept start final ∧ final.Placed ∧
          (start.Anchored → final.Anchored) ∧
          final.store.writeFailed = start.store.writeFailed)
      (fun _ final => final.Regular ∧ Kept start final) := by
  simp only [appendAll, ends_bind, ends_get]
  cases last : start.store.files.getLast? with
  | none =>
      exact ⟨placed.regular, .refl start⟩
  | some handle =>
      simp only [ends_bind]
      refine (ends_foldlM
        (fun (batch : Batch) _ state =>
          ∃ flushed chunks, Extending start flushed chunks batch state)
        ?_ ⟨_, _, placed.extending last⟩).imp ?_
      · rintro batch payload rest state ⟨flushed, chunks, extending⟩
        exact extending.ends_appendOne repair payload
      · rintro batch state ⟨flushed, chunks, extending⟩
        refine extending.ends_flushPending.imp ?_
        rintro - synced ⟨store, regular, kept, long⟩
        have published (fault : Option Fault) :=
          extending.placed
            (show ({ synced with fault := fault } : Node).store =
              state.store from store)
            (regular.withFault fault) long
        have anchored (fault : Option Fault) (before : start.Anchored) :=
          extending.anchored before
            (show ({ synced with fault := fault } : Node).store =
              state.store from store)
            (published fault)
        have accepting : synced.store.writeFailed =
            start.store.writeFailed := by
          rw [store, extending.accepting]
        split
        · rw [ends_bind, syncDir]
          refine ends_ioStep ?_ ⟨regular, { kept with }⟩
          exact fun fault =>
            ⟨{ kept with }, published fault, anchored fault, accepting⟩
        · exact ⟨{ kept with }, published synced.fault,
            anchored synced.fault, accepting⟩

/--
A batch, whatever I/O fails: if it returns, the next one goes behind it, and
if it does not, the store refuses every further one.
-/
theorem Node.Placed.ends_putManyInner
    (placed : start.Placed)
    (payloads : List Payload)
    (repair : Bool) :
    Ends (putManyInner blake3 payloads repair) start
      (fun _ final =>
        Kept start final ∧ final.Placed ∧
          (start.Anchored → final.Anchored) ∧
          final.store.writeFailed = start.store.writeFailed)
      (fun _ final =>
        Kept start final ∧ final.Regular ∧
          final.store.writeFailed = true) := by
  simp only [putManyInner, ends_bind, ends_get]
  split
  · rename_i refused
    exact ⟨.refl start, placed.regular, refused⟩
  · simp only [ends_bind, ends_onFailure]
    refine (placed.ends_appendAll payloads repair).mono ?_ ?_
    · exact fun _ final returned => returned
    · rintro error final ⟨regular, kept⟩
      exact ⟨{ kept with }, regular, trivial⟩

end Append

/-! ## Compacting -/

/--
What a compaction leaves alone: the active segment, and every file that is
not one of a rewrite.
-/
structure Rewrote (start final : Node) : Prop where
  regular : final.Regular
  length : final.store.files.length = start.store.files.length
  active : final.store.files.getLast? = start.store.files.getLast?
  tail : final.store.tail = start.store.tail
  accepting : final.store.writeFailed = start.store.writeFailed
  objects :
    ∀ (handle : Nat) (file : SegmentFile),
      (∀ segment : Nat, start.disk.temporaries[segment]? ≠ some handle) →
      start.disk.objects[handle]? = some file →
        final.disk.objects[handle]? = some file ∧
          ∀ segment : Nat, final.disk.temporaries[segment]? ≠ some handle
  indexed :
    ∀ (id : BlockId) (location : Location),
      final.store.index[id]? = some location →
        start.store.index[id]? = some location ∨
          location.segment + 1 < start.store.files.length

section Compact

variable {start state : Node} {segment temporary : Nat} {final : Node}

theorem Rewrote.refl (regular : start.Regular) : Rewrote start start where
  regular := regular
  length := rfl
  active := rfl
  tail := rfl
  accepting := rfl
  objects := fun _ _ apart found => ⟨found, apart⟩
  indexed := fun _ _ found => Or.inl found

/-- A change of the files of rewrites only. -/
theorem Rewrote.of_store
    (rewrote : Rewrote start state)
    (store : final.store = state.store)
    (regular : final.Regular)
    (objects :
      ∀ (handle : Nat) (file : SegmentFile),
        (∀ segment : Nat,
          state.disk.temporaries[segment]? ≠ some handle) →
        state.disk.objects[handle]? = some file →
          final.disk.objects[handle]? = some file ∧
            ∀ segment : Nat,
              final.disk.temporaries[segment]? ≠ some handle) :
    Rewrote start final where
  regular := regular
  length := by rw [store]; exact rewrote.length
  active := by rw [store]; exact rewrote.active
  tail := by rw [store]; exact rewrote.tail
  accepting := by rw [store]; exact rewrote.accepting
  objects := by
    intro handle file apart found
    obtain ⟨kept, stillApart⟩ := rewrote.objects handle file apart found
    exact objects handle file stillApart kept
  indexed := by rw [store]; exact rewrote.indexed

theorem Rewrote.withFault
    (rewrote : Rewrote start state)
    (fault : Option Fault) :
    Rewrote start { state with fault := fault } :=
  rewrote.of_store rfl rewrote.regular fun _ _ apart found => ⟨found, apart⟩

theorem Rewrote.sameButFault
    (rewrote : Rewrote start state)
    (same : state.SameButFault final) :
    Rewrote start final ∧
      final.disk.temporaries = state.disk.temporaries := by
  obtain ⟨fault, rfl⟩ := same
  exact ⟨rewrote.withFault fault, rfl⟩

/-- The file of a rewrite gets other contents. -/
theorem Rewrote.setFile
    (rewrote : Rewrote start state)
    (named : state.disk.temporaries[segment]? = some temporary)
    (next : SegmentFile)
    (store : final.store = state.store)
    (disk : final.disk = (state.setFile temporary next).disk) :
    Rewrote start final ∧
      final.disk.temporaries[segment]? = some temporary := by
  refine ⟨rewrote.of_store store ?_ ?_, by rw [disk]; exact named⟩
  · obtain ⟨contents, files⟩ := rewrote.regular
    obtain ⟨-, apart⟩ := files.temporariesApart segment temporary named
    refine ⟨contents, ?_⟩
    rw [store, disk]
    exact files.setApart apart next
  · intro handle file apart found
    have different : temporary ≠ handle := by
      rintro rfl
      exact apart segment named
    refine ⟨?_, by rw [disk]; exact apart⟩
    simp only [disk, Node.setFile]
    rw [List.getElem?_set_ne different]
    exact found

/-- Opening the file of a rewrite may create it. -/
theorem Rewrote.ends_openTemporary
    (rewrote : Rewrote start state)
    (segment : Nat) :
    Ends (openTemporary segment) state
      (fun handle final =>
        Rewrote start final ∧
          final.disk.temporaries[segment]? = some handle)
      (fun _ final => Rewrote start final) := by
  rw [openTemporary, ends_bind]
  refine ends_ioStep ?_ (rewrote.withFault none)
  intro fault
  simp only [ends_bind, ends_get]
  split
  · rename_i handle named
    exact ⟨rewrote.withFault fault, named⟩
  · simp only [createFile, ends_bind, ends_get, ends_modify, ends_pure]
    refine ⟨rewrote.of_store rfl ?_ ?_, by simp⟩
    · obtain ⟨contents, files⟩ := rewrote.regular
      exact ⟨contents, files.addTemporary segment⟩
    · intro handle file apart found
      have within := (List.getElem?_eq_some_iff.mp found).1
      dsimp only
      refine ⟨?_, ?_⟩
      · rw [List.getElem?_append_left within]
        exact found
      · intro other
        rw [ExtTreeMap.getElem?_insert]
        split
        · intro same
          exact within.ne (Option.some.inj same).symm
        · exact apart other

theorem Rewrote.ends_truncateTemporary
    (rewrote : Rewrote start state)
    (segment : Nat) :
    Ends (truncateTemporary segment) state
      (fun _ final => Rewrote start final)
      (fun _ final => Rewrote start final) := by
  rw [truncateTemporary, ends_bind]
  refine (rewrote.ends_openTemporary segment).imp ?_
  rintro handle opened ⟨reached, named⟩
  exact (reached.setFile named .empty
    (show (opened.setFile handle .empty).store = opened.store from rfl)
    rfl).1

theorem Rewrote.ends_writeBatch
    (rewrote : Rewrote start state)
    (named : state.disk.temporaries[segment]? = some temporary)
    (writes : List (Nat × Bytes)) :
    Ends (writeBatch temporary writes) state
      (fun _ final =>
        Rewrote start final ∧
          final.disk.temporaries[segment]? = some temporary)
      (fun _ final => Rewrote start final) := by
  obtain ⟨contents, files⟩ := rewrote.regular
  have found := List.getElem?_eq_getElem
    (files.temporariesApart segment temporary named).1
  refine (ends_writeBatch_file found writes).mono ?_ ?_
  · rintro - final ⟨store, -, next, -, disk⟩
    exact rewrote.setFile named next store disk
  · rintro error final ⟨-, store, unchanged | ⟨next, -, disk⟩⟩
    · refine rewrote.of_store store ?_ ?_
      · rw [Node.Regular, store, unchanged]
        exact rewrote.regular
      · intro handle file apart present
        rw [unchanged]
        exact ⟨present, apart⟩
    · exact (rewrote.setFile named next store disk).1

/-- Reading a file changes nothing but the failure that lies ahead. -/
theorem ends_readAt_any (handle offset count : Nat) :
    Ends (readAt handle offset count) state
      (fun _ final => state.SameButFault final)
      (fun _ final => state.SameButFault final) := by
  rw [readAt, ends_bind]
  refine ends_ioStep ?_ ⟨none, rfl⟩
  intro fault
  simp only [fileOf, ends_bind, ends_get]
  split
  · simp only [ends_pure]
    split
    · exact ⟨fault, rfl⟩
    · exact ⟨fault, rfl⟩
  · exact ⟨fault, rfl⟩

theorem ends_fileLen_any (handle : Nat) :
    Ends (fileLen handle) state
      (fun _ final => state.SameButFault final)
      (fun _ final => state.SameButFault final) := by
  rw [fileLen, ends_bind]
  refine ends_ioStep ?_ ⟨none, rfl⟩
  intro fault
  simp only [fileOf, ends_bind, ends_get]
  split
  · exact ⟨fault, rfl⟩
  · exact ⟨fault, rfl⟩

variable {blake3 : Bytes → BlockId}

/-- Copying one record writes to the file of the rewrite. -/
theorem Rewrote.ends_rewriteRecord
    (rewrote : Rewrote start state)
    (named : state.disk.temporaries[segment]? = some temporary)
    (old : Nat)
    (rewritten : Nat × List (BlockId × Location))
    (entry : BlockId × Location) :
    Ends (rewriteRecord blake3 old temporary segment rewritten entry) state
      (fun _ final =>
        Rewrote start final ∧
          final.disk.temporaries[segment]? = some temporary)
      (fun _ final => Rewrote start final) := by
  simp only [rewriteRecord]
  split
  · exact rewrote
  · simp only [ends_bind]
    refine (ends_readAt_any _ _ _).mono ?_ ?_
    · intro payload read same
      obtain ⟨reached, temporaries⟩ := rewrote.sameButFault same
      split
      · exact reached
      · simp only [ends_bind, ends_pure]
        exact reached.ends_writeBatch (temporaries ▸ named) _
    · exact fun _ final same => (rewrote.sameButFault same).1

/-- The rewritten file takes over the segment's name, place and entries. -/
theorem Rewrote.swapped
    (rewrote : Rewrote start state)
    (named : state.disk.temporaries[segment]? = some temporary)
    (sealedBefore : segment + 1 < start.store.files.length)
    (dropped : List (BlockId × Location))
    {moved : List (BlockId × Location)}
    (inSegment : ∀ entry ∈ moved, entry.2.segment = segment)
    (fault : Option Fault) :
    Rewrote start
      { store := state.store.swapSegment segment temporary dropped moved
        disk := { state.disk with
          segments := state.disk.segments.insert segment temporary
          temporaries := state.disk.temporaries.erase segment }
        fault := fault } := by
  obtain ⟨contents, files⟩ := rewrote.regular
  have found := List.getElem?_eq_getElem
    (files.temporariesApart segment temporary named).1
  have length := rewrote.length
  refine {
    regular := ⟨_, files.swap named found (by omega)⟩
    length := ?_
    active := ?_
    tail := rewrote.tail
    accepting := rewrote.accepting
    objects := ?_
    indexed := ?_ }
  · simpa [BlockStore.swapSegment] using length
  · rw [← rewrote.active]
    exact getLast?_set_of_lt (by omega) temporary
  · intro handle file apart present
    obtain ⟨kept, stillApart⟩ := rewrote.objects handle file apart present
    refine ⟨kept, ?_⟩
    intro other
    dsimp only
    rw [ExtTreeMap.getElem?_erase]
    split
    · intro never
      cases never
    · exact stillApart other
  · intro id location indexed
    simp only [BlockStore.swapSegment,
      FiniteMap.getElem?_insertMany_last] at indexed
    rcases Option.or_eq_some_iff.mp indexed with isMoved | ⟨-, unmoved⟩
    · obtain ⟨entry, isLast, rfl⟩ := Option.map_eq_some_iff.mp isMoved
      rw [inSegment entry
        (List.mem_reverse.mp (List.mem_of_find?_eq_some isLast))]
      exact Or.inr sealedBefore
    · rw [FiniteMap.getElem?_eraseAll] at unmoved
      split at unmoved
      · cases unmoved
      · exact rewrote.indexed id location unmoved

/-- The rewrite of one sealed segment, whatever I/O fails. -/
theorem Rewrote.ends_rewriteSegment
    (rewrote : Rewrote start state)
    (sealedBefore : segment + 1 < start.store.files.length)
    (kept dropped : List (BlockId × Location))
    (stats : CompactStats) :
    Ends (rewriteSegment blake3 segment kept dropped stats) state
      (fun _ final => Rewrote start final)
      (fun _ final => Rewrote start final) := by
  simp only [rewriteSegment, ends_bind, ends_get]
  cases state.store.files[segment]? with
  | none =>
      exact rewrote
  | some old =>
      simp only [ends_bind]
      refine (rewrote.ends_truncateTemporary segment).imp ?_
      intro _ truncated rewrote
      refine (rewrote.ends_openTemporary segment).imp ?_
      rintro temporary opened ⟨rewrote, named⟩
      refine ((ends_foldlM
        (fun _ _ state =>
          Rewrote start state ∧
            state.disk.temporaries[segment]? = some temporary)
        (fun rewritten entry rest state staged =>
          staged.1.ends_rewriteRecord staged.2 old rewritten entry)
        ⟨rewrote, named⟩).and
          (ends_rewriteRecords_store old temporary segment kept)).mono ?_
            (fun _ _ failed => failed.1)
      rintro ⟨offset, moved⟩ copied ⟨⟨rewrote, -⟩, -, -, inSegment⟩
      simp only
      refine ends_ioStep ?_ (rewrote.withFault none)
      intro synced
      refine (ends_fileLen_any old).mono ?_ ?_
      · intro oldLen measured same
        obtain ⟨rewrote, -⟩ :=
          (rewrote.withFault synced).sameButFault same
        refine (rewrote.ends_openTemporary segment).imp ?_
        rintro handle reopened ⟨rewrote, named⟩
        rw [renameTemporary, ends_bind]
        refine ends_ioStep ?_ (rewrote.withFault none)
        intro renamed
        simp only [ends_bind, ends_get, named, ends_modify, syncDir]
        have swapped := rewrote.swapped named sealedBefore dropped inSegment
        refine ends_ioStep ?_ (swapped none)
        exact fun fault => swapped fault
      · exact fun _ final same =>
          ((rewrote.withFault synced).sameButFault same).1

/-- A compaction, whatever I/O fails. -/
theorem Node.Regular.ends_compact
    (regular : start.Regular)
    (live : BlockId → Bool)
    (order : IterationOrder) :
    Ends (compact blake3 live order) start
      (fun _ final => Rewrote start final)
      (fun _ final => Rewrote start final) := by
  simp only [compact, ends_bind, ends_get]
  refine ends_foldlM_range (fun _ _ state => Rewrote start state) ?_
    (.refl regular)
  intro segment stats state within rewrote
  simp only [compactSegment, ends_bind, ends_get]
  split
  · exact rewrote
  · exact rewrote.ends_rewriteSegment (by omega) _ _ stats

/-- A compaction leaves a store for the next batch. -/
theorem Rewrote.placed
    (rewrote : Rewrote start final)
    (placed : start.Placed) :
    final.Placed := by
  obtain ⟨contents, files⟩ := placed.regular
  refine {
    regular := rewrote.regular
    tail_le := ?_ }
  intro handle file last found
  rw [rewrote.active] at last
  rw [rewrote.tail]
  have member := List.mem_of_getLast? last
  obtain ⟨before, present⟩ := placed.regular.file_of_mem member
  have apart (segment : Nat) :
      start.disk.temporaries[segment]? ≠ some handle :=
    fun named => (files.temporariesApart segment handle named).2 member
  obtain ⟨kept, -⟩ := rewrote.objects handle before apart present
  rw [found] at kept
  cases kept
  exact placed.tail_le handle file last present

theorem Rewrote.anchored
    (rewrote : Rewrote start final)
    (anchored : start.Anchored) :
    final.Anchored := by
  refine { rewrote.placed anchored.toPlaced with indexed := ?_ }
  intro id location found
  rw [rewrote.length, rewrote.tail]
  rcases rewrote.indexed id location found with old | moved
  · exact anchored.indexed id location old
  · exact ⟨by omega, fun _ last => by omega⟩

end Compact

end KalpakDb
