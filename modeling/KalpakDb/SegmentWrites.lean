import KalpakDb.StoreCalls

namespace KalpakDb

/-!
# What appends write

Whatever way a batch ends, and whatever I/O failure interrupts it, the bytes
it has written are parts of the records of its own payloads.  A disk that only
appends have changed is therefore built from parts of the records of the
blocks that were handed to the store.
-/

open Contract

/--
The disks that come about, from an empty one, by creating segments and by
writing parts of the records of some blocks.
-/
inductive Disk.Built (begun : BlockId → Prop) : Disk → Prop where
  | empty : Disk.Built begun {}
  | create
      {disk : Disk}
      (built : Disk.Built begun disk) :
      Disk.Built begun { disk with objects := disk.objects ++ [.empty] }
  | link
      {disk : Disk}
      (built : Disk.Built begun disk)
      (segment handle : Nat) :
      Disk.Built begun
        { disk with segments := disk.segments.insert segment handle }
  | write
      {disk : Disk}
      (built : Disk.Built begun disk)
      {handle budget : Nat}
      {file after : SegmentFile}
      {writes : List (Nat × Bytes)}
      (found : disk.objects[handle]? = some file)
      (records :
        ∀ write ∈ writes,
          ∃ id, begun id ∧ ∃ payload, write.2 = encodeRecord id payload)
      (written : file.writePrefix? budget writes = some after) :
      Disk.Built begun { disk with objects := disk.objects.set handle after }

/-- The disk of a node is built from records of some blocks. -/
def Node.Built (begun : BlockId → Prop) (node : Node) : Prop :=
  node.disk.Built begun

section Appends

variable {blake3 : Bytes → BlockId} {begun more : BlockId → Prop}
  {batch : Batch} {node : Node} {disk : Disk} {payload : Payload}

/-- More blocks may have been begun. -/
theorem Disk.Built.mono
    (built : disk.Built begun)
    (larger : ∀ id, begun id → more id) :
    disk.Built more := by
  induction built with
  | empty =>
      exact .empty
  | create built inductionHypothesis =>
      exact .create inductionHypothesis
  | link built segment handle inductionHypothesis =>
      exact .link inductionHypothesis segment handle
  | write built found records written inductionHypothesis =>
      refine .write inductionHypothesis found ?_ written
      intro write member
      obtain ⟨id, isBegun, payload, same⟩ := records write member
      exact ⟨id, larger id isBegun, payload, same⟩

theorem keeps_built_ioStep : Keeps (Node.Built begun) ioStep :=
  fun _ built => ends_ioStep (fun _ => built) built

/-- Opening a segment adds an empty file at most. -/
theorem keeps_built_openSegment (segment : Nat) :
    Keeps (Node.Built begun) (openSegment segment) := by
  refine .bind keeps_built_ioStep fun _ => .bind .get fun node => ?_
  split
  · exact .pure _
  · refine .bind (.bind .get fun _ => .bind (.modify ?_) fun _ => .pure _)
      fun handle => .bind (.modify ?_) fun _ => .pure _
    · exact fun _ built => .create built
    · exact fun _ built => .link built segment handle

/-- Opening a directory writes no record. -/
theorem keeps_built_openWithRoll (rollBytes : Nat) :
    Keeps (Node.Built begun) (openWithRoll rollBytes) := by
  refine .bind (.bind .get fun node => .bind (.foldlM ?_ _ _) ?_) fun _ =>
    .modify fun _ built => built
  · intro recovered segment
    refine .bind (keeps_built_openSegment segment) fun handle =>
      .bind keeps_built_ioStep fun _ => .bind (.bind .get fun node => ?_)
        fun file => ?_
    · split
      · exact .pure _
      · exact .throw _
    · split
      · exact .throw _
      · exact .pure _
  · intro recovered
    split
    · exact .bind (keeps_built_openSegment 0) fun handle =>
        .bind keeps_built_ioStep fun _ => .modify fun _ built => built
    · exact .modify fun _ built => built

/-- The pending writes of a batch are records of some blocks. -/
def Batch.Covered (begun : BlockId → Prop) (batch : Batch) : Prop :=
  ∀ write ∈ batch.pending,
    ∃ id, begun id ∧ ∃ payload, write.2 = encodeRecord id payload

/-- A flush writes the pending records, or a front part of them. -/
theorem Batch.Covered.keeps_flushPending
    (covered : batch.Covered begun) :
    Keeps (Node.Built begun) (flushPending batch) := by
  intro node built
  unfold flushPending
  split
  · exact built
  · simp only [writeBatch, fileOf, ends_bind, ends_get]
    cases found : node.disk.objects[batch.active.2]? with
    | none =>
        exact built
    | some file =>
        simp only [ends_pure]
        split
        · exact built
        · rename_i after written
          rw [ends_bind, ends_modify]
          exact keeps_built_ioStep _ (.write built found covered written)

/-- A new segment starts without pending records. -/
theorem Batch.Covered.ends_rollSegment
    (covered : batch.Covered begun)
    (built : node.Built begun) :
    Ends (rollSegment batch) node
      (fun next final => next.Covered begun ∧ final.Built begun)
      (fun _ final => final.Built begun) := by
  rw [rollSegment, ends_bind]
  refine (covered.keeps_flushPending node built).imp ?_
  intro _ flushed flushedBuilt
  simp only [ends_bind, ends_get]
  refine (keeps_built_openSegment _ flushed flushedBuilt).imp ?_
  intro handle opened openedBuilt
  simp only [ends_modify, ends_pure]
  exact ⟨by simp [Batch.Covered], openedBuilt⟩

/-- A staged record is pending, and nothing is written. -/
theorem Batch.Covered.ends_stageRecord
    (covered : batch.Covered begun)
    (built : node.Built begun)
    {id : BlockId}
    (isBegun : begun id)
    (payload : Payload) :
    Ends (stageRecord batch id payload) node
      (fun next final => next.Covered begun ∧ final.Built begun)
      (fun _ final => final.Built begun) := by
  simp only [stageRecord, ends_bind, ends_get, ends_modify, ends_pure]
  refine ⟨?_, built⟩
  intro write member
  rcases List.mem_append.mp member with earlier | last
  · exact covered write earlier
  · rw [List.mem_singleton.mp last]
    exact ⟨id, isBegun, payload.bytes, rfl⟩

/-- Looking for a block writes nothing. -/
theorem keeps_built_isPresent (isRepair : Bool) (id : BlockId) :
    Keeps (Node.Built begun) (isPresent blake3 isRepair id) := by
  unfold isPresent
  split
  · refine .bind (.observe ?_) fun result => ?_
    · intro node built
      refine (ends_getBlock_any blake3 node id).mono ?_ ?_
      · rintro bytes _ ⟨-, -, fault, rfl⟩
        exact built
      · rintro error _ ⟨-, fault, rfl⟩
        exact built
    · split
      · exact .pure _
      · exact .throw _
      · exact .throw _
      · exact .pure _
  · exact .bind .get fun node => .pure _

/-- A payload is present already, or its record is staged. -/
theorem Batch.Covered.ends_appendOne
    (covered : batch.Covered begun)
    (built : node.Built begun)
    (isRepair : Bool)
    (isBegun : begun (blake3 payload.bytes)) :
    Ends (appendOne blake3 isRepair batch payload) node
      (fun next final => next.Covered begun ∧ final.Built begun)
      (fun _ final => final.Built begun) := by
  simp only [appendOne, ends_bind]
  refine (keeps_built_isPresent isRepair _ node built).imp ?_
  intro present looked lookedBuilt
  split
  · exact ⟨covered, lookedBuilt⟩
  · rw [ends_bind, ends_get]
    split
    · rw [ends_bind]
      refine (covered.ends_rollSegment lookedBuilt).imp ?_
      rintro next rolled ⟨nextCovered, rolledBuilt⟩
      exact nextCovered.ends_stageRecord rolledBuilt isBegun payload
    · exact covered.ends_stageRecord lookedBuilt isBegun payload

/-- A batch writes records of its own blocks only. -/
theorem keeps_built_appendAll
    {payloads : List Payload}
    (isRepair : Bool)
    (isBegun : ∀ payload ∈ payloads, begun (blake3 payload.bytes)) :
    Keeps (Node.Built begun) (appendAll blake3 payloads isRepair) := by
  intro node built
  simp only [appendAll, ends_bind, ends_get]
  split
  · exact built
  · rw [ends_bind]
    refine (ends_foldlM
      (fun (batch : Batch) remaining (state : Node) =>
        (∀ payload ∈ remaining, begun (blake3 payload.bytes)) ∧
          batch.Covered begun ∧ state.Built begun) ?_ ?_).imp ?_
    · rintro batch payload rest state ⟨isBegun, covered, stateBuilt⟩
      refine (covered.ends_appendOne stateBuilt isRepair
        (isBegun payload (by simp))).imp ?_
      intro next final kept
      exact ⟨fun other member => isBegun other (by simp [member]), kept⟩
    · exact ⟨isBegun, by simp [Batch.Covered], built⟩
    · rintro batch state ⟨-, covered, stateBuilt⟩
      rw [ends_bind]
      refine (covered.keeps_flushPending state stateBuilt).imp ?_
      intro _ flushed flushedBuilt
      split
      · rw [ends_bind]
        exact (keeps_built_ioStep flushed flushedBuilt).imp
          fun _ _ synced => synced
      · exact flushedBuilt

/-- A batch of appends, however it ends. -/
theorem keeps_built_putManyInner
    {payloads : List Payload}
    (isRepair : Bool)
    (isBegun : ∀ payload ∈ payloads, begun (blake3 payload.bytes)) :
    Keeps (Node.Built begun) (putManyInner blake3 payloads isRepair) := by
  intro node built
  simp only [putManyInner, ends_bind, ends_get]
  split
  · exact built
  · rw [ends_bind, ends_onFailure]
    exact (keeps_built_appendAll isRepair isBegun node built).mono
      (fun _ _ kept => kept) (fun _ _ kept => kept)

theorem keeps_built_put
    (isBegun : begun (blake3 payload.bytes)) :
    Keeps (Node.Built begun) (put blake3 payload) := by
  refine .bind (keeps_built_putManyInner false ?_) fun ids => ?_
  · exact List.forall_mem_singleton.mpr isBegun
  · split
    · exact .pure _
    · exact .throw _

theorem keeps_built_repair
    (id : BlockId)
    (isBegun : begun (blake3 payload.bytes)) :
    Keeps (Node.Built begun) (repair blake3 id payload) := by
  intro node built
  refine ends_repair_of_append built fun _ => ?_
  exact keeps_built_putManyInner true
    (List.forall_mem_singleton.mpr isBegun) node built

end Appends

end KalpakDb
