import KalpakDb.SegmentFiles

namespace KalpakDb

/-!
# What the calls of the block store always do

Facts about the index and the results that hold on any disk, whatever its
files contain and whichever I/O step fails.
-/

open Std (ExtTreeMap)
open Contract

/-! ## Code that leaves the memory of the process alone -/

/-- However the code ends, the in-memory part of the store is the same. -/
def KeepsStore {α : Type} (code : StorageM α) : Prop :=
  ∀ node,
    Ends code node (fun _ final => final.store = node.store)
      (fun _ final => final.store = node.store)

namespace KeepsStore

variable {α β : Type}

theorem pure (value : α) : KeepsStore (Pure.pure value) :=
  fun _ => rfl

theorem throw (error : Failure) :
    KeepsStore (MonadExcept.throw error : StorageM α) :=
  fun _ => rfl

theorem get : KeepsStore (MonadState.get : StorageM Node) :=
  fun _ => rfl

theorem modify
    {change : Node → Node}
    (kept : ∀ node, (change node).store = node.store) :
    KeepsStore (modify change) :=
  kept

theorem bind
    {code : StorageM α}
    {next : α → StorageM β}
    (first : KeepsStore code)
    (second : ∀ value, KeepsStore (next value)) :
    KeepsStore (code >>= next) := by
  intro node
  rw [ends_bind]
  refine (first node).imp ?_
  intro value middle same
  have later := second value middle
  rwa [same] at later

/-- Such code keeps whatever is said of the store in memory. -/
theorem keeps
    {code : StorageM α}
    (keepsStore : KeepsStore code)
    (assertion : BlockStore → Prop) :
    Keeps (fun node : Node => assertion node.store) code := by
  intro node holds
  have kept (final : Node) (same : final.store = node.store) :
      assertion final.store := by
    rwa [same]
  exact (keepsStore node).mono (fun _ final same => kept final same)
    (fun _ final same => kept final same)

/-- Such code in front of other code. -/
theorem ends_before
    {code : StorageM α}
    {returned : α → Node → Prop}
    {failed : Failure → Node → Prop}
    {store : BlockStore}
    {node : Node}
    (keeps : KeepsStore code)
    (same : node.store = store)
    (onReturn : ∀ value final, final.store = store → returned value final)
    (onFail : ∀ error final, final.store = store → failed error final) :
    Ends code node returned failed :=
  (keeps node).mono
    (fun value final kept => onReturn value final (kept.trans same))
    (fun error final kept => onFail error final (kept.trans same))

end KeepsStore

theorem keepsStore_ioStep : KeepsStore ioStep :=
  fun _ => ends_ioStep (fun _ => rfl) rfl

theorem keepsStore_fileOf (handle : Nat) : KeepsStore (fileOf handle) := by
  refine .bind .get fun node => ?_
  split
  · exact .pure _
  · exact .throw _

theorem keepsStore_writeBatch
    (handle : Nat)
    (writes : List (Nat × Bytes)) :
    KeepsStore (writeBatch handle writes) := by
  refine .bind (keepsStore_fileOf handle) fun file => .bind .get fun node => ?_
  dsimp only
  split
  · exact .throw _
  · exact .bind (.modify fun _ => rfl) fun _ => keepsStore_ioStep

theorem keepsStore_readAt (handle offset count : Nat) :
    KeepsStore (readAt handle offset count) := by
  refine .bind keepsStore_ioStep fun _ =>
    .bind (keepsStore_fileOf handle) fun file => ?_
  split
  · exact .pure _
  · exact .throw _

theorem keepsStore_openSegment (segment : Nat) :
    KeepsStore (openSegment segment) := by
  refine .bind keepsStore_ioStep fun _ => .bind .get fun node => ?_
  split
  · exact .pure _
  · refine .bind (.bind .get fun _ => .bind (.modify fun _ => rfl) fun _ =>
      .pure _) fun handle => ?_
    exact .bind (.modify fun _ => rfl) fun _ => .pure _

theorem keepsStore_openTemporary (segment : Nat) :
    KeepsStore (openTemporary segment) := by
  refine .bind keepsStore_ioStep fun _ => .bind .get fun node => ?_
  split
  · exact .pure _
  · refine .bind (.bind .get fun _ => .bind (.modify fun _ => rfl) fun _ =>
      .pure _) fun handle => ?_
    exact .bind (.modify fun _ => rfl) fun _ => .pure _

theorem keepsStore_renameTemporary (segment : Nat) :
    KeepsStore (renameTemporary segment) := by
  refine .bind keepsStore_ioStep fun _ => .bind .get fun node => ?_
  split
  · exact .throw _
  · exact .modify fun _ => rfl

section Hash

variable {blake3 : Bytes → BlockId} {node : Node}

/-! ## Reading -/

/-- Reading changes nothing but the failure that lies ahead. -/
def Node.SameButFault (node final : Node) : Prop :=
  ∃ fault, final = { node with fault := fault }

theorem Node.SameButFault.refl (node : Node) : node.SameButFault node :=
  ⟨node.fault, rfl⟩

/-- A block that is returned was indexed and has the digest asked for. -/
theorem ends_getBlock_any
    (blake3 : Bytes → BlockId)
    (node : Node)
    (id : BlockId) :
    Ends (getBlock blake3 id) node
      (fun bytes final =>
        blake3 bytes = id ∧ id ∈ node.store.index ∧
          node.SameButFault final)
      (fun error final =>
        (error = .blockNotFound id → id ∉ node.store.index) ∧
          node.SameButFault final) := by
  simp only [getBlock, ends_bind, ends_get]
  cases found : node.store.index[id]? with
  | none =>
      refine ⟨fun _ => ?_, .refl node⟩
      rw [ExtTreeMap.mem_iff_isSome_getElem?, found]
      simp
  | some location =>
      have indexed : id ∈ node.store.index := by
        rw [ExtTreeMap.mem_iff_isSome_getElem?, found]
        rfl
      simp only
      cases named : node.store.files[location.segment]? with
      | none =>
          exact ⟨by simp, .refl node⟩
      | some handle =>
          simp only
          split
          · exact ⟨by simp, .refl node⟩
          simp only [readAt, ends_bind]
          refine ends_ioStep ?_ ⟨by simp, none, rfl⟩
          intro fault
          simp only [fileOf, ends_bind, ends_get]
          cases onDisk : node.disk.objects[handle]? with
          | none =>
              exact ⟨by simp, fault, rfl⟩
          | some file =>
              simp only [ends_pure]
              split
              · simp only [ends_pure]
                split
                · exact ⟨by simp, fault, rfl⟩
                · rename_i verified
                  exact ⟨not_not.mp verified, indexed, fault, rfl⟩
              · exact ⟨by simp, fault, rfl⟩

/-- A block counts as present only if it is indexed. -/
theorem ends_isPresent_any
    (repair : Bool)
    (id : BlockId) :
    Ends (isPresent blake3 repair id) node
      (fun present final =>
        (present = true → id ∈ node.store.index) ∧
        (repair = false → present = false → id ∉ node.store.index) ∧
        node.SameButFault final)
      (fun _ final => node.SameButFault final) := by
  cases repair with
  | false =>
      simp only [isPresent, Bool.false_eq_true, if_false, ends_bind,
        ends_get, ends_pure, ← ExtTreeMap.contains_iff_mem]
      exact ⟨fun present => present, fun _ absent => by simp [absent],
        .refl node⟩
  | true =>
      simp only [isPresent, if_true, ends_bind, ends_observe]
      refine (ends_getBlock_any blake3 node id).mono ?_ ?_
      · rintro bytes final ⟨-, indexed, same⟩
        exact ⟨fun _ => indexed, by simp, same⟩
      · rintro error final ⟨-, same⟩
        cases error with
        | panicked => exact same
        | diverged => exact same
        | _ => exact ⟨by simp, by simp, same⟩

/-! ## Appending -/

theorem keepsStore_flushPending (batch : Batch) :
    KeepsStore (flushPending batch) := by
  unfold flushPending
  split
  · exact .pure ()
  · exact keepsStore_writeBatch _ _

/--
A batch in progress: nothing is published yet, and what is indexed or staged
is what was indexed before and the payloads that were looked at.
-/
structure Staging
    (blake3 : Bytes → BlockId)
    (node : Node)
    (seen : List Payload)
    (batch : Batch)
    (state : Node) : Prop where
  index : state.store.index = node.store.index
  known :
    ∀ id,
      id ∈ node.store.index ∨ id ∈ batch.staged.map Prod.fst ↔
        id ∈ node.store.index ∨
          id ∈ seen.map fun payload => blake3 payload.bytes

section Batch

variable {seen : List Payload} {batch : Batch} {state : Node}

theorem ends_rollSegment_index :
    Ends (rollSegment batch) state
      (fun next final =>
        next.staged = batch.staged ∧
          final.store.index = state.store.index)
      (fun _ final => final.store.index = state.store.index) := by
  rw [rollSegment, ends_bind]
  refine (keepsStore_flushPending batch _).mono ?_
    (fun _ final same => congrArg BlockStore.index same)
  intro _ flushed same
  simp only [ends_bind, ends_get]
  refine (keepsStore_openSegment _ _).mono ?_ ?_
  · intro handle final sameStore
    simp only [ends_modify, ends_pure]
    exact ⟨trivial, congrArg BlockStore.index (sameStore.trans same)⟩
  · intro error final sameStore
    exact congrArg BlockStore.index (sameStore.trans same)

theorem ends_stageRecord_index
    (id : BlockId)
    (payload : Payload) :
    Ends (stageRecord batch id payload) state
      (fun next final =>
        next.staged.map Prod.fst = batch.staged.map Prod.fst ++ [id] ∧
          final.store.index = state.store.index)
      (fun _ final => final.store.index = state.store.index) := by
  simp only [stageRecord, ends_bind, ends_get, ends_modify, ends_pure,
    List.map_append, List.map_cons, List.map_nil, and_self]

/-- One payload of a batch is afterwards indexed or staged. -/
theorem Staging.ends_appendOne
    (staging : Staging blake3 node seen batch state)
    (repair : Bool)
    (payload : Payload) :
    Ends (appendOne blake3 repair batch payload) state
      (fun next final =>
        Staging blake3 node (seen ++ [payload]) next final)
      (fun _ final => final.store.index = node.store.index) := by
  have publish
      {next : Batch}
      {final : Node}
      (ids :
        next.staged.map Prod.fst =
          batch.staged.map Prod.fst ++ [blake3 payload.bytes])
      (same : final.store.index = node.store.index) :
      Staging blake3 node (seen ++ [payload]) next final := by
    refine ⟨same, ?_⟩
    intro id
    rw [ids, List.mem_append, ← or_assoc, staging.known, List.map_append,
      List.mem_append, or_assoc]
    rfl
  rw [appendOne, ends_bind]
  refine (ends_isPresent_any repair _).mono ?_ ?_
  · rintro present checked ⟨indexed, -, fault, rfl⟩
    have same := staging.index
    split
    · rename_i known
      refine ⟨same, ?_⟩
      intro id
      rw [staging.known, List.map_append, List.mem_append, ← or_assoc]
      refine (or_iff_left_of_imp ?_).symm
      intro here
      rw [← staging.known]
      rw [List.map_singleton, List.mem_singleton] at here
      subst here
      rcases Bool.or_eq_true_iff.mp known with isPresent | isStaged
      · exact Or.inl (staging.index ▸ indexed isPresent)
      · obtain ⟨entry, member, equal⟩ := List.any_eq_true.mp isStaged
        rw [← of_decide_eq_true equal]
        exact Or.inr (List.mem_map_of_mem member)
    · simp only [ends_bind, ends_get]
      split
      · rw [ends_bind]
        refine ends_rollSegment_index.mono ?_ ?_
        · rintro next rolled ⟨sameStaged, rolledIndex⟩
          refine (ends_stageRecord_index _ payload).mono ?_ ?_
          · rintro last final ⟨ids, finalIndex⟩
            rw [sameStaged] at ids
            exact publish ids (finalIndex.trans (rolledIndex.trans same))
          · intro error final finalIndex
            exact finalIndex.trans (rolledIndex.trans same)
        · intro error final rolledIndex
          exact rolledIndex.trans same
      · refine (ends_stageRecord_index _ payload).mono ?_ ?_
        · rintro last final ⟨ids, finalIndex⟩
          exact publish ids (finalIndex.trans same)
        · intro error final finalIndex
          exact finalIndex.trans same
  · rintro error final ⟨fault, rfl⟩
    exact staging.index

end Batch

/-- A batch publishes all its identifiers, or none if it fails. -/
theorem ends_appendAll_any
    (payloads : List Payload)
    (repair : Bool) :
    Ends (appendAll blake3 payloads repair) node
      (fun _ final =>
        ∀ id,
          id ∈ final.store.index ↔
            id ∈ node.store.index ∨
              id ∈ payloads.map fun payload => blake3 payload.bytes)
      (fun _ final => final.store.index = node.store.index) := by
  simp only [appendAll, ends_bind, ends_get]
  cases node.store.files.getLast? with
  | none => rfl
  | some handle =>
      simp only [ends_bind]
      refine (ends_foldlM
        (fun (batch : Batch) remaining state =>
          ∃ seen,
            seen ++ remaining = payloads ∧
              Staging blake3 node seen batch state) ?_ ?_).imp ?_
      · rintro batch payload rest state ⟨seen, rfl, staging⟩
        refine (staging.ends_appendOne repair payload).imp ?_
        intro next final extended
        exact ⟨seen ++ [payload], by simp, extended⟩
      · exact ⟨[], rfl, rfl, by simp⟩
      · rintro batch state ⟨seen, rfl, staging⟩
        rw [List.append_nil]
        have published
            {final : Node}
            (same : final.store = state.store)
            (id : BlockId) :
            id ∈ final.store.index.insertMany batch.staged ↔
              id ∈ node.store.index ∨
                id ∈ seen.map fun payload => blake3 payload.bytes := by
          rw [← staging.known, same, staging.index,
            ExtTreeMap.mem_insertMany_list]
          simp
        have unchanged
            {final : Node}
            (same : final.store = state.store) :
            final.store.index = node.store.index := by
          rw [same, staging.index]
        refine (keepsStore_flushPending batch _).mono ?_
          (fun _ _ => unchanged)
        intro _ flushed same
        split
        · rw [ends_bind, syncDir]
          exact ends_ioStep (fun _ => published same) (unchanged same)
        · exact published same

/-- What a batch returns and publishes, on any store. -/
theorem ends_putManyInner_any
    (payloads : List Payload)
    (repair : Bool) :
    Ends (putManyInner blake3 payloads repair) node
      (fun ids final =>
        ids = payloads.map (fun payload => blake3 payload.bytes) ∧
        ∀ id,
          id ∈ final.store.index ↔ id ∈ node.store.index ∨ id ∈ ids)
      (fun _ final => final.store.index = node.store.index) := by
  simp only [putManyInner, ends_bind, ends_get]
  split
  · rfl
  · simp only [ends_bind, ends_onFailure]
    refine (ends_appendAll_any payloads repair).mono ?_ ?_
    · intro _ final published
      exact ⟨rfl, published⟩
    · exact fun _ _ unchanged => unchanged

theorem ends_put_any (payload : Payload) :
    Ends (put blake3 payload) node
      (fun id final =>
        id = blake3 payload.bytes ∧
        ∀ other,
          other ∈ final.store.index ↔
            other ∈ node.store.index ∨ other = id)
      (fun _ final => final.store.index = node.store.index) := by
  rw [put, putMany, ends_bind]
  refine (ends_putManyInner_any [payload] false).imp ?_
  rintro _ final ⟨rfl, published⟩
  simpa using published

/-- A repair keeps what a refusal keeps and what the append keeps. -/
theorem ends_repair_of_append
    {kept : Node → Prop}
    {id : BlockId}
    {payload : Payload}
    (refused : kept node)
    (appended : blake3 payload.bytes = id →
      Ends (putManyInner blake3 [payload] true) node
        (fun _ final => kept final) (fun _ final => kept final)) :
    Ends (repair blake3 id payload) node
      (fun _ final => kept final) (fun _ final => kept final) := by
  unfold repair
  split
  · exact refused
  · rename_i verified
    rw [ends_bind]
    refine (appended (not_not.mp verified)).imp ?_
    intro ids final stillKept
    cases ids with
    | nil => exact stillKept
    | cons first rest => exact stillKept

/-- A repair is refused unless the payload has the digest of the block. -/
theorem ends_repair_any
    (id : BlockId)
    (payload : Payload) :
    Ends (repair blake3 id payload) node
      (fun _ final =>
        blake3 payload.bytes = id ∧
        ∀ other,
          other ∈ final.store.index ↔
            other ∈ node.store.index ∨ other = id)
      (fun _ final => final.store.index = node.store.index) := by
  unfold repair
  split
  · rfl
  · rename_i verified
    have verified := not_not.mp verified
    simp only [ends_bind]
    refine (ends_putManyInner_any [payload] true).imp ?_
    rintro _ final ⟨rfl, published⟩
    simpa [verified] using published

end Hash

end KalpakDb
