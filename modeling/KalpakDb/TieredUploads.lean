import KalpakDb.StoreHistory
import KalpakDb.TieredReads

namespace KalpakDb

/-!
# Reading back an upload

An upload of a block that the cold index already knows is acknowledged
without a look at its record.  The warm cache then answers for the new bytes,
unless the block is quarantined or the cache has forgotten it.  In the second
case the answer is that of the old record.
-/

open Std (ExtTreeMap ExtTreeSet)
open Contract

/-! ## The cold store below the tiers -/

/-- A store over records, unless an append has failed on it. -/
def Node.Recorded (node : Node) : Prop :=
  node.store.writeFailed = true ∨ ∃ segments, node.Tracks segments

section Cold

variable {blake3 : Bytes → BlockId} {node : Node}

theorem Node.Recorded.withFault
    (recorded : node.Recorded)
    (fault : Option Fault) :
    ({ node with fault := fault } : Node).Recorded :=
  recorded.imp_right fun ⟨segments, tracks⟩ =>
    ⟨segments, tracks.withFault fault⟩

theorem Node.Recorded.damage
    (recorded : node.Recorded)
    (segment position : Nat)
    (bytes : Bytes) :
    (node.damage segment position bytes).Recorded := by
  rcases recorded with failed | ⟨segments, tracks⟩
  · refine Or.inl ?_
    rw [Node.store_damage]
    exact failed
  · obtain ⟨others, damaged, -⟩ := tracks.damage segment position bytes
    exact Or.inr ⟨others, damaged⟩

theorem keeps_getBlock (id : BlockId) :
    Keeps Node.Recorded (getBlock blake3 id) := by
  intro node recorded
  refine (ends_getBlock_any blake3 node id).mono ?_ ?_
  · rintro bytes _ ⟨-, -, fault, rfl⟩
    exact recorded.withFault fault
  · rintro error _ ⟨-, fault, rfl⟩
    exact recorded.withFault fault

theorem keeps_putManyInner
    (payloads : List Payload)
    (isRepair : Bool) :
    Keeps Node.Recorded (putManyInner blake3 payloads isRepair) := by
  rintro node (failed | ⟨segments, tracks⟩)
  · simp only [putManyInner, ends_bind, ends_get, failed, if_true,
      ends_throw]
    exact Or.inl failed
  · refine (tracks.ends_putManyInner payloads isRepair).mono ?_ ?_
    · rintro _ _ ⟨-, after, _, appended⟩
      exact Or.inr ⟨after, appended.tracks⟩
    · exact fun _ _ failed => Or.inl failed

theorem keeps_put (payload : Payload) :
    Keeps Node.Recorded (put blake3 payload) := by
  refine .bind (keeps_putManyInner [payload] false) fun ids => ?_
  cases ids with
  | nil => exact .throw _
  | cons id rest => exact .pure _

theorem keeps_repair
    (id : BlockId)
    (payload : Payload) :
    Keeps Node.Recorded (repair blake3 id payload) := by
  intro node recorded
  exact ends_repair_of_append recorded fun _ =>
    keeps_putManyInner [payload] true node recorded

/-- Compaction never clears the mark of a failed append. -/
theorem ends_compact_writeFailed
    (live : BlockId → Bool)
    (order : IterationOrder) :
    Keeps (fun node : Node => node.store.writeFailed = true)
      (compact blake3 live order) := by
  refine .bind .get fun node => .foldlM ?_ _ _
  intro stats segment
  refine .bind .get fun node => ?_
  dsimp only
  split
  · exact .pure _
  · rw [rewriteSegment_eq]
    refine .bind ?_ fun installed => ?_
    · intro node failed
      exact (ends_installRewrite_store blake3 node segment _).mono
        (fun _ _ kept =>
          (congrArg BlockStore.writeFailed kept.1).trans failed)
        (fun _ _ kept => (congrArg BlockStore.writeFailed kept).trans failed)
    · exact .bind (.modify fun _ failed => failed) fun _ =>
        .bind (keepsStore_ioStep.keeps fun store => store.writeFailed = true)
          fun _ => .pure _

theorem keeps_compact
    (live : BlockId → Bool)
    (order : IterationOrder) :
    Keeps Node.Recorded (compact blake3 live order) := by
  rintro node (failed | ⟨segments, tracks⟩)
  · exact (ends_compact_writeFailed live order node failed).mono
      (fun _ _ failed => Or.inl failed) (fun _ _ failed => Or.inl failed)
  · refine (tracks.ends_compact live order).mono ?_ ?_
    · rintro _ _ ⟨after, compacted, -⟩
      exact Or.inr ⟨after, compacted.tracks⟩
    · rintro _ _ ⟨-, after, compacted⟩
      exact Or.inr ⟨after, compacted.tracks⟩

end Cold

/-! ## The tiers -/

/-- The cold store of a node is one over records. -/
def TieredNode.Recorded (node : TieredNode) : Prop := node.cold.Recorded

/-- A call, or payload bytes that change on disk. -/
inductive UploadEvent where
  | call (fault : Option Fault) (op : TieredOp)
  | damage (segment position : Nat) (bytes : Bytes)

section Tiers

variable {blake3 : Bytes → BlockId} {node : TieredNode}

theorem keeps_onCold
    {α : Type}
    {code : StorageM α}
    (keeps : Keeps Node.Recorded code) :
    Keeps TieredNode.Recorded (onCold code) :=
  .within (fun _ _ => rfl) keeps

theorem keeps_changeTiers (change : TieredStore → TieredStore) :
    Keeps TieredNode.Recorded (changeTiers change) :=
  .modify fun _ recorded => recorded

theorem TieredStore.keeps_getBlock (id : BlockId) :
    Keeps TieredNode.Recorded (TieredStore.getBlock blake3 id) := by
  refine .bind .get fun node => ?_
  dsimp only
  split
  · exact .throw _
  · split
    · exact .pure _
    · split
      · exact .pure _
      · exact .bind (keeps_onCold (KalpakDb.keeps_getBlock id)) fun _ =>
          .bind (keeps_changeTiers _) fun _ => .pure _

theorem TieredStore.keeps_pin (id : BlockId) :
    Keeps TieredNode.Recorded (TieredStore.pin blake3 id) := by
  refine .bind .get fun node => ?_
  split
  · exact .pure _
  · refine .bind (TieredStore.keeps_getBlock id) fun _ => .bind .get fun _ => ?_
    dsimp only
    split
    · exact .pure _
    · split
      · exact .pure _
      · exact .bind (keeps_changeTiers _) fun _ => .pure _

theorem TieredStore.keeps_verifyCold (id : BlockId) :
    Keeps TieredNode.Recorded (TieredStore.verifyCold blake3 id) := by
  refine .bind (.observe (keeps_onCold (KalpakDb.keeps_getBlock id)))
    fun outcome => ?_
  split
  · exact keeps_changeTiers _
  · exact .throw _
  · exact .throw _
  · exact .throw _
  · exact .bind (keeps_changeTiers _) fun _ => .throw _

theorem TieredStore.keeps_compact
    (live : BlockId → Bool)
    (order : IterationOrder) :
    Keeps TieredNode.Recorded (TieredStore.compact blake3 live order) := by
  refine .bind (keeps_onCold (KalpakDb.keeps_compact live order))
    fun stats => ?_
  split
  · exact .bind (.modify fun _ recorded => recorded) fun _ => .pure _
  · exact .pure _

theorem TieredOp.perform_recorded
    (recorded : node.Recorded)
    (op : TieredOp) :
    (op.perform blake3 node).Recorded := by
  cases op with
  | put payload =>
      have keeps : Keeps TieredNode.Recorded
          (TieredStore.put blake3 payload) :=
        .bind (keeps_onCold (keeps_put payload)) fun _ =>
          .bind (keeps_changeTiers _) fun _ => .pure _
      exact (keeps node recorded).final
  | putMany payloads =>
      have keeps : Keeps TieredNode.Recorded
          (TieredStore.putMany blake3 payloads) :=
        .bind (keeps_onCold (keeps_putManyInner payloads false)) fun _ =>
          .bind (keeps_changeTiers _) fun _ => .pure _
      exact (keeps node recorded).final
  | get id => exact (TieredStore.keeps_getBlock id node recorded).final
  | pin id => exact (TieredStore.keeps_pin id node recorded).final
  | verifyCold id =>
      exact (TieredStore.keeps_verifyCold id node recorded).final
  | repair id payload =>
      have keeps : Keeps TieredNode.Recorded
          (TieredStore.repair blake3 id payload) :=
        .bind (keeps_onCold (keeps_repair id payload)) fun _ =>
          .bind (keeps_changeTiers _) fun _ => .pure _
      exact (keeps node recorded).final
  | compact live order =>
      exact (TieredStore.keeps_compact live order node recorded).final
  | evict ids => exact recorded

def stepUpload
    (blake3 : Bytes → BlockId)
    (node : TieredNode) : UploadEvent → TieredNode
  | .call fault op => op.perform blake3 (node.withFault fault)
  | .damage segment position bytes =>
      { node with cold := node.cold.damage segment position bytes }

/-- Verified tiers over a cold store of records. -/
def TieredNode.Sound
    (blake3 : Bytes → BlockId)
    (node : TieredNode) : Prop :=
  node.Recorded ∧ node.tiers.Verified blake3

theorem stepUpload_sound
    (sound : node.Sound blake3)
    (event : UploadEvent) :
    (stepUpload blake3 node event).Sound blake3 := by
  obtain ⟨recorded, verified⟩ := sound
  cases event with
  | call fault op =>
      have start : (node.withFault fault).Recorded :=
        Node.Recorded.withFault recorded fault
      refine ⟨op.perform_recorded start, ?_⟩
      intro id bytes resident
      rcases op.perform_admits id bytes resident with before | ⟨digest, -⟩
      · exact verified id bytes before
      · exact digest
  | damage segment position bytes =>
      exact ⟨recorded.damage segment position bytes, verified⟩

theorem stepUpload_sound_after
    (blake3 : Bytes → BlockId)
    (rollBytes warmBudget : Nat)
    (events : List UploadEvent) :
    (StepRun.after (stepUpload blake3)
      ⟨.new warmBudget, (execute (openWithRoll rollBytes) {}).2⟩
      events).Sound blake3 := by
  have preserved (node : TieredNode) (event : UploadEvent)
      (sound : node.Sound blake3) :
      (stepUpload blake3 node event).Sound blake3 :=
    stepUpload_sound sound event
  refine StepRun.invariant_after preserved events ⟨?_, ?_⟩
  · exact Or.inr ⟨_, tracks_initial rollBytes⟩
  · exact fun id bytes resident => absurd resident TieredStore.resident_new

/-! ## Reading back -/

/-- Reading through the tiers, tier by tier. -/
theorem TieredStore.getBlock_result
    (node : TieredNode)
    (id : BlockId) :
    (execute (TieredStore.getBlock blake3 id) node).1 =
      if node.tiers.quarantined.contains id then .error (.corrupt id)
      else
        match node.tiers.pinned[id]? with
        | some payload => .ok payload
        | none =>
            match node.tiers.warm[id]? with
            | some payload => .ok payload
            | none => (execute (KalpakDb.getBlock blake3 id) node.cold).1 := by
  apply Ends.result_eq
  simp only [TieredStore.getBlock, ends_bind, ends_get]
  split
  · rfl
  · cases node.tiers.pinned[id]? with
    | some payload => rfl
    | none =>
        simp only
        cases node.tiers.warm[id]? with
        | some payload => rfl
        | none =>
            simp only [onCold, ends_bind, ends_within, changeTiers,
              ends_modify, ends_pure]
            rcases outcome : execute (KalpakDb.getBlock blake3 id)
                node.cold with ⟨error | bytes, cold⟩
            · exact (ends_of_error outcome).mpr rfl
            · exact (ends_of_ok outcome).mpr rfl

/-- What is read from the cold store has the right digest. -/
theorem Node.read_digest
    {cold : Node}
    {id : BlockId}
    {bytes : Bytes}
    (found : cold.read blake3 id = .ok bytes) :
    blake3 bytes = id := by
  have contract := ends_getBlock_any blake3 { cold with fault := none } id
  rcases outcome : execute (getBlock blake3 id)
      { cold with fault := none } with ⟨error | read, final⟩
  · rw [Node.read, outcome] at found
    cases found
  · rw [Node.read, outcome] at found
    cases found
    exact ((ends_of_ok outcome).mp contract).1

/-- What an upload has done when it is acknowledged. -/
structure Uploaded
    (blake3 : Bytes → BlockId)
    (node final : TieredNode)
    (payload : Payload) : Prop where
  quarantined : final.tiers.quarantined = node.tiers.quarantined
  pinned : final.tiers.pinned = node.tiers.pinned
  warm : final.tiers.warm[blake3 payload.bytes]? = some payload.bytes
  cold :
    final.cold.read blake3 (blake3 payload.bytes) = .ok payload.bytes ↔
      blake3 payload.bytes ∉ node.cold.store.index ∨
        node.cold.read blake3 (blake3 payload.bytes) = .ok payload.bytes

/--
The block is not quarantined; and it stays in memory, is pinned, is new, or
has an intact record.
-/
def TieredNode.Welcomes
    (blake3 : Bytes → BlockId)
    (node : TieredNode)
    (evicted : List BlockId)
    (id : BlockId) : Prop :=
  id ∉ node.tiers.quarantined ∧
    (id ∉ evicted ∨ id ∈ node.tiers.pinned ∨
      id ∉ node.cold.store.index ∨
      (node.cold.read blake3 id).isOk = true)

/-- Reading a block through the tiers after the cache has forgotten some. -/
def TieredNode.readAfter
    (blake3 : Bytes → BlockId)
    (node : TieredNode)
    (evicted : List BlockId)
    (id : BlockId) : Except Failure Bytes :=
  (execute (TieredStore.getBlock blake3 id)
    ({ node with tiers := node.tiers.evict evicted }.withFault none)).1

theorem Uploaded.readAfter_iff
    {final : TieredNode}
    {payload : Payload}
    (uploaded : Uploaded blake3 node final payload)
    (verified : node.tiers.Verified blake3)
    (noCollision :
      ∀ bytes,
        node.tiers.Resident (blake3 payload.bytes) bytes ∨
            node.cold.read blake3 (blake3 payload.bytes) = .ok bytes →
        blake3 bytes = blake3 payload.bytes →
          bytes = payload.bytes)
    (evicted : List BlockId) :
    final.readAfter blake3 evicted (blake3 payload.bytes) =
        .ok payload.bytes ↔
      node.Welcomes blake3 evicted (blake3 payload.bytes) := by
  rw [TieredNode.readAfter, TieredStore.getBlock_result]
  simp only [TieredNode.withFault, TieredStore.evict, uploaded.quarantined,
    uploaded.pinned, FiniteMap.getElem?_eraseAll, uploaded.warm]
  have intact :
      (node.cold.read blake3 (blake3 payload.bytes)).isOk = true ↔
        node.cold.read blake3 (blake3 payload.bytes) =
          .ok payload.bytes := by
    cases found : node.cold.read blake3 (blake3 payload.bytes) with
    | error failure => simp [Except.isOk, Except.toBool]
    | ok bytes =>
        have same := noCollision bytes (Or.inr found) (Node.read_digest found)
        simp [same, Except.isOk, Except.toBool]
  unfold TieredNode.Welcomes
  by_cases quarantined : blake3 payload.bytes ∈ node.tiers.quarantined
  · simp [quarantined]
  · cases pinned : node.tiers.pinned[blake3 payload.bytes]? with
    | some bytes =>
        have same := noCollision bytes (Or.inl (Or.inl pinned))
          (verified _ _ (Or.inl pinned))
        have isPinned : blake3 payload.bytes ∈ node.tiers.pinned := by
          rw [ExtTreeMap.mem_iff_isSome_getElem?, pinned]
          rfl
        simp [quarantined, isPinned, same]
    | none =>
        have notPinned : blake3 payload.bytes ∉ node.tiers.pinned := by
          rw [ExtTreeMap.mem_iff_isSome_getElem?, pinned]
          exact Bool.false_ne_true
        by_cases forgotten : blake3 payload.bytes ∈ evicted
        · simp only [ExtTreeSet.contains_iff_mem, quarantined, if_false,
            forgotten, if_true, not_true_eq_false, notPinned, false_or,
            not_false_eq_true, true_and, intact]
          exact uploaded.cold
        · simp [quarantined, forgotten]

/-- A batch that is acknowledged, seen by a cold read. -/
theorem Node.Recorded.ends_putManyInner
    {cold : Node}
    (recorded : cold.Recorded)
    (payloads : List Payload) :
    Ends (putManyInner blake3 payloads false) cold
      (fun ids final =>
        ids = payloads.map (fun payload => blake3 payload.bytes) ∧
        ∀ payload ∈ payloads,
          (∀ other ∈ payloads,
            blake3 other.bytes = blake3 payload.bytes → other = payload) →
          (final.read blake3 (blake3 payload.bytes) = .ok payload.bytes ↔
            blake3 payload.bytes ∉ cold.store.index ∨
              cold.read blake3 (blake3 payload.bytes) = .ok payload.bytes))
      (fun _ _ => True) := by
  rcases recorded with failed | ⟨segments, tracks⟩
  · simp only [putManyInner, ends_bind, ends_get, failed, if_true,
      ends_throw]
  · refine ((tracks.ends_putManyInner payloads false).and
      (ends_putManyInner_any payloads false)).mono ?_ (fun _ _ _ => trivial)
    rintro _ final ⟨⟨rfl, after, added, appended⟩, -, published⟩
    refine ⟨rfl, fun payload member noCollision => ?_⟩
    exact appended.read_iff tracks
      ((published _).mpr (Or.inr (List.mem_map_of_mem member))) rfl
      noCollision

/-- The tiers after the blocks of a batch were warmed. -/
theorem TieredStore.warmInserts
    (entries : List (BlockId × Payload))
    (tiers : TieredStore) :
    let final := entries.foldl
      (fun tiers entry => tiers.warmInsert entry.1 entry.2.bytes) tiers
    final.quarantined = tiers.quarantined ∧
      final.pinned = tiers.pinned ∧
      ∀ id bytes,
        bytes.length ≤ tiers.warmBudget →
        (∀ entry ∈ entries, entry.1 = id → entry.2.bytes = bytes) →
        (∃ entry ∈ entries, entry.1 = id) ∨
            tiers.warm[id]? = some bytes →
          final.warm[id]? = some bytes := by
  induction entries generalizing tiers with
  | nil =>
      refine ⟨rfl, rfl, ?_⟩
      rintro id bytes - - (⟨entry, member, -⟩ | warm)
      · cases member
      · exact warm
  | cons entry rest inductionHypothesis =>
      obtain ⟨quarantined, pinned, warm⟩ :=
        inductionHypothesis (tiers.warmInsert entry.1 entry.2.bytes)
      have budget : (tiers.warmInsert entry.1 entry.2.bytes).warmBudget =
          tiers.warmBudget := by
        unfold warmInsert
        split <;> rfl
      have untouched :
          (tiers.warmInsert entry.1 entry.2.bytes).quarantined =
              tiers.quarantined ∧
            (tiers.warmInsert entry.1 entry.2.bytes).pinned =
              tiers.pinned := by
        unfold warmInsert
        split <;> exact ⟨rfl, rfl⟩
      refine ⟨quarantined.trans untouched.1, pinned.trans untouched.2, ?_⟩
      intro id bytes fits same present
      refine warm id bytes (budget.symm ▸ fits)
        (fun other member => same other (List.mem_cons_of_mem _ member)) ?_
      by_cases later : ∃ other ∈ rest, other.1 = id
      · exact Or.inl later
      · refine Or.inr ?_
        by_cases here : entry.1 = id
        · have isBytes := same entry (List.mem_cons_self ..) here
          rw [warmInsert, isBytes, if_pos fits, here]
          simp
        · have before : tiers.warm[id]? = some bytes := by
            rcases present with ⟨other, member, sameId⟩ | before
            · rcases List.mem_cons.mp member with rfl | inRest
              · exact absurd sameId here
              · exact absurd ⟨other, inRest, sameId⟩ later
            · exact before
          unfold warmInsert
          split
          · have different : compare entry.1 id ≠ .eq :=
              fun equal => here (Std.LawfulEqOrd.eq_of_compare equal)
            rw [ExtTreeMap.getElem?_insert, if_neg different]
            exact before
          · exact before

section Upload

variable {payload : Payload}

theorem TieredNode.Recorded.ends_put
    (recorded : node.Recorded)
    (fits : payload.bytes.length ≤ node.tiers.warmBudget) :
    Ends (TieredStore.put blake3 payload) node
      (fun id final =>
        id = blake3 payload.bytes ∧ Uploaded blake3 node final payload)
      (fun _ _ => True) := by
  simp only [TieredStore.put, onCold, ends_bind, ends_within, changeTiers,
    ends_modify, ends_pure, KalpakDb.put, KalpakDb.putMany]
  refine (Node.Recorded.ends_putManyInner recorded [payload]).imp ?_
  rintro _ cold ⟨rfl, readable⟩
  obtain ⟨quarantined, pinned, warm⟩ :=
    TieredStore.warmInserts [(blake3 payload.bytes, payload)] node.tiers
  refine ⟨rfl, quarantined, pinned, ?_, ?_⟩
  · refine warm _ _ fits ?_ (Or.inl ⟨_, List.mem_singleton_self _, rfl⟩)
    intro entry member _
    rw [List.mem_singleton.mp member]
  · refine readable payload (List.mem_singleton_self payload) ?_
    intro other member _
    exact List.mem_singleton.mp member

theorem TieredNode.Recorded.ends_putMany
    (recorded : node.Recorded)
    (fits : payload.bytes.length ≤ node.tiers.warmBudget)
    {payloads : List Payload}
    (member : payload ∈ payloads)
    (noCollision :
      ∀ other ∈ payloads,
        blake3 other.bytes = blake3 payload.bytes → other = payload) :
    Ends (TieredStore.putMany blake3 payloads) node
      (fun ids final =>
        ids = payloads.map (fun payload => blake3 payload.bytes) ∧
          Uploaded blake3 node final payload)
      (fun _ _ => True) := by
  simp only [TieredStore.putMany, onCold, ends_bind, ends_within,
    changeTiers, ends_modify, ends_pure, KalpakDb.putMany]
  refine (Node.Recorded.ends_putManyInner recorded payloads).imp ?_
  rintro _ cold ⟨rfl, readable⟩
  rw [TieredStore.zip_digests]
  obtain ⟨quarantined, pinned, warm⟩ :=
    TieredStore.warmInserts
      (payloads.map fun payload => (blake3 payload.bytes, payload)) node.tiers
  refine ⟨rfl, quarantined, pinned, ?_, readable payload member noCollision⟩
  refine warm _ _ fits ?_ (Or.inl ⟨_, List.mem_map_of_mem member, rfl⟩)
  intro entry listed same
  obtain ⟨other, inBatch, rfl⟩ := List.mem_map.mp listed
  rw [noCollision other inBatch same]

/--
An acknowledged upload is read back, also after the cache has forgotten some
entries, if and only if the block is not quarantined and, where it has been
forgotten, is pinned, new or intact on disk.
-/
theorem upload_readable_iff
    (blake3 : Bytes → BlockId)
    (rollBytes warmBudget : Nat)
    (events : List UploadEvent)
    (payload : Payload)
    (fits :
      payload.bytes.length ≤ (StepRun.after (stepUpload blake3)
        ⟨.new warmBudget, (execute (openWithRoll rollBytes) {}).2⟩
        events).tiers.warmBudget)
    (noCollision :
      ∀ bytes,
        (StepRun.after (stepUpload blake3)
            ⟨.new warmBudget, (execute (openWithRoll rollBytes) {}).2⟩
            events).tiers.Resident (blake3 payload.bytes) bytes ∨
          (StepRun.after (stepUpload blake3)
            ⟨.new warmBudget, (execute (openWithRoll rollBytes) {}).2⟩
            events).cold.read blake3 (blake3 payload.bytes) = .ok bytes →
        blake3 bytes = blake3 payload.bytes →
          bytes = payload.bytes)
    (fault : Option Fault)
    (evicted : List BlockId) :
    let node := StepRun.after (stepUpload blake3)
      ⟨.new warmBudget, (execute (openWithRoll rollBytes) {}).2⟩ events
    (∀ id,
      (execute (TieredStore.put blake3 payload)
        (node.withFault fault)).1 = .ok id →
        ((execute (TieredStore.put blake3 payload)
            (node.withFault fault)).2.readAfter blake3 evicted id =
              .ok payload.bytes ↔
          node.Welcomes blake3 evicted id)) ∧
      ∀ (payloads : List Payload) (position : Nat) (ids : List BlockId)
        (id : BlockId),
        payloads[position]? = some payload →
        (∀ other ∈ payloads,
          blake3 other.bytes = blake3 payload.bytes → other = payload) →
        (execute (TieredStore.putMany blake3 payloads)
          (node.withFault fault)).1 = .ok ids →
        ids[position]? = some id →
          ((execute (TieredStore.putMany blake3 payloads)
              (node.withFault fault)).2.readAfter blake3 evicted id =
                .ok payload.bytes ↔
            node.Welcomes blake3 evicted id) := by
  intro node
  obtain ⟨recorded, verified⟩ :=
    stepUpload_sound_after blake3 rollBytes warmBudget events
  have start : (node.withFault fault).Recorded :=
    Node.Recorded.withFault recorded fault
  constructor
  · intro id returned
    have ends : Ends (TieredStore.put blake3 payload) (node.withFault fault)
        _ _ := start.ends_put fits
    rcases outcome : execute (TieredStore.put blake3 payload)
        (node.withFault fault) with ⟨error | stored, final⟩
    · rw [outcome] at returned
      cases returned
    · rw [outcome] at returned
      cases returned
      obtain ⟨rfl, uploaded⟩ := (ends_of_ok outcome).mp ends
      exact uploaded.readAfter_iff verified noCollision evicted
  · intro payloads position ids id present distinct returned listed
    have ends : Ends (TieredStore.putMany blake3 payloads)
        (node.withFault fault) _ _ :=
      start.ends_putMany fits (List.mem_of_getElem? present) distinct
    rcases outcome : execute (TieredStore.putMany blake3 payloads)
        (node.withFault fault) with ⟨error | stored, final⟩
    · rw [outcome] at returned
      cases returned
    · rw [outcome] at returned
      cases returned
      obtain ⟨rfl, uploaded⟩ := (ends_of_ok outcome).mp ends
      rw [List.getElem?_map, present] at listed
      cases listed
      exact uploaded.readAfter_iff verified noCollision evicted

end Upload

end Tiers

/-- No other byte string has the sample digest of this one. -/
theorem eq_one_of_digest
    {bytes : Bytes}
    (same : sampleBlake3 bytes = sampleBlake3 [1]) :
    bytes = [1] := by
  by_contra different
  unfold sampleBlake3 at same
  rw [if_neg different] at same
  split at same
  · exact absurd same (by decide)
  · split at same
    · exact absurd same (by decide)
    · exact absurd same (by decide)

/-- A block whose record is damaged, and found damaged. -/
def quarantinedHistory : List UploadEvent :=
  [.call none (.put oneByte), .damage 0 0 [0],
    .call none (.verifyCold (sampleBlake3 [1]))]

/-- The block is uploaded again, acknowledged and yet not served. -/
theorem acknowledged_upload_unreadable :
    let node := StepRun.after (stepUpload sampleBlake3)
      ⟨.new 65536, (execute (openWithRoll 4096) {}).2⟩ quarantinedHistory
    (execute (TieredStore.put sampleBlake3 oneByte) node).1 =
        .ok (sampleBlake3 [1]) ∧
      (execute (TieredStore.put sampleBlake3 oneByte) node).2.readAfter
          sampleBlake3 [] (sampleBlake3 [1]) =
        .error (.corrupt (sampleBlake3 [1])) := by
  decide +kernel

/-- Damage that nobody has noticed yet is masked by the warm cache. -/
theorem upload_readable_damaged :
    let node := StepRun.after (stepUpload sampleBlake3)
      ⟨.new 65536, (execute (openWithRoll 4096) {}).2⟩
      [.call none (.put oneByte), .damage 0 0 [0]]
    (execute (TieredStore.put sampleBlake3 oneByte)
        (node.withFault none)).2.readAfter sampleBlake3 []
        (sampleBlake3 [1]) = .ok [1] := by
  refine ((upload_readable_iff sampleBlake3 4096 65536
    [.call none (.put oneByte), .damage 0 0 [0]] oneByte (by decide +kernel)
    ?_ none []).1 (sampleBlake3 [1]) (by decide +kernel)).mpr
      ⟨by decide +kernel, Or.inl List.not_mem_nil⟩
  intro bytes _ same
  exact eq_one_of_digest same

end KalpakDb
