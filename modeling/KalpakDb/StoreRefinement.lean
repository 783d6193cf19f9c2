import KalpakDb.Compaction
import KalpakDb.CrashDurability

namespace KalpakDb

/-!
# The block store as a finite map

Seen from outside, the store is a map from content addresses to payloads.
Storing adds payloads, compaction removes the dead blocks of the sealed
segments, and reading and reopening change nothing.  The store and the map
run side by side; the records on disk tie them together.
-/

open Std (ExtTreeMap)
open Contract

/-! ## Operations and replies -/

inductive StoreOp where
  | put (payload : Payload)
  | putMany (payloads : List Payload)
  | get (id : BlockId)
  | compact (live : BlockId → Bool) (order : IterationOrder)
  | reopen (rollBytes : Nat)

/-- The payloads an operation stores. -/
def StoreOp.payloads : StoreOp → List Payload
  | .put payload => [payload]
  | .putMany payloads => payloads
  | _ => []

inductive StoreReply where
  | id (id : BlockId)
  | ids (ids : List BlockId)
  | payload (bytes : Bytes)
  | compacted (stats : CompactStats)
  | opened
  | failed (failure : Failure)
  deriving DecidableEq

/-- How the result of a call is reported. -/
def StoreReply.ofResult
    {α : Type}
    (wrap : α → StoreReply) : Except Failure α → StoreReply
  | .ok value => wrap value
  | .error failure => .failed failure

/-- The abstract store: payload bytes by content address. -/
abbrev BlockMap := ExtTreeMap BlockId Bytes

/-- The store and the map it stands for. -/
structure StoreState where
  node : Node
  map : BlockMap := ∅

/-- Whether a block is located in a segment other than the last one. -/
def Node.isSealed (node : Node) (id : BlockId) : Bool :=
  match node.store.index[id]? with
  | none => false
  | some location => location.segment + 1 < node.store.files.length

/-- The identifiers that a scan of one segment of the directory finds. -/
def segmentRecords (disk : Disk) (segment : Nat) : List BlockId :=
  match disk.segments[segment]? with
  | none => []
  | some handle =>
      match disk.objects[handle]? with
      | none => []
      | some file =>
          match scan segment file.bytes with
          | none => []
          | some (located, _) => located.map Prod.fst

/-- The identifiers of all records on disk, segment by segment. -/
def recordsOnDisk (disk : Disk) : List BlockId :=
  disk.segments.keys.flatMap (segmentRecords disk)

/-- The store that is opened in an empty directory, and the empty map. -/
def initialStore (rollBytes : Nat) : StoreState where
  node := (execute (openWithRoll rollBytes) {}).2

section Hash

variable (blake3 : Bytes → BlockId)

/-- What the map holds after a payload was stored. -/
def BlockMap.add (map : BlockMap) (payload : Payload) : BlockMap :=
  map.insert (blake3 payload.bytes) payload.bytes

/-- The map after an operation. -/
def specStep (node : Node) (map : BlockMap) : StoreOp → BlockMap
  | .put payload => map.add blake3 payload
  | .putMany payloads => payloads.foldl (BlockMap.add blake3) map
  | .get _ => map
  | .compact live _ => map.filter fun id _ => live id || !node.isSealed id
  | .reopen _ => map

/-- What reading a block from the map yields. -/
def specGet (map : BlockMap) (id : BlockId) : Except Failure Bytes :=
  match map[id]? with
  | some bytes => .ok bytes
  | none => .error (.blockNotFound id)

/-- The reply the map calls for. -/
def Answers (map : BlockMap) : StoreOp → StoreReply → Prop
  | .put payload, reply => reply = .id (blake3 payload.bytes)
  | .putMany payloads, reply =>
      reply = .ids (payloads.map fun payload => blake3 payload.bytes)
  | .get id, reply => reply = .ofResult .payload (specGet map id)
  | .compact _ _, reply => ∃ stats, reply = .compacted stats
  | .reopen _, reply => reply = .opened

/-- Run a call and report its result. -/
def report
    {α : Type}
    (wrap : α → StoreReply)
    (code : StorageM α)
    (node : Node) : StoreReply × Node :=
  (.ofResult wrap (execute code node).1, (execute code node).2)

/-- One operation of the store; a reopen keeps only the disk. -/
def perform (node : Node) : StoreOp → StoreReply × Node
  | .put payload => report .id (put blake3 payload) node
  | .putMany payloads => report .ids (putMany blake3 payloads) node
  | .get id => report .payload (getBlock blake3 id) node
  | .compact live order => report .compacted (compact blake3 live order) node
  | .reopen rollBytes =>
      report (fun _ => .opened) (openWithRoll rollBytes) { disk := node.disk }

def replyStore (state : StoreState) (op : StoreOp) : StoreReply :=
  (perform blake3 state.node op).1

/-- Both sides take the operation; no I/O failure lies ahead of the next. -/
def stepStore (state : StoreState) (op : StoreOp) : StoreState where
  node := { (perform blake3 state.node op).2 with fault := none }
  map := specStep blake3 state.node state.map op

/-- The map holds exactly the given payloads under their digests. -/
def Maps (map : BlockMap) (payloads : List Payload) : Prop :=
  ∀ id bytes,
    map[id]? = some bytes ↔
      ∃ payload ∈ payloads, blake3 payload.bytes = id ∧ payload.bytes = bytes

/-- The store serves the payloads that the map holds. -/
structure StoreState.Refines
    (involved : List Payload)
    (state : StoreState)
    (images : List SegmentImage) : Prop where
  serves : state.node.Serves blake3 images
  noFault : state.node.fault = none
  tight : ∀ image ∈ images, image.residue = []
  known : ∀ payload ∈ storedPayloads images, payload ∈ involved
  mapped : Maps blake3 state.map (storedPayloads images)

variable {blake3}

/-! ## The map -/

section Map

variable {map : BlockMap} {stored : List Payload}

theorem Maps.congr
    {others : List Payload}
    (maps : Maps blake3 map stored)
    (same : ∀ payload, payload ∈ others ↔ payload ∈ stored) :
    Maps blake3 map others := by
  intro id bytes
  simp only [maps id bytes, same]

theorem Maps.add
    (maps : Maps blake3 map stored)
    {payload : Payload}
    (noCollision :
      ∀ other ∈ stored,
        blake3 other.bytes = blake3 payload.bytes → other = payload) :
    Maps blake3 (map.add blake3 payload) (payload :: stored) := by
  intro id bytes
  rw [BlockMap.add, ExtTreeMap.getElem?_insert]
  split
  · rename_i equal
    have same := Std.LawfulEqOrd.eq_of_compare equal
    constructor
    · rintro ⟨⟩
      exact ⟨payload, by simp, same, rfl⟩
    · rintro ⟨other, member, digest, rfl⟩
      rcases List.mem_cons.mp member with rfl | old
      · rfl
      · rw [noCollision other old (digest.trans same.symm)]
  · rename_i different
    rw [maps id bytes]
    constructor
    · rintro ⟨other, member, rest⟩
      exact ⟨other, List.mem_cons_of_mem _ member, rest⟩
    · rintro ⟨other, member, digest, rest⟩
      rcases List.mem_cons.mp member with rfl | old
      · exact absurd (digest ▸ Std.ReflOrd.compare_self) different
      · exact ⟨other, old, digest, rest⟩

/-- Storing a batch adds all its payloads. -/
theorem Maps.addAll
    (maps : Maps blake3 map stored)
    {payloads involved : List Payload}
    (noCollision :
      ∀ first ∈ involved, ∀ second ∈ involved,
        blake3 first.bytes = blake3 second.bytes → first = second)
    (known : ∀ payload ∈ stored, payload ∈ involved)
    (listed : ∀ payload ∈ payloads, payload ∈ involved) :
    Maps blake3 (payloads.foldl (BlockMap.add blake3) map)
      (payloads.reverse ++ stored) := by
  induction payloads generalizing map stored with
  | nil =>
      exact maps
  | cons payload rest inductionHypothesis =>
      have here := listed payload (by simp)
      have added := maps.add fun other member =>
        noCollision other (known other member) payload here
      rw [List.foldl_cons, List.reverse_cons, List.append_assoc]
      refine inductionHypothesis added ?_ ?_
      · intro other member
        rcases List.mem_cons.mp member with rfl | old
        · exact here
        · exact known other old
      · exact fun other member => listed other (by simp [member])

/-- Removing the addresses that fail a test. -/
theorem Maps.filter
    (maps : Maps blake3 map stored)
    {keep : BlockId → Bool}
    {kept : List Payload}
    (survivors :
      ∀ payload,
        payload ∈ kept ↔
          payload ∈ stored ∧ keep (blake3 payload.bytes) = true) :
    Maps blake3 (map.filter fun id _ => keep id) kept := by
  intro id bytes
  rw [ExtTreeMap.getElem?_filter', Option.filter_eq_some_iff, maps id bytes]
  constructor
  · rintro ⟨⟨payload, member, rfl, rest⟩, passed⟩
    exact ⟨payload, (survivors payload).mpr ⟨member, passed⟩, rfl, rest⟩
  · rintro ⟨payload, member, rfl, rest⟩
    obtain ⟨old, passed⟩ := (survivors payload).mp member
    exact ⟨⟨payload, old, rfl, rest⟩, passed⟩

theorem Maps.mem_iff
    (maps : Maps blake3 map stored)
    {id : BlockId} :
    id ∈ map ↔ id ∈ stored.map fun payload => blake3 payload.bytes := by
  rw [ExtTreeMap.mem_iff_isSome_getElem?, Option.isSome_iff_exists,
    List.mem_map]
  constructor
  · rintro ⟨bytes, found⟩
    obtain ⟨payload, member, digest, -⟩ := (maps id bytes).mp found
    exact ⟨payload, member, digest⟩
  · rintro ⟨payload, member, digest⟩
    exact ⟨payload.bytes, (maps id _).mpr ⟨payload, member, digest, rfl⟩⟩

end Map

/-! ## What the store and its disk show -/

section Observe

variable {node : Node} {images : List SegmentImage}

/-- Walking over positions is walking over the items. -/
theorem flatMap_range_eq
    {α β : Type}
    {items : List α}
    {atPosition : Nat → List β}
    {ofItem : α → List β}
    (agree :
      ∀ position item, items[position]? = some item →
        atPosition position = ofItem item) :
    (List.range items.length).flatMap atPosition = items.flatMap ofItem := by
  induction items using List.reverseRecOn with
  | nil =>
      rfl
  | append_singleton front last inductionHypothesis =>
      have earlier := inductionHypothesis fun position item present => by
        refine agree position item ?_
        rw [List.getElem?_append_left
          (List.getElem?_eq_some_iff.mp present).1]
        exact present
      have final := agree front.length last (by simp)
      rw [List.length_append, List.length_singleton, List.range_succ,
        List.flatMap_append, List.flatMap_append, earlier]
      simp [final]

/-- The records on disk are those of the images. -/
theorem Node.Serves.recordsOnDisk_eq
    (serves : node.Serves blake3 images) :
    recordsOnDisk node.disk =
      (storedPayloads images).map fun payload => blake3 payload.bytes := by
  rw [recordsOnDisk, serves.holds.keys_segments, storedPayloads,
    List.map_flatMap]
  apply flatMap_range_eq
  intro position image present
  obtain ⟨handle, file, named, found, contents⟩ :=
    serves.holds.file_at present
  simp only [segmentRecords, serves.holds.entries, named, found,
    serves.holds.scan_file present contents, map_fst_locateFrom]

/-- A record in a segment other than the last one is sealed. -/
theorem Node.Serves.isSealed_eq
    (serves : node.Serves blake3 images)
    {position : Nat}
    {payload : Payload}
    (member : payload ∈ recordsAt images position) :
    node.isSealed (blake3 payload.bytes) =
      decide (position + 1 < images.length) := by
  cases present : images[position]? with
  | none =>
      simp [recordsAt, present] at member
  | some image =>
      rw [recordsAt, present, Option.map_some, Option.getD_some] at member
      have listed :
          blake3 payload.bytes ∈
            (locateFrom blake3 position 0 image.records).map Prod.fst := by
        rw [map_fst_locateFrom]
        exact List.mem_map_of_mem member
      obtain ⟨⟨id, location⟩, located, rfl⟩ := List.mem_map.mp listed
      obtain ⟨place, inSegment⟩ := (mem_locateFrom_iff present).mp located
      have indexed := (serves.located _ location).mpr place
      simp only [Node.isSealed, indexed, inSegment, serves.holds.sameLength]

variable {involved : List Payload} {state : StoreState}

/-- Reading agrees with the map. -/
theorem StoreState.Refines.getBlock_eq
    (refines : state.Refines blake3 involved images)
    (id : BlockId) :
    execute (getBlock blake3 id) state.node =
      (specGet state.map id, state.node) := by
  cases found : state.map[id]? with
  | none =>
      have absent :
          id ∉ (storedPayloads images).map fun payload =>
            blake3 payload.bytes := by
        rw [← refines.mapped.mem_iff, ExtTreeMap.mem_iff_isSome_getElem?,
          found]
        simp
      rw [specGet, found]
      exact refines.serves.getBlock_absent absent
  | some bytes =>
      obtain ⟨payload, member, rfl, rfl⟩ :=
        (refines.mapped id bytes).mp found
      rw [specGet, found]
      exact refines.serves.getBlock_stored refines.noFault member

/-- Every address of the map has one record on disk; no other has any. -/
theorem StoreState.Refines.count_recordsOnDisk
    (refines : state.Refines blake3 involved images)
    (id : BlockId) :
    (recordsOnDisk state.node.disk).count id =
      if id ∈ state.map then 1 else 0 := by
  rw [refines.serves.recordsOnDisk_eq]
  split
  · rename_i present
    exact List.count_eq_one_of_mem refines.serves.distinct
      (refines.mapped.mem_iff.mp present)
  · rename_i absent
    exact List.count_eq_zero_of_not_mem fun member =>
      absent (refines.mapped.mem_iff.mpr member)

end Observe

/-! ## One operation -/

section Step

variable {state : StoreState} {images : List SegmentImage}
  {involved : List Payload} {node : Node}

/-- A call that only fails on I/O returns when no I/O fails. -/
theorem report_of_ends
    {α : Type}
    {wrap : α → StoreReply}
    {code : StorageM α}
    {returned : α → Node → Prop}
    (ends : Ends code node returned fun error _ => error = .io .failed)
    (noFailure : (report wrap code node).1 ≠ .failed (.io .failed)) :
    ∃ value final,
      report wrap code node = (wrap value, final) ∧
        returned value final := by
  unfold report at noFailure ⊢
  rcases outcome : execute code node with ⟨error | value, final⟩
  · rw [outcome, (ends_of_error outcome).mp ends] at noFailure
    exact absurd rfl noFailure
  · exact ⟨value, final, rfl, (ends_of_ok outcome).mp ends⟩

/-- A batch behind records without residue leaves a readable segment. -/
theorem settles_of_tight
    (tight : ∀ image ∈ images, image.residue = [])
    (payloads : List Payload) :
    Settles node images payloads blake3 := by
  intro earlier image shape _ absorbed bounded
  have clean : image.residue = [] := tight image (by simp [shape])
  exact SegmentImage.stops_absorb_of_noResidue blake3 image _ _ clean bounded

theorem StoreState.Refines.ends_putMany
    (refines : state.Refines blake3 involved images)
    (noCollision :
      ∀ first ∈ involved, ∀ second ∈ involved,
        blake3 first.bytes = blake3 second.bytes → first = second)
    {payloads : List Payload}
    (listed : ∀ payload ∈ payloads, payload ∈ involved) :
    Ends (putMany blake3 payloads) state.node
      (fun ids final =>
        ids = payloads.map (fun payload => blake3 payload.bytes) ∧
        ∃ after,
          StoreState.Refines blake3 involved
            { node := { final with fault := none }
              map := payloads.foldl (BlockMap.add blake3) state.map }
            after)
      (fun error _ => error = .io .failed) := by
  refine (KalpakDb.ends_putMany refines.serves
    (settles_of_tight refines.tight payloads)).mono ?_ ?_
  · rintro ids final ⟨same, after, serves, stored, -, -, tight⟩
    have known : ∀ payload ∈ storedPayloads after, payload ∈ involved := by
      intro payload member
      rw [stored, List.mem_append] at member
      rcases member with old | new
      · exact refines.known payload old
      · exact listed payload (mem_freshPayloads new).1
    refine ⟨same, after, {
      serves := serves.withFault none
      noFault := rfl
      tight := tight refines.tight
      known := known
      mapped := ?_ }⟩
    refine (refines.mapped.addAll noCollision refines.known listed).congr ?_
    intro payload
    rw [List.mem_append, List.mem_reverse]
    constructor
    · intro member
      rw [stored, List.mem_append] at member
      rcases member with old | new
      · exact Or.inr old
      · exact Or.inl (mem_freshPayloads new).1
    · rintro (new | old)
      · obtain ⟨found, foundMember, digest⟩ :=
          refines.serves.stored_of_batch stored new
        rw [← noCollision found (known found foundMember) payload
          (listed payload new) digest]
        exact foundMember
      · rw [stored]
        exact List.mem_append_left _ old
  · rintro error final ⟨⟨failed, -⟩, -⟩
    exact failed

theorem StoreState.Refines.ends_put
    (refines : state.Refines blake3 involved images)
    (noCollision :
      ∀ first ∈ involved, ∀ second ∈ involved,
        blake3 first.bytes = blake3 second.bytes → first = second)
    {payload : Payload}
    (listed : payload ∈ involved) :
    Ends (put blake3 payload) state.node
      (fun id final =>
        id = blake3 payload.bytes ∧
        ∃ after,
          StoreState.Refines blake3 involved
            { node := { final with fault := none }
              map := state.map.add blake3 payload }
            after)
      (fun error _ => error = .io .failed) := by
  rw [put, ends_bind]
  refine (refines.ends_putMany noCollision
    (show ∀ other ∈ [payload], other ∈ involved by simpa using listed)).imp ?_
  rintro _ final ⟨rfl, stored⟩
  exact ⟨rfl, stored⟩

theorem StoreState.Refines.ends_compact
    (refines : state.Refines blake3 involved images)
    (live : BlockId → Bool)
    (order : IterationOrder) :
    Ends (compact blake3 live order) state.node
      (fun _ final =>
        ∃ after,
          StoreState.Refines blake3 involved
            { node := { final with fault := none }
              map := state.map.filter fun id _ =>
                live id || !state.node.isSealed id }
            after)
      (fun error _ => error = .io .failed) := by
  refine (KalpakDb.ends_compact refines.serves refines.tight live
    order).imp ?_
  rintro stats final ⟨after, serves, tight, records⟩
  have survivors (payload : Payload) :
      payload ∈ storedPayloads after ↔
        payload ∈ storedPayloads images ∧
          (live (blake3 payload.bytes) ||
            !state.node.isSealed (blake3 payload.bytes)) = true := by
    rw [mem_storedPayloads, mem_storedPayloads]
    constructor
    · rintro ⟨position, member⟩
      obtain ⟨old, alive⟩ := (records position payload).mp member
      refine ⟨⟨position, old⟩, ?_⟩
      rw [refines.serves.isSealed_eq old]
      by_cases isSealed : position + 1 < images.length
      · simp [alive isSealed]
      · simp [isSealed]
    · rintro ⟨⟨position, old⟩, passed⟩
      refine ⟨position, (records position payload).mpr ⟨old, ?_⟩⟩
      intro isSealed
      rw [refines.serves.isSealed_eq old] at passed
      simpa [isSealed] using passed
  exact ⟨after, {
    serves := serves.withFault none
    noFault := rfl
    tight := tight
    known := fun payload member =>
      refines.known payload ((survivors payload).mp member).1
    mapped := refines.mapped.filter survivors }⟩

/-- The roll size has no part in what a store serves. -/
theorem Node.Serves.withRoll
    (serves : node.Serves blake3 images)
    (rollBytes : Nat) :
    ({ node with store := { node.store with rollBytes := rollBytes } } :
      Node).Serves blake3 images where
  nonempty := serves.nonempty
  holds := serves.holds
  located := serves.located
  distinct := serves.distinct
  tail := serves.tail
  accepting := serves.accepting

/-- Reopening finds the same records again. -/
theorem StoreState.Refines.reopen
    (refines : state.Refines blake3 involved images)
    (rollBytes : Nat) :
    ∃ final,
      execute (openWithRoll rollBytes) { disk := state.node.disk } =
        (.ok (), final) ∧
      StoreState.Refines blake3 involved
        { node := { final with fault := none }
          map := state.map }
        images := by
  have holds : ({ disk := state.node.disk } : Node).disk.Holds blake3
      state.node.store.files images := refines.serves.holds
  obtain ⟨final, ok, serves, -, -, -⟩ :=
    openWith_serves holds rfl refines.serves.nonempty refines.serves.distinct
  exact ⟨_, execute_openWithRoll ok rollBytes, {
    serves := (serves.withRoll rollBytes).withFault none
    noFault := rfl
    tight := refines.tight
    known := refines.known
    mapped := refines.mapped }⟩

/-- The reply is the one the map calls for, and both sides stay together. -/
theorem StoreState.Refines.step
    (refines : state.Refines blake3 involved images)
    (noCollision :
      ∀ first ∈ involved, ∀ second ∈ involved,
        blake3 first.bytes = blake3 second.bytes → first = second)
    {op : StoreOp}
    (listed : ∀ payload ∈ op.payloads, payload ∈ involved)
    (noFailure : replyStore blake3 state op ≠ .failed (.io .failed)) :
    Answers blake3 state.map op (replyStore blake3 state op) ∧
      ∃ after, (stepStore blake3 state op).Refines blake3 involved after := by
  cases op with
  | put payload =>
      have here : payload ∈ involved := listed payload (by
        simp [StoreOp.payloads])
      obtain ⟨_, final, ended, rfl, next⟩ :=
        report_of_ends (refines.ends_put noCollision here) noFailure
      simp only [replyStore, stepStore, perform, ended]
      exact ⟨rfl, next⟩
  | putMany payloads =>
      have here : ∀ payload ∈ payloads, payload ∈ involved := listed
      obtain ⟨_, final, ended, rfl, next⟩ :=
        report_of_ends (refines.ends_putMany noCollision here) noFailure
      simp only [replyStore, stepStore, perform, ended]
      exact ⟨rfl, next⟩
  | get id =>
      simp only [replyStore, stepStore, perform, report,
        refines.getBlock_eq id]
      refine ⟨rfl, images, ?_⟩
      exact {
        serves := refines.serves.withFault none
        noFault := rfl
        tight := refines.tight
        known := refines.known
        mapped := refines.mapped }
  | compact live order =>
      obtain ⟨stats, final, ended, next⟩ :=
        report_of_ends (refines.ends_compact live order) noFailure
      simp only [replyStore, stepStore, perform, ended]
      exact ⟨⟨stats, rfl⟩, next⟩
  | reopen rollBytes =>
      obtain ⟨final, ok, next⟩ := refines.reopen rollBytes
      simp only [replyStore, stepStore, perform, report, ok]
      exact ⟨rfl, images, next⟩

end Step

/-! ## Whole runs -/

theorem initialStore_refines
    (blake3 : Bytes → BlockId)
    (involved : List Payload)
    (rollBytes : Nat) :
    (initialStore rollBytes).Refines blake3 involved
      [{ records := [], residue := [] }] := by
  obtain ⟨final, ok, serves, -, noFault, -⟩ := openWith_empty blake3
  have opened : (initialStore rollBytes).node = { final with
      store := { final.store with rollBytes := rollBytes } } :=
    congrArg Prod.snd (execute_openWithRoll ok rollBytes)
  exact {
    serves := by rw [opened]; exact serves.withRoll rollBytes
    noFault := by rw [opened]; exact noFault
    tight := by simp
    known := by simp [storedPayloads]
    mapped := by simp [Maps, initialStore, storedPayloads] }

/-- Store and map stay together at every position of a run. -/
theorem refines_before
    {rollBytes : Nat}
    {ops : List StoreOp}
    {involved : List Payload}
    (noCollision :
      ∀ first ∈ involved, ∀ second ∈ involved,
        blake3 first.bytes = blake3 second.bytes → first = second)
    (listed : ∀ payload ∈ ops.flatMap StoreOp.payloads, payload ∈ involved)
    (noFailure :
      ∀ reply ∈ StepRun.outputs (stepStore blake3) (replyStore blake3)
          (initialStore rollBytes) ops,
        reply ≠ .failed (.io .failed))
    (position : Nat) :
    let state := StepRun.before (stepStore blake3)
      (initialStore rollBytes) ops position
    (∃ images, state.Refines blake3 involved images) ∧
    ∀ op, ops[position]? = some op →
      Answers blake3 state.map op (replyStore blake3 state op) := by
  have step
      {position : Nat}
      {images : List SegmentImage}
      (refines :
        (StepRun.before (stepStore blake3) (initialStore rollBytes) ops
          position).Refines blake3 involved images)
      {op : StoreOp}
      (present : ops[position]? = some op) :=
    refines.step noCollision
      (fun payload member => listed payload
        (List.mem_flatMap.mpr ⟨op, List.mem_of_getElem? present, member⟩))
      (noFailure _ (StepRun.mem_outputs present))
  have together :
      ∃ images,
        (StepRun.before (stepStore blake3) (initialStore rollBytes) ops
          position).Refines blake3 involved images := by
    refine StepRun.holds_before
      (fun state : StoreState =>
        ∃ images, state.Refines blake3 involved images)
      ⟨_, initialStore_refines blake3 involved rollBytes⟩ ?_ position
    rintro position op present ⟨images, refines⟩
    exact (step refines present).2
  obtain ⟨images, refines⟩ := together
  exact ⟨⟨images, refines⟩, fun op present => (step refines present).1⟩

/--
The block store refines a finite map.  Over every sequence of operations on a
store opened in an empty directory with any roll size, in which no I/O fails
and no two stored payloads collide: at every position the reply is the one
the map calls for, reading any block agrees with the map, and each address of
the map, and no other, has exactly one record on disk.
-/
theorem block_store_refines_map
    (blake3 : Bytes → BlockId)
    (rollBytes : Nat)
    (ops : List StoreOp)
    (noCollision :
      ∀ first ∈ ops.flatMap StoreOp.payloads,
        ∀ second ∈ ops.flatMap StoreOp.payloads,
          blake3 first.bytes = blake3 second.bytes → first = second)
    (noFailure :
      ∀ reply ∈ StepRun.outputs (stepStore blake3) (replyStore blake3)
          (initialStore rollBytes) ops,
        reply ≠ .failed (.io .failed)) :
    ∀ position,
      let state := StepRun.before (stepStore blake3)
        (initialStore rollBytes) ops position
      (∀ op, ops[position]? = some op →
        Answers blake3 state.map op (replyStore blake3 state op)) ∧
      (∀ id,
        execute (getBlock blake3 id) state.node =
          (specGet state.map id, state.node)) ∧
      ∀ id,
        (recordsOnDisk state.node.disk).count id =
          if id ∈ state.map then 1 else 0 := by
  intro position state
  obtain ⟨⟨images, refines⟩, answers⟩ :=
    refines_before noCollision (fun _ member => member) noFailure position
  exact ⟨answers, refines.getBlock_eq, refines.count_recordsOnDisk⟩

end Hash

/-! ## A sample run -/

def zeroByte : Payload := ⟨[0], by decide⟩

/-- Entries in the order of their identifiers. -/
def IterationOrder.sorted : IterationOrder where
  arrange := id
  arrange_perm := fun entries => List.Perm.refl entries

/-- Two blocks in two segments; the first one dies and is compacted away. -/
def compactedRun : List StoreOp :=
  [.put oneByte, .putMany [zeroByte, oneByte, zeroByte],
    .compact (fun id => id ≠ sampleBlake3 [1]) .sorted,
    .get (sampleBlake3 [1]), .reopen 4096, .get (sampleBlake3 [0]),
    .put oneByte]

theorem block_store_refines_map_compacted :
    let state := StepRun.before (stepStore sampleBlake3)
      (initialStore 4096) compactedRun 6
    (∀ op, compactedRun[6]? = some op →
      Answers sampleBlake3 state.map op
        (replyStore sampleBlake3 state op)) ∧
    (∀ id,
      execute (getBlock sampleBlake3 id) state.node =
        (specGet state.map id, state.node)) ∧
    ∀ id,
      (recordsOnDisk state.node.disk).count id =
        if id ∈ state.map then 1 else 0 :=
  block_store_refines_map sampleBlake3 4096 compactedRun
    (by decide +kernel) (by decide +kernel) 6

end KalpakDb
