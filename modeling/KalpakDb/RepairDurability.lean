import KalpakDb.StoreHistory

namespace KalpakDb

/-!
# Repaired blocks

A repair appends a second record of a block behind all others.  As long as no
append fails, the newest record of a block is the one the index knows, in the
running process and in every later one, so the repaired block stays readable.
An append that fails leaves bytes behind the valid records; once a shorter
record covers their beginning, the next process may take the rest for newer
records.
-/

open Std (ExtTreeMap)
open Contract

/-- The payload bytes of the record that the index points to. -/
def Node.indexedBytes (node : Node) (id : BlockId) : Option Bytes := do
  let location ← node.store.index[id]?
  let handle ← node.store.files[location.segment]?
  let file ← node.disk.objects[handle]?
  ByteFile.readAt file.bytes (location.offset + headerLen)
    location.payloadLen

/--
Whether an event leaves a block alone: it repairs other blocks, compacts while
the block is live, and damages other records.
-/
def StoreEvent.spares (id : BlockId) (node : Node) : StoreEvent → Bool
  | .repair _ target _ => target ≠ id
  | .compact _ live _ => live id
  | .damage segment position bytes =>
      (node.damage segment position bytes).indexedBytes id =
        node.indexedBytes id
  | .putMany _ _ => true
  | .reopen _ => true

section Hash

variable (blake3 : Bytes → BlockId)

/-- Every event of a history leaves a block alone. -/
def SparedThroughout
    (id : BlockId)
    (start : Node)
    (events : List StoreEvent) : Prop :=
  ∀ position ≤ events.length,
    events[position]?.all
      (StoreEvent.spares id
        (StepRun.before (stepEvent blake3) start events position)) = true

instance (id : BlockId) (start : Node) (events : List StoreEvent) :
    Decidable (SparedThroughout blake3 id start events) :=
  inferInstanceAs (Decidable (∀ position ≤ events.length, _))

variable {blake3} {node final : Node} {segments : List (List StoredRecord)}
  {id : BlockId} {bytes : Bytes}

/-! ## A repair that returns -/

/-- What is read while an I/O failure lies ahead is what is stored. -/
theorem ends_getBlock_read
    (blake3 : Bytes → BlockId)
    (node : Node)
    (id : BlockId) :
    Ends (getBlock blake3 id) node
      (fun bytes final =>
        node.read blake3 id = .ok bytes ∧ node.SameButFault final)
      (fun _ final => node.SameButFault final) := by
  have quiet : Ends (getBlock blake3 id) { node with fault := none }
      (fun bytes _ => node.read blake3 id = .ok bytes)
      (fun error _ => node.read blake3 id = .error error) := by
    rcases ran : execute (getBlock blake3 id) { node with fault := none }
      with ⟨error | bytes, last⟩
    · exact (ends_of_error ran).mpr (congrArg Prod.fst ran)
    · exact (ends_of_ok ran).mpr (congrArg Prod.fst ran)
  simp only [getBlock, ends_bind, ends_get] at quiet ⊢
  cases found : node.store.index[id]? with
  | none =>
      exact .refl node
  | some location =>
      simp only [found] at quiet ⊢
      cases named : node.store.files[location.segment]? with
      | none =>
          exact .refl node
      | some handle =>
          simp only [named] at quiet ⊢
          split
          · exact .refl node
          · rename_i allocated
            simp only [allocated, if_false, readAt, ends_bind,
              ends_ioStep_of_none, fileOf, ends_get] at quiet ⊢
            refine ends_ioStep ?_ ⟨none, rfl⟩
            intro fault
            cases onDisk : node.disk.objects[handle]? with
            | none =>
                exact ⟨fault, rfl⟩
            | some file =>
                simp only [onDisk, ends_pure] at quiet ⊢
                split
                · rename_i payload read
                  simp only [read, ends_pure] at quiet ⊢
                  split
                  · exact ⟨fault, rfl⟩
                  · rename_i verified
                    rw [if_neg verified] at quiet
                    exact ⟨quiet, fault, rfl⟩
                · exact ⟨fault, rfl⟩

/-- A repair finds the block readable, or appends a record of it. -/
theorem Node.Tracks.ends_appendAll_repair
    (tracks : node.Tracks segments)
    (payload : Payload) :
    Ends (appendAll blake3 [payload] true) node
      (fun _ final =>
        (node.SameButFault final ∧
          ∃ bytes, node.read blake3 (blake3 payload.bytes) = .ok bytes) ∨
        ∃ after,
          Appended blake3 node segments true [payload] final after [payload])
      (fun _ _ => True) := by
  obtain ⟨handle, earlier, active, last, initially⟩ :=
    tracks.laying blake3 true [payload]
  simp only [appendAll, ends_bind, ends_get, last, List.foldlM_cons,
    List.foldlM_nil, ends_pure, appendOne, isPresent, if_true, ends_observe]
  refine (ends_getBlock_read blake3 node _).mono ?_ ?_
  · rintro bytes checked ⟨readable, fault, rfl⟩
    simp only [ends_pure, Bool.true_or, if_true, flushPending,
      List.isEmpty_nil, Bool.false_eq_true, if_false, ends_modify,
      ExtTreeMap.insertMany_nil]
    exact .inl ⟨⟨fault, rfl⟩, bytes, readable⟩
  · rintro error checked ⟨fault, rfl⟩
    cases error with
    | panicked =>
        trivial
    | diverged =>
        trivial
    | _ =>
        simp only [ends_pure, Bool.false_or, List.any_nil,
          Bool.false_eq_true, if_false, ends_bind, ends_get]
        refine ((initially.withFault fault).ends_placeRecord
          (List.mem_singleton.mpr rfl)
          (fun never => absurd never.symm Bool.false_ne_true) _).imp ?_
        rintro next state ⟨_, _, _, location, laying⟩
        refine (laying.ends_publish tracks).imp ?_
        intro _ flushed publishes
        exact publishes.imp fun _ final appended => .inr appended

/-- Records of other blocks leave a block as it was. -/
theorem Appended.read_other
    {repair : Bool}
    {payloads stored : List Payload}
    {after : List (List StoredRecord)}
    (appended :
      Appended blake3 node segments repair payloads final after stored)
    (tracks : node.Tracks segments)
    (others : ∀ payload ∈ stored, blake3 payload.bytes ≠ id)
    (indexed : id ∈ final.store.index)
    (readable : node.read blake3 id = .ok bytes) :
    final.read blake3 id = .ok bytes := by
  have notAdded :
      ((stored.map (StoredRecord.of blake3)).reverse.find?
        fun record => record.id = id) = none := by
    rw [List.find?_eq_none]
    intro record member
    obtain ⟨payload, isStored, rfl⟩ :=
      List.mem_map.mp (List.mem_reverse.mp member)
    rw [decide_eq_true_eq]
    exact others payload isStored
  have last := appended.newest_eq id
  rw [notAdded, Option.none_or] at last
  obtain ⟨-, record, found, intact⟩ := tracks.read_ok_iff.mp readable
  exact appended.tracks.read_ok_iff.mpr
    ⟨indexed, record, last.trans found, intact⟩

/-- A record that was appended last is the one that is read. -/
theorem Appended.read_last
    {repair : Bool}
    {payloads : List Payload}
    {payload : Payload}
    {after : List (List StoredRecord)}
    (appended :
      Appended blake3 node segments repair payloads final after [payload])
    (indexed : blake3 payload.bytes ∈ final.store.index) :
    final.read blake3 (blake3 payload.bytes) = .ok payload.bytes := by
  have last := appended.newest_eq (blake3 payload.bytes)
  simp only [List.map_singleton, List.reverse_singleton,
    List.find?_singleton, StoredRecord.of, decide_true, if_true,
    Option.some_or] at last
  exact appended.tracks.read_ok_iff.mpr ⟨indexed, _, last, rfl, rfl⟩

/-- After a repair that returns, the block is read. -/
theorem Node.Tracks.repaired
    (tracks : node.Tracks segments)
    {payload : Payload}
    {fault : Option Fault}
    (returned :
      (execute (repair blake3 id payload)
        { node with fault := fault }).1.isOk = true)
    (noCollision :
      ∀ bytes,
        node.read blake3 id = .ok bytes →
        blake3 bytes = blake3 payload.bytes →
        bytes = payload.bytes) :
    ∃ after,
      (node.run fault (repair blake3 id payload)).Tracks after ∧
        (node.run fault (repair blake3 id payload)).read blake3 id =
          .ok payload.bytes := by
  have start := tracks.withFault fault
  by_cases digest : blake3 payload.bytes = id
  · subst digest
    have outcome : Ends (repair blake3 (blake3 payload.bytes) payload)
        { node with fault := fault }
        (fun _ final =>
          blake3 payload.bytes ∈ final.store.index →
          ∃ after,
            final.Tracks after ∧
              final.read blake3 (blake3 payload.bytes) =
                .ok payload.bytes)
        (fun _ _ => True) := by
      simp only [repair, ne_eq, not_true_eq_false, if_false, ends_bind,
        putManyInner, ends_get, tracks.accepting, Bool.false_eq_true,
        ends_onFailure, ends_pure]
      refine (start.ends_appendAll_repair payload).imp ?_
      rintro _ final (⟨⟨later, rfl⟩, bytes, readable⟩ | ⟨after, appended⟩)
        indexed
      · obtain ⟨-, record, -, -, verified⟩ := tracks.read_ok_iff.mp readable
        refine ⟨segments, tracks.withFault later, ?_⟩
        exact readable.trans
          (congrArg Except.ok (noCollision bytes readable verified))
      · exact ⟨after, appended.tracks, appended.read_last indexed⟩
    have ends := (ends_repair_any (blake3 payload.bytes) payload).and outcome
    rcases ran : execute (repair blake3 (blake3 payload.bytes) payload)
        { node with fault := fault } with ⟨error | found, final⟩
    · rw [ran] at returned
      cases returned
    · obtain ⟨⟨-, published⟩, reads⟩ := (ends_of_ok ran).mp ends
      obtain ⟨after, finalTracks, readable⟩ :=
        reads ((published _).mpr (.inr rfl))
      rw [Node.run, ran]
      exact ⟨after, finalTracks.withFault none, readable⟩
  · rw [repair, if_pos digest] at returned
    cases returned

/-! ## Later events -/

/-- A block can be read, or an append has failed. -/
def Readable
    (blake3 : Bytes → BlockId)
    (id : BlockId)
    (bytes : Bytes)
    (final : Node) : Prop :=
  final.store.writeFailed = true ∨
    ∃ after, final.Tracks after ∧ final.read blake3 id = .ok bytes

theorem Readable.of_run
    {α : Type}
    {code : StorageM α}
    {fault : Option Fault}
    (ends :
      Ends code { node with fault := fault }
        (fun _ final => Readable blake3 id bytes final)
        (fun _ final => Readable blake3 id bytes final)) :
    Readable blake3 id bytes (node.run fault code) := by
  rcases ends.final with failed | ⟨after, tracks, readable⟩
  · exact .inl failed
  · exact .inr ⟨after, tracks.withFault none, readable⟩

/-- A batch whose new records are of other blocks. -/
theorem Node.Tracks.ends_putManyInner_other
    (tracks : node.Tracks segments)
    (readable : node.read blake3 id = .ok bytes)
    (payloads : List Payload)
    (isRepair : Bool)
    (others :
      isRepair = true → ∀ payload ∈ payloads, blake3 payload.bytes ≠ id) :
    Ends (putManyInner blake3 payloads isRepair) node
      (fun _ final => Readable blake3 id bytes final)
      (fun _ final => Readable blake3 id bytes final) := by
  have indexed := (tracks.read_ok_iff.mp readable).1
  refine ((tracks.ends_putManyInner payloads isRepair).and
    (ends_putManyInner_any payloads isRepair)).mono ?_ ?_
  · rintro _ final ⟨⟨-, after, stored, appended⟩, -, published⟩
    refine .inr ⟨after, appended.tracks, ?_⟩
    refine appended.read_other tracks ?_ ((published id).mpr (.inl indexed))
      readable
    intro payload isStored
    cases isRepair with
    | false =>
        rintro rfl
        exact appended.fresh rfl payload isStored indexed
    | true =>
        exact others rfl payload (appended.fromBatch payload isStored)
  · exact fun _ _ failed => .inl failed.1

theorem Node.Tracks.ends_repair_other
    (tracks : node.Tracks segments)
    (readable : node.read blake3 id = .ok bytes)
    {target : BlockId}
    (other : target ≠ id)
    (payload : Payload) :
    Ends (repair blake3 target payload) node
      (fun _ final => Readable blake3 id bytes final)
      (fun _ final => Readable blake3 id bytes final) := by
  refine ends_repair_of_append (.inr ⟨segments, tracks, readable⟩) ?_
  intro digest
  refine tracks.ends_putManyInner_other readable [payload] true ?_
  intro _ listed member
  rw [List.mem_singleton.mp member, digest]
  exact other

/-- The payload of the newest record is where the index points to. -/
theorem Node.Tracks.indexedBytes_eq
    (tracks : node.Tracks segments)
    {location : Location}
    {record : StoredRecord}
    (indexed : node.store.index[id]? = some location)
    (found : newest (placeAll 0 segments) id = some (record, location)) :
    node.indexedBytes id = some record.payload.bytes := by
  obtain ⟨handle, file, named, onDisk, -, read⟩ :=
    tracks.readAt_placed (mem_of_newest found).1
  simp only [Node.indexedBytes, indexed, named, onDisk,
    Option.bind_eq_bind, Option.bind_some]
  exact read

/-- A store whose record of a block is the same reads the same. -/
theorem Node.Tracks.read_of_indexedBytes
    {others : List (List StoredRecord)}
    (tracks : node.Tracks segments)
    (finalTracks : final.Tracks others)
    (sameStore : final.store = node.store)
    (sameBytes : final.indexedBytes id = node.indexedBytes id)
    (readable : node.read blake3 id = .ok bytes) :
    final.read blake3 id = .ok bytes := by
  obtain ⟨indexed, record, isRecord, intact, digest⟩ :=
    tracks.read_ok_iff.mp readable
  obtain ⟨first, location, found, last⟩ := tracks.newest_of_mem indexed
  have finalIndexed : id ∈ final.store.index := sameStore ▸ indexed
  obtain ⟨second, finalLocation, finalFound, finalLast⟩ :=
    finalTracks.newest_of_mem finalIndexed
  rw [tracks.indexedBytes_eq found last,
    finalTracks.indexedBytes_eq finalFound finalLast,
    Option.some.injEq] at sameBytes
  rw [last, Option.map_some, Option.some.injEq] at isRecord
  subst isRecord
  refine finalTracks.read_ok_iff.mpr ⟨finalIndexed, second, ?_,
    sameBytes.trans intact, digest⟩
  rw [finalLast, Option.map_some]

/-- An event that leaves a block alone leaves it readable. -/
theorem Node.Tracks.step_spares
    (tracks : node.Tracks segments)
    (readable : node.read blake3 id = .ok bytes)
    {event : StoreEvent}
    (spared : event.spares id node = true) :
    Readable blake3 id bytes (stepEvent blake3 node event) := by
  cases event with
  | putMany fault payloads =>
      exact .of_run ((tracks.withFault fault).ends_putManyInner_other
        readable payloads false (fun never => absurd never Bool.false_ne_true))
  | repair fault target payload =>
      exact .of_run ((tracks.withFault fault).ends_repair_other readable
        (of_decide_eq_true spared) payload)
  | compact fault live order =>
      obtain ⟨after, compacted⟩ := tracks.compacted_run live order fault
      have indexed := compacted.alive id (tracks.read_ok_iff.mp readable).1
        spared
      exact .inr ⟨after, compacted.tracks,
        compacted.read_ok tracks readable indexed⟩
  | damage segment position damage =>
      obtain ⟨others, damaged, -⟩ := tracks.damage segment position damage
      exact .inr ⟨others, damaged, tracks.read_of_indexedBytes damaged
        (node.store_damage segment position damage)
        (of_decide_eq_true spared) readable⟩
  | reopen rollBytes =>
      obtain ⟨opened, ok, openedTracks, still⟩ :=
        tracks.read_reopened readable rollBytes
      rw [stepEvent, ok]
      exact .inr ⟨segments, openedTracks, still⟩

/-- A whole history that leaves a block alone. -/
theorem Node.Tracks.read_spared
    {start : Node}
    (tracks : start.Tracks segments)
    (readable : start.read blake3 id = .ok bytes)
    {events : List StoreEvent}
    (appended : AppendsSucceed blake3 start events)
    (spared : SparedThroughout blake3 id start events) :
    (StepRun.after (stepEvent blake3) start events).read blake3 id =
      .ok bytes := by
  rw [StepRun.after_eq_before]
  refine (StepRun.holds_before
    (fun state : Node =>
      ∃ after, state.Tracks after ∧ state.read blake3 id = .ok bytes)
    ⟨segments, tracks, readable⟩ ?_ _).choose_spec.2
  rintro position event present ⟨between, reached, stillReadable⟩
  have within := (List.getElem?_eq_some_iff.mp present).1
  have accepted := appended (position + 1) within
  rw [StepRun.before_succ present] at accepted
  have alone := spared position within.le
  rw [present, Option.all_some] at alone
  rcases reached.step_spares stillReadable alone with failed | kept
  · rw [accepted] at failed
    cases failed
  · exact kept

/--
Where no append fails, a repair that returns makes its block readable, and it
stays readable while it is left alone.  A repair with other bytes is refused
and changes nothing.
-/
theorem repair_durable
    (blake3 : Bytes → BlockId) :
    (∀ (rollBytes : Nat) (events : List StoreEvent) (id : BlockId)
        (payload : Payload) (fault : Option Fault),
      AppendsSucceed blake3 (execute (openWithRoll rollBytes) {}).2 events →
      let node := StepRun.after (stepEvent blake3)
        (execute (openWithRoll rollBytes) {}).2 events
      (execute (repair blake3 id payload)
        { node with fault := fault }).1.isOk = true →
      (∀ bytes,
        node.read blake3 id = .ok bytes →
        blake3 bytes = blake3 payload.bytes →
        bytes = payload.bytes) →
      let repaired := node.run fault (repair blake3 id payload)
      ∀ later,
        AppendsSucceed blake3 repaired later →
        SparedThroughout blake3 id repaired later →
        (StepRun.after (stepEvent blake3) repaired later).read blake3 id =
          .ok payload.bytes) ∧
    ∀ (node : Node) (id : BlockId) (payload : Payload),
      blake3 payload.bytes ≠ id →
      execute (repair blake3 id payload) node =
        (.error (.corrupt id), node) := by
  constructor
  · intro rollBytes events id payload fault appended node returned
      noCollision repaired later accepted spared
    obtain ⟨segments, tracks, -⟩ :=
      (tracks_initial rollBytes).history appended
    obtain ⟨after, repairedTracks, readable⟩ :=
      tracks.repaired returned noCollision
    exact repairedTracks.read_spared readable accepted spared
  · intro node id payload different
    rw [repair, if_pos different]
    rfl

end Hash

/-! ## Sample histories -/

/-- A block is stored, and its record is damaged. -/
def damagedHistory : List StoreEvent :=
  [.putMany none [oneByte], .damage 0 0 [0]]

/-- The repaired block stays through a roll, a compaction and a reopen. -/
theorem repair_durable_compacted :
    let node := StepRun.after (stepEvent sampleBlake3)
      (execute (openWithRoll 8192) {}).2 damagedHistory
    let repaired := node.run none
      (repair sampleBlake3 (sampleBlake3 [1]) oneByte)
    node.read sampleBlake3 (sampleBlake3 [1]) =
        .error (.corrupt (sampleBlake3 [1])) ∧
      (StepRun.after (stepEvent sampleBlake3) repaired
        [.damage 0 0 [7], .putMany none [zeroByte],
          .compact none (fun id => id ≠ sampleBlake3 [0]) .sorted,
          .reopen 4096]).read sampleBlake3 (sampleBlake3 [1]) =
        .ok [1] := by
  have facts :
      let node := StepRun.after (stepEvent sampleBlake3)
        (execute (openWithRoll 8192) {}).2 damagedHistory
      let repaired := node.run none
        (repair sampleBlake3 (sampleBlake3 [1]) oneByte)
      let later : List StoreEvent :=
        [.damage 0 0 [7], .putMany none [zeroByte],
          .compact none (fun id => id ≠ sampleBlake3 [0]) .sorted,
          .reopen 4096]
      AppendsSucceed sampleBlake3 (execute (openWithRoll 8192) {}).2
          damagedHistory ∧
        (execute (repair sampleBlake3 (sampleBlake3 [1]) oneByte)
          { node with fault := none }).1.isOk = true ∧
        node.read sampleBlake3 (sampleBlake3 [1]) =
          .error (.corrupt (sampleBlake3 [1])) ∧
        AppendsSucceed sampleBlake3 repaired later ∧
        SparedThroughout sampleBlake3 (sampleBlake3 [1]) repaired later := by
    decide +kernel
  obtain ⟨appended, returned, corrupt, accepted, spared⟩ := facts
  refine ⟨corrupt, (repair_durable sampleBlake3).1 8192 damagedHistory
    (sampleBlake3 [1]) oneByte none appended returned ?_ _ accepted spared⟩
  intro bytes readable
  rw [corrupt] at readable
  cases readable

/-- A payload whose second page looks like a record of the byte one. -/
def disguisedPayload : Payload :=
  ⟨List.replicate 4032 0 ++ encodeRecord (sampleBlake3 [1]) [0] ++ [0],
    by decide +kernel⟩

/-- BLAKE3 on that payload, told by its length, and on the sample payloads. -/
def disguisedBlake3 (bytes : Bytes) : BlockId :=
  if bytes.length = 8129 then
    ⟨[99, 94, 208, 29, 2, 249, 243, 226, 118, 91, 249, 136, 69, 220, 78, 91,
      166, 2, 81, 253, 167, 251, 216, 98, 254, 187, 236, 23, 77, 119, 162,
      251], by decide⟩
  else
    sampleBlake3 bytes

/--
Two pages of an upload reach the disk before it fails.  The next upload covers
the first of them, and the process after that takes the second one for the
newest record of the repaired block.
-/
theorem torn_upload_undoes_repair :
    let node := StepRun.after (stepEvent disguisedBlake3)
      (execute (openWithRoll 8192) {}).2 damagedHistory
    let repaired := node.run none
      (repair disguisedBlake3 (disguisedBlake3 [1]) oneByte)
    let later : List StoreEvent :=
      [.putMany (some ⟨1, 8192⟩) [disguisedPayload], .reopen 8192,
        .putMany none [zeroByte], .reopen 8192]
    (execute (repair disguisedBlake3 (disguisedBlake3 [1]) oneByte)
        { node with fault := none }).1.isOk = true ∧
      repaired.read disguisedBlake3 (disguisedBlake3 [1]) = .ok [1] ∧
      SparedThroughout disguisedBlake3 (disguisedBlake3 [1]) repaired later ∧
      (StepRun.after (stepEvent disguisedBlake3) repaired later).read
          disguisedBlake3 (disguisedBlake3 [1]) =
        .error (.corrupt (disguisedBlake3 [1])) := by
  decide +kernel

end KalpakDb
