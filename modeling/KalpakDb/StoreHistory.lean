import KalpakDb.RecordAppend
import KalpakDb.RecordCompaction
import KalpakDb.StoreRefinement

namespace KalpakDb

/-!
# Histories with damage, repairs and interrupted compactions

Payload bytes may be overwritten behind the store's back, a repair appends a
second record of a block, and a compaction may stop at any I/O step.  As long
as no append fails, each state of such a history is a store over segments of
records.
-/

open Std (ExtTreeMap)
open Contract

inductive StoreEvent where
  | putMany (fault : Option Fault) (payloads : List Payload)
  | repair (fault : Option Fault) (id : BlockId) (payload : Payload)
  | compact
      (fault : Option Fault)
      (live : BlockId → Bool)
      (order : IterationOrder)
  | damage (segment position : Nat) (bytes : Bytes)
  | reopen (rollBytes : Nat)

/-- The node after a call, with the I/O failure that lies ahead of it. -/
def Node.run
    {α : Type}
    (node : Node)
    (fault : Option Fault)
    (code : StorageM α) : Node :=
  { (execute code { node with fault := fault }).2 with fault := none }

section Hash

variable (blake3 : Bytes → BlockId)

/-- One event of a history; a reopen keeps only the disk. -/
def stepEvent (node : Node) : StoreEvent → Node
  | .putMany fault payloads => node.run fault (putMany blake3 payloads)
  | .repair fault id payload => node.run fault (repair blake3 id payload)
  | .compact fault live order => node.run fault (compact blake3 live order)
  | .damage segment position bytes => node.damage segment position bytes
  | .reopen rollBytes =>
      (execute (openWithRoll rollBytes) { disk := node.disk }).2

/-- Whether an event stores a block. -/
def StoreEvent.Stores (id : BlockId) : StoreEvent → Prop
  | .putMany _ payloads => ∃ payload ∈ payloads, blake3 payload.bytes = id
  | .repair _ target _ => target = id
  | _ => False

/-- No append of a history fails; one that does marks the store. -/
def AppendsSucceed (start : Node) (events : List StoreEvent) : Prop :=
  ∀ position ≤ events.length,
    (StepRun.before (stepEvent blake3) start events
      position).store.writeFailed = false

instance (start : Node) (events : List StoreEvent) :
    Decidable (AppendsSucceed blake3 start events) :=
  inferInstanceAs (Decidable (∀ position ≤ events.length, _))

variable {blake3}

/-! ## Every state is a store over records -/

section Step

variable {node start final : Node} {segments : List (List StoredRecord)}
  {stores : BlockId → Prop}

/-- More records, all of blocks that were stored; or an append has failed. -/
def Grown
    (stores : BlockId → Prop)
    (segments : List (List StoredRecord))
    (final : Node) : Prop :=
  final.store.writeFailed = true ∨
    ∃ after,
      final.Tracks after ∧
        ∀ record ∈ after.flatten,
          stores record.id ∨ ∃ old ∈ segments.flatten, old.id = record.id

theorem Grown.of_tracks
    (tracks : final.Tracks segments) :
    Grown stores segments final :=
  Or.inr ⟨segments, tracks, fun record member =>
    Or.inr ⟨record, member, rfl⟩⟩

/-- A call that grows the store however it ends. -/
theorem Grown.of_run
    {α : Type}
    {code : StorageM α}
    {fault : Option Fault}
    (ends :
      Ends code { node with fault := fault }
        (fun _ final => Grown stores segments final)
        (fun _ final => Grown stores segments final)) :
    Grown stores segments (node.run fault code) := by
  rcases ends.final with failed | ⟨after, tracks, records⟩
  · exact Or.inl failed
  · exact Or.inr ⟨after, tracks.withFault none, records⟩

theorem Appended.grown
    {isRepair : Bool}
    {payloads added : List Payload}
    {after : List (List StoredRecord)}
    (appended :
      Appended blake3 node segments isRepair payloads final after added)
    (listed : ∀ payload ∈ payloads, stores (blake3 payload.bytes)) :
    Grown stores segments final := by
  refine Or.inr ⟨after, appended.tracks, ?_⟩
  intro record member
  rw [appended.records, List.mem_append] at member
  rcases member with old | new
  · exact Or.inr ⟨record, old, rfl⟩
  · obtain ⟨payload, isAdded, rfl⟩ := List.mem_map.mp new
    exact Or.inl (listed payload (appended.fromBatch payload isAdded))

theorem Compacted.grown
    {live : BlockId → Bool}
    {after : List (List StoredRecord)}
    (compacted : Compacted live node segments final after) :
    Grown stores segments final :=
  Or.inr ⟨after, compacted.tracks, fun record member =>
    Or.inr ⟨record, compacted.flatten_subperm.subset member, rfl⟩⟩

/-- Damage leaves the identifiers of the records. -/
theorem SameHeaders.grown
    {others : List (List StoredRecord)}
    (same : SameHeaders segments others)
    (tracks : final.Tracks others) :
    Grown stores segments final := by
  have headers : segments.flatten.map StoredRecord.header =
      others.flatten.map StoredRecord.header := by
    rw [List.map_flatten, List.map_flatten]
    exact congrArg List.flatten same
  refine Or.inr ⟨others, tracks, ?_⟩
  intro record member
  have listed := List.mem_map_of_mem (f := StoredRecord.header) member
  rw [← headers] at listed
  obtain ⟨old, before, equal⟩ := List.mem_map.mp listed
  exact Or.inr ⟨old, before, congrArg Prod.fst equal⟩

theorem Node.Tracks.ends_repair
    (tracks : node.Tracks segments)
    (id : BlockId)
    (payload : Payload) :
    Ends (repair blake3 id payload) node
      (fun _ final => Grown (id = ·) segments final)
      (fun _ final => Grown (id = ·) segments final) := by
  refine ends_repair_of_append (.of_tracks tracks) ?_
  intro digest
  refine (tracks.ends_putManyInner [payload] true).mono ?_ ?_
  · rintro _ final ⟨-, after, added, appended⟩
    refine appended.grown ?_
    intro other member
    rw [List.mem_singleton.mp member, digest]
  · exact fun _ _ failed => Or.inl failed

/-- One event: a new record is one of a block that the event stores. -/
theorem Node.Tracks.step
    (tracks : node.Tracks segments)
    (event : StoreEvent) :
    Grown (fun id => event.Stores blake3 id) segments
      (stepEvent blake3 node event) := by
  cases event with
  | putMany fault payloads =>
      refine .of_run (((tracks.withFault fault).ends_putManyInner payloads
        false).mono ?_ ?_)
      · rintro _ final ⟨-, after, added, appended⟩
        exact appended.grown fun payload member => ⟨payload, member, rfl⟩
      · exact fun _ _ failed => Or.inl failed
  | repair fault id payload =>
      exact .of_run ((tracks.withFault fault).ends_repair id payload)
  | compact fault live order =>
      refine .of_run (((tracks.withFault fault).ends_compact live
        order).mono ?_ ?_)
      · exact fun _ final ⟨_, compacted, _⟩ => compacted.grown
      · exact fun _ final ⟨_, _, compacted⟩ => compacted.grown
  | damage segment position bytes =>
      obtain ⟨others, damaged, same⟩ := tracks.damage segment position bytes
      exact same.grown damaged
  | reopen rollBytes =>
      obtain ⟨final, opened, finalTracks, -⟩ := tracks.reopen rollBytes
      rw [stepEvent, opened]
      exact .of_tracks finalTracks

/-- A whole history: the records are old ones or those of stored blocks. -/
theorem Node.Tracks.history
    (tracks : start.Tracks segments)
    {events : List StoreEvent}
    (appended : AppendsSucceed blake3 start events) :
    ∃ after,
      (StepRun.after (stepEvent blake3) start events).Tracks after ∧
        ∀ record ∈ after.flatten,
          (∃ event ∈ events, event.Stores blake3 record.id) ∨
            ∃ old ∈ segments.flatten, old.id = record.id := by
  rw [StepRun.after_eq_before]
  refine StepRun.holds_before
    (fun state : Node =>
      ∃ after,
        state.Tracks after ∧
          ∀ record ∈ after.flatten,
            (∃ event ∈ events, event.Stores blake3 record.id) ∨
              ∃ old ∈ segments.flatten, old.id = record.id) ?_ ?_ _
  · exact ⟨segments, tracks, fun record member =>
      Or.inr ⟨record, member, rfl⟩⟩
  · rintro position event present ⟨between, reached, records⟩
    have within := (List.getElem?_eq_some_iff.mp present).1
    have accepted := appended (position + 1) within
    rw [StepRun.before_succ present] at accepted
    have grown : Grown (fun id => event.Stores blake3 id) between
        (stepEvent blake3 _ event) := reached.step event
    rcases grown with failed | ⟨after, final, grown⟩
    · rw [accepted] at failed
      cases failed
    · refine ⟨after, final, ?_⟩
      intro record member
      rcases grown record member with stored | ⟨old, oldMember, same⟩
      · exact Or.inl ⟨event, List.mem_of_getElem? present, stored⟩
      · rw [← same]
        exact records old oldMember

end Step

/-! ## Interrupted compaction -/

section Interrupted

variable {node final : Node} {segments after : List (List StoredRecord)}
  {live : BlockId → Bool} {id : BlockId} {bytes : Bytes}

/-- Blocks that are still indexed are read as before. -/
theorem Compacted.read_ok
    (compacted : Compacted live node segments final after)
    (tracks : node.Tracks segments)
    (readable : node.read blake3 id = .ok bytes)
    (indexed : id ∈ final.store.index) :
    final.read blake3 id = .ok bytes := by
  obtain ⟨-, record, found, intact⟩ := tracks.read_ok_iff.mp readable
  rw [compacted.tracks.read_ok_iff]
  exact ⟨indexed, record, (compacted.kept id indexed).2.trans found, intact⟩

theorem Compacted.withoutFault
    {fault : Option Fault}
    (compacted :
      Compacted live { node with fault := fault } segments final after) :
    Compacted live node segments { final with fault := none } after where
  tracks := compacted.tracks.withFault none
  sameLength := compacted.sameLength
  kept := compacted.kept
  alive := compacted.alive
  fromBefore := compacted.fromBefore

/-- However a compaction ends, the store is compacted that far. -/
theorem Node.Tracks.compacted_run
    (tracks : node.Tracks segments)
    (live : BlockId → Bool)
    (order : IterationOrder)
    (fault : Option Fault) :
    ∃ after,
      Compacted live node segments
        (node.run fault (compact blake3 live order)) after := by
  have ends : Ends (compact blake3 live order) { node with fault := fault }
      (fun _ final => ∃ after,
        Compacted live { node with fault := fault } segments final after)
      (fun _ final => ∃ after,
        Compacted live { node with fault := fault } segments final after) :=
    ((tracks.withFault fault).ends_compact live order).mono
      (fun _ _ ⟨after, compacted, _⟩ => ⟨after, compacted⟩)
      (fun _ _ ⟨_, compacted⟩ => compacted)
  obtain ⟨after, compacted⟩ := ends.final
  exact ⟨after, compacted.withoutFault⟩

/-- Opening the directory anew reads at least as much. -/
theorem Node.Tracks.read_reopened
    (tracks : node.Tracks segments)
    (readable : node.read blake3 id = .ok bytes)
    (rollBytes : Nat) :
    ∃ opened,
      execute (openWithRoll rollBytes) { disk := node.disk } =
          (.ok (), opened) ∧
        opened.Tracks segments ∧ opened.read blake3 id = .ok bytes := by
  obtain ⟨opened, ok, openedTracks, -, index⟩ := tracks.reopen rollBytes
  obtain ⟨-, record, found, intact⟩ := tracks.read_ok_iff.mp readable
  refine ⟨opened, ok, openedTracks,
    openedTracks.read_ok_iff.mpr ⟨?_, record, found, intact⟩⟩
  obtain ⟨entry, last, -⟩ := Option.map_eq_some_iff.mp found
  rw [ExtTreeMap.mem_iff_isSome_getElem?, index, last]
  rfl

/--
Compaction never loses a live block, whatever step of it fails: the running
store and a reopened one still read it.  A dead block is read as before or
is gone.
-/
theorem compaction_keeps_live_blocks
    (blake3 : Bytes → BlockId)
    (rollBytes : Nat)
    (events : List StoreEvent)
    (appended :
      AppendsSucceed blake3 (execute (openWithRoll rollBytes) {}).2 events)
    (readable :
      ∀ id ∈ (StepRun.after (stepEvent blake3)
          (execute (openWithRoll rollBytes) {}).2 events).store.index,
        ((StepRun.after (stepEvent blake3)
          (execute (openWithRoll rollBytes) {}).2 events).read blake3
            id).isOk = true)
    (live : BlockId → Bool)
    (order : IterationOrder)
    (fault : Option Fault)
    (reopenRollBytes : Nat) :
    let node := StepRun.after (stepEvent blake3)
      (execute (openWithRoll rollBytes) {}).2 events
    let final := node.run fault (compact blake3 live order)
    (∀ id bytes,
      live id = true →
      node.read blake3 id = .ok bytes →
        final.read blake3 id = .ok bytes ∧
          ∃ opened,
            execute (openWithRoll reopenRollBytes) { disk := final.disk } =
                (.ok (), opened) ∧
              opened.read blake3 id = .ok bytes) ∧
      ∀ id,
        live id = false →
          (∃ bytes,
            node.read blake3 id = .ok bytes ∧
              final.read blake3 id = .ok bytes) ∨
            final.read blake3 id = .error (.blockNotFound id) := by
  intro node final
  obtain ⟨segments, tracks, -⟩ :=
    (tracks_initial rollBytes).history appended
  obtain ⟨after, compacted⟩ := tracks.compacted_run live order fault
  constructor
  · intro id bytes alive readBefore
    have indexed := compacted.alive id
      (tracks.read_ok_iff.mp readBefore).1 alive
    have readAfter := compacted.read_ok tracks readBefore indexed
    obtain ⟨opened, ok, -, readOpened⟩ :=
      compacted.tracks.read_reopened readAfter reopenRollBytes
    exact ⟨readAfter, opened, ok, readOpened⟩
  · intro id dead
    by_cases indexed : id ∈ final.store.index
    · have isRead := readable id (compacted.kept id indexed).1
      cases readBefore : node.read blake3 id with
      | error failure =>
          rw [readBefore] at isRead
          cases isRead
      | ok bytes =>
          exact Or.inl ⟨bytes, rfl,
            compacted.read_ok tracks readBefore indexed⟩
    · exact Or.inr (Node.read_unindexed indexed)

end Interrupted

end Hash

/-- A repaired block and another one in a segment that is then sealed. -/
def repairedHistory : List StoreEvent :=
  [.putMany none [oneByte], .damage 0 0 [0],
    .repair none (sampleBlake3 [1]) oneByte, .putMany none [zeroByte],
    .putMany none [zeroPages]]

/-- The compaction of the repaired store stops in the middle of a copy. -/
theorem compaction_keeps_live_blocks_repaired :
    let node := StepRun.after (stepEvent sampleBlake3)
      (execute (openWithRoll 12288) {}).2 repairedHistory
    let final := node.run (some ⟨3, 100⟩)
      (compact sampleBlake3 (fun id => id ≠ sampleBlake3 [0]) .sorted)
    final.read sampleBlake3 (sampleBlake3 [1]) = .ok [1] ∧
      ∃ opened,
        execute (openWithRoll 4096) { disk := final.disk } =
            (.ok (), opened) ∧
          opened.read sampleBlake3 (sampleBlake3 [1]) = .ok [1] := by
  have facts :
      AppendsSucceed sampleBlake3 (execute (openWithRoll 12288) {}).2
          repairedHistory ∧
        (∀ id ∈ (StepRun.after (stepEvent sampleBlake3)
            (execute (openWithRoll 12288) {}).2
              repairedHistory).store.index.keys,
          ((StepRun.after (stepEvent sampleBlake3)
            (execute (openWithRoll 12288) {}).2 repairedHistory).read
              sampleBlake3 id).isOk = true) ∧
        (StepRun.after (stepEvent sampleBlake3)
            (execute (openWithRoll 12288) {}).2 repairedHistory).read
            sampleBlake3 (sampleBlake3 [1]) = .ok [1] := by
    decide +kernel
  obtain ⟨appended, readable, before⟩ := facts
  exact (compaction_keeps_live_blocks sampleBlake3 12288 repairedHistory
    appended
    (fun id indexed => readable id (ExtTreeMap.mem_keys.mpr indexed))
    (fun id => id ≠ sampleBlake3 [0]) .sorted (some ⟨3, 100⟩) 4096).1
    (sampleBlake3 [1]) [1] (by decide) before

/-! ## Dropped blocks -/

section Dropped

variable {blake3 : Bytes → BlockId} {node final : Node}
  {segments after : List (List StoredRecord)} {live : BlockId → Bool}
  {id : BlockId} {bytes : Bytes}

/-- The identifiers that a scan of a segment finds are those of its records. -/
theorem Node.Tracks.segmentRecords_eq
    (tracks : node.Tracks segments)
    (segment : Nat) :
    segmentRecords node.disk segment =
      (segments[segment]?.getD []).map StoredRecord.id := by
  cases present : segments[segment]? with
  | none =>
      have absent : node.disk.segments[segment]? = none := by
        rw [tracks.files.entries, List.getElem?_eq_none_iff,
          tracks.files.sameLength, List.length_map,
          ← List.getElem?_eq_none_iff]
        exact present
      simp [segmentRecords, absent]
  | some records =>
      obtain ⟨handle, file, named, onDisk, contents⟩ :=
        tracks.files.file_at
          (show (segments.map encodeRecords)[segment]? =
            some (encodeRecords records) by simp [present])
      have ids := congrArg (List.map StoredRecord.id)
        (map_fst_placeFrom segment 0 records)
      rw [List.map_map] at ids
      simp only [segmentRecords, tracks.files.entries, named, onDisk,
        scan_records segment contents, List.map_map, Option.getD_some]
      exact ids

theorem mem_keys_of_segmentRecords
    {disk : Disk}
    {segment : Nat}
    (found : id ∈ segmentRecords disk segment) :
    segment ∈ disk.segments.keys := by
  rw [ExtTreeMap.mem_keys, ExtTreeMap.mem_iff_isSome_getElem?]
  cases named : disk.segments[segment]? with
  | none =>
      rw [segmentRecords, named] at found
      cases found
  | some handle =>
      rfl

/-- A compaction that returns has swept the sealed segments. -/
theorem Node.Tracks.compact_returned
    (tracks : node.Tracks segments)
    {order : IterationOrder}
    {fault : Option Fault}
    (returned :
      (execute (compact blake3 live order)
        { node with fault := fault }).1.isOk = true) :
    ∃ after,
      Compacted live node segments
          (node.run fault (compact blake3 live order)) after ∧
        SweptBelow live node.store.index (segments.length - 1) segments
          after := by
  have ends : Ends (compact blake3 live order) { node with fault := fault }
      _ _ := (tracks.withFault fault).ends_compact live order
  rcases ran : execute (compact blake3 live order)
      { node with fault := fault } with ⟨error | stats, final⟩
  · rw [ran] at returned
    cases returned
  · obtain ⟨after, compacted, -, swept⟩ := (ends_of_ok ran).mp ends
    rw [Node.run, ran]
    exact ⟨after, compacted.withoutFault, swept⟩

/-- A block without a record is not indexed. -/
theorem Node.Tracks.unindexed_of_absent
    (tracks : node.Tracks segments)
    (absent : ∀ record ∈ segments.flatten, record.id ≠ id) :
    id ∉ node.store.index := by
  intro indexed
  obtain ⟨record, location, -, last⟩ := tracks.newest_of_mem indexed
  obtain ⟨placed, same⟩ := mem_of_newest last
  obtain ⟨records, present, member⟩ := record_of_placed placed
  exact absent record (List.mem_flatten.mpr
    ⟨records, List.mem_of_getElem? present, member⟩) same

/-- Any number of reopens leaves a readable block readable. -/
theorem Node.Tracks.read_reopens
    (tracks : node.Tracks segments)
    (readable : node.read blake3 id = .ok bytes)
    (rolls : List Nat) :
    (StepRun.after (stepEvent blake3) node
      (rolls.map .reopen)).read blake3 id = .ok bytes := by
  induction rolls generalizing node with
  | nil =>
      exact readable
  | cons rollBytes rest inductionHypothesis =>
      obtain ⟨opened, ok, openedTracks, openedReadable⟩ :=
        tracks.read_reopened readable rollBytes
      rw [List.map_cons, StepRun.after_cons, stepEvent, ok]
      exact inductionHypothesis openedTracks openedReadable

/-- A block that is not indexed can be read once it is stored again. -/
theorem Node.Tracks.read_stored_again
    (tracks : node.Tracks segments)
    (unindexed : id ∉ node.store.index)
    {payloads : List Payload}
    {payload : Payload}
    (member : payload ∈ payloads)
    (digest : blake3 payload.bytes = id)
    (noCollision :
      ∀ other ∈ payloads, blake3 other.bytes = id → other = payload)
    {fault : Option Fault}
    (returned :
      (execute (putMany blake3 payloads)
        { node with fault := fault }).1.isOk = true) :
    ∃ after,
      (node.run fault (putMany blake3 payloads)).Tracks after ∧
        (node.run fault (putMany blake3 payloads)).read blake3 id =
          .ok payload.bytes := by
  have ends : Ends (putMany blake3 payloads) { node with fault := fault }
      _ _ :=
    ((tracks.withFault fault).ends_putManyInner payloads false).and
      (ends_putManyInner_any payloads false)
  rcases ran : execute (putMany blake3 payloads)
      { node with fault := fault } with ⟨error | ids, final⟩
  · rw [ran] at returned
    cases returned
  · obtain ⟨⟨-, after, added, appended⟩, rfl, published⟩ :=
      (ends_of_ok ran).mp ends
    have finalTracks : (node.run fault (putMany blake3 payloads)).Tracks
        after := by
      rw [Node.run, ran]
      exact appended.tracks.withFault none
    refine ⟨after, finalTracks, ?_⟩
    have indexed : id ∈ final.store.index :=
      (published id).mpr (Or.inr (digest ▸ List.mem_map_of_mem member))
    rw [Node.run, ran]
    exact (appended.read_iff (tracks.withFault fault) indexed digest
      noCollision).mpr (Or.inl unindexed)

/-- A record that is left is found by the next process. -/
theorem Node.Tracks.read_reopened_ne
    (tracks : node.Tracks segments)
    (blake3 : Bytes → BlockId)
    {record : StoredRecord}
    (member : record ∈ segments.flatten)
    (rollBytes : Nat) :
    AppendsSucceed blake3 node [.reopen rollBytes] ∧
      (stepEvent blake3 node (.reopen rollBytes)).read blake3 record.id ≠
        .error (.blockNotFound record.id) := by
  obtain ⟨opened, ok, openedTracks, noFault, index⟩ :=
    tracks.reopen rollBytes
  have reopened : stepEvent blake3 node (.reopen rollBytes) = opened := by
    rw [stepEvent, ok]
  constructor
  · intro position within
    cases position with
    | zero =>
        rw [StepRun.before_zero]
        exact tracks.accepting
    | succ position =>
        have first : position = 0 := by
          simpa using within
        rw [first, StepRun.before_succ rfl, StepRun.before_zero, reopened]
        exact openedTracks.accepting
  · obtain ⟨⟨newer, location⟩, last⟩ := Option.isSome_iff_exists.mp
      (newest_isSome_iff.mpr ⟨record, member, rfl⟩)
    have indexed : opened.store.index[record.id]? = some location := by
      rw [index, last]
      rfl
    rw [reopened, Node.read,
      (openedTracks.withFault none).getBlock_indexed rfl indexed last]
    split <;> simp

/--
While no append fails, a block that compaction has removed stays away, and can
be stored again, if and only if every segment with a record of it is sealed
and has a dead block in the index: only such segments are rewritten.
-/
theorem dropped_stays_dropped_iff
    (blake3 : Bytes → BlockId)
    (rollBytes : Nat)
    (events : List StoreEvent)
    (appended :
      AppendsSucceed blake3 (execute (openWithRoll rollBytes) {}).2 events)
    (live : BlockId → Bool)
    (order : IterationOrder)
    (fault : Option Fault)
    (id : BlockId)
    (returned :
      (execute (compact blake3 live order)
        { StepRun.after (stepEvent blake3)
            (execute (openWithRoll rollBytes) {}).2 events with
          fault := fault }).1.isOk = true)
    (indexed :
      id ∈ (StepRun.after (stepEvent blake3)
        (execute (openWithRoll rollBytes) {}).2 events).store.index)
    (removed :
      id ∉ ((StepRun.after (stepEvent blake3)
        (execute (openWithRoll rollBytes) {}).2 events).run fault
          (compact blake3 live order)).store.index) :
    let node := StepRun.after (stepEvent blake3)
      (execute (openWithRoll rollBytes) {}).2 events
    let final := node.run fault (compact blake3 live order)
    (∀ later,
      AppendsSucceed blake3 final later →
      (∀ event ∈ later, ¬ event.Stores blake3 id) →
        let state := StepRun.after (stepEvent blake3) final later
        state.read blake3 id = .error (.blockNotFound id) ∧
          ∀ (payloads : List Payload) (payload : Payload)
            (putFault : Option Fault) (rolls : List Nat),
            payload ∈ payloads →
            blake3 payload.bytes = id →
            (∀ other ∈ payloads,
              blake3 other.bytes = id → other = payload) →
            (execute (putMany blake3 payloads)
              { state with fault := putFault }).1.isOk = true →
              (StepRun.after (stepEvent blake3)
                (state.run putFault (putMany blake3 payloads))
                (rolls.map .reopen)).read blake3 id = .ok payload.bytes) ↔
      ∀ segment,
        id ∈ segmentRecords node.disk segment →
          segment + 1 < node.store.files.length ∧
            HasDead live node.store.index segment := by
  intro node final
  obtain ⟨segments, tracks, -⟩ :=
    (tracks_initial rollBytes).history appended
  obtain ⟨after, compacted, swept⟩ := tracks.compact_returned returned
  have fileCount : node.store.files.length = segments.length := by
    rw [tracks.files.sameLength, List.length_map]
  constructor
  · intro stays segment found
    rw [tracks.segmentRecords_eq] at found
    obtain ⟨record, member, rfl⟩ := List.mem_map.mp found
    by_contra unswept
    rw [fileCount] at unswept
    have untouched := swept.untouched segment fun both =>
      unswept ⟨by omega, both.2⟩
    rw [← untouched] at member
    cases present : after[segment]? with
    | none =>
        simp [present] at member
    | some records =>
        rw [present, Option.getD_some] at member
        obtain ⟨accepted, found⟩ := compacted.tracks.read_reopened_ne blake3
          (List.mem_flatten.mpr
            ⟨records, List.mem_of_getElem? present, member⟩) rollBytes
        refine found (stays [.reopen rollBytes] accepted ?_).1
        intro event listed
        rw [List.mem_singleton.mp listed]
        exact not_false
  · intro cleared later accepted elsewhere
    have dead : live id = false := by
      rw [← Bool.not_eq_true]
      exact fun alive => removed (compacted.alive id indexed alive)
    have absent : ∀ record ∈ after.flatten, record.id ≠ id := by
      rintro record member rfl
      obtain ⟨records, listed, inRecords⟩ := List.mem_flatten.mp member
      obtain ⟨segment, present⟩ := List.mem_iff_getElem?.mp listed
      obtain ⟨before, found, subperm⟩ :=
        compacted.fromBefore segment records present
      obtain ⟨isSealed, hasDead⟩ := cleared segment (by
        rw [tracks.segmentRecords_eq, found]
        exact List.mem_map_of_mem (subperm.subset inRecords))
      have alive := swept.swept segment records present (by omega) hasDead
        record inRecords
      rw [dead] at alive
      cases alive
    obtain ⟨reached, reachedTracks, records⟩ :=
      compacted.tracks.history accepted
    have stillAbsent : ∀ record ∈ reached.flatten, record.id ≠ id := by
      rintro record member rfl
      rcases records record member with ⟨event, listed, stores⟩ |
        ⟨old, before, same⟩
      · exact elsewhere event listed stores
      · exact absent old before same
    have unindexed := reachedTracks.unindexed_of_absent stillAbsent
    refine ⟨Node.read_unindexed unindexed, ?_⟩
    intro payloads payload putFault rolls member digest noCollision stored
    obtain ⟨grown, grownTracks, readable⟩ :=
      reachedTracks.read_stored_again unindexed member digest noCollision
        stored
    exact grownTracks.read_reopens readable rolls

end Dropped

/-- A repaired block, and another one behind it. -/
def supersededHistory : List StoreEvent :=
  [.putMany none [oneByte], .damage 0 0 [0],
    .repair none (sampleBlake3 [1]) oneByte, .putMany none [zeroByte]]

/-- Both records of the block are in the segment that is rewritten. -/
theorem dropped_stays_dropped_together :
    let node := StepRun.after (stepEvent sampleBlake3)
      (execute (openWithRoll 8192) {}).2 supersededHistory
    let final := node.run none
      (compact sampleBlake3 (fun id => id ≠ sampleBlake3 [1]) .sorted)
    (StepRun.after (stepEvent sampleBlake3) final [.reopen 4096]).read
        sampleBlake3 (sampleBlake3 [1]) =
      .error (.blockNotFound (sampleBlake3 [1])) := by
  have facts :
      let node := StepRun.after (stepEvent sampleBlake3)
        (execute (openWithRoll 8192) {}).2 supersededHistory
      let final := node.run none
        (compact sampleBlake3 (fun id => id ≠ sampleBlake3 [1]) .sorted)
      AppendsSucceed sampleBlake3 (execute (openWithRoll 8192) {}).2
          supersededHistory ∧
        (execute (compact sampleBlake3 (fun id => id ≠ sampleBlake3 [1])
          .sorted) { node with fault := none }).1.isOk = true ∧
        sampleBlake3 [1] ∈ node.store.index ∧
        sampleBlake3 [1] ∉ final.store.index ∧
        node.disk.segments.keys = [0, 1] ∧
        0 + 1 < node.store.files.length ∧
        segmentOf node.store.index (sampleBlake3 [1]) = some 0 ∧
        sampleBlake3 [1] ∉ segmentRecords node.disk 1 ∧
        AppendsSucceed sampleBlake3 final [.reopen 4096] := by
    decide +kernel
  obtain ⟨appended, returned, indexed, removed, named, isSealed, first,
    second, accepted⟩ := facts
  refine ((dropped_stays_dropped_iff sampleBlake3 8192 supersededHistory
    appended (fun id => id ≠ sampleBlake3 [1]) .sorted none
    (sampleBlake3 [1]) returned indexed removed).mpr ?_ [.reopen 4096]
    accepted ?_).1
  · intro segment found
    have listed : segment ∈ [0, 1] :=
      (congrArg (segment ∈ ·) named).mp (mem_keys_of_segmentRecords found)
    rcases List.mem_pair.mp listed with rfl | rfl
    · exact ⟨isSealed, sampleBlake3 [1], first, by decide⟩
    · exact absurd found second
  · intro event listed
    rw [List.mem_singleton.mp listed]
    exact not_false

/--
With smaller segments the two records are apart.  Compaction drops the block
and rewrites the segment of its newest record only.  The next process finds
the damaged one, and storing the block again does not replace it.
-/
theorem dropped_block_resurfaces :
    let node := StepRun.after (stepEvent sampleBlake3)
      (execute (openWithRoll 4096) {}).2 supersededHistory
    let live := fun id => decide (id ≠ sampleBlake3 [1])
    let final := node.run none (compact sampleBlake3 live .sorted)
    AppendsSucceed sampleBlake3 (execute (openWithRoll 4096) {}).2
        supersededHistory ∧
      (execute (compact sampleBlake3 live .sorted) node).1.isOk = true ∧
      node.store.index.contains (sampleBlake3 [1]) = true ∧
      final.store.index.contains (sampleBlake3 [1]) = false ∧
      (stepEvent sampleBlake3 final (.reopen 4096)).read sampleBlake3
          (sampleBlake3 [1]) = .error (.corrupt (sampleBlake3 [1])) ∧
      AppendsSucceed sampleBlake3 final
          [.reopen 4096, .putMany none [oneByte]] ∧
      (StepRun.after (stepEvent sampleBlake3) final
          [.reopen 4096, .putMany none [oneByte]]).read sampleBlake3
          (sampleBlake3 [1]) = .error (.corrupt (sampleBlake3 [1])) := by
  decide +kernel

end KalpakDb
