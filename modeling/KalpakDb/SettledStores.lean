import KalpakDb.DirectReads
import KalpakDb.FileFrames
import KalpakDb.StoreHistory

namespace KalpakDb

/-!
# Stores whose tail is behind their records

A batch goes to the offset at which the scan of the last segment ended.  A
header whose length wraps around can lead the scan back in front of records
that it has reported.  A directory is settled if this does not happen in its
last segment; as long as only such directories are opened, every batch goes
behind everything that is indexed, whatever else happens to the files.
-/

open Std (ExtTreeMap)
open Contract

/-! ## Settled directories -/

/-- A scan ends behind the records that it reports. -/
def settledScan : Option (List (BlockId × Location) × Nat) → Bool
  | none => true
  | some (located, tail) =>
      located.all fun entry =>
        entry.2.payloadLen ≥ 2 ^ 63 ||
          entry.2.offset + headerLen + entry.2.payloadLen ≤ tail

/-- The scan of the last segment ends behind what it reports. -/
def Disk.settled (disk : Disk) : Bool :=
  disk.segments.keys.getLast?.all fun segment =>
    settledScan (scan segment (disk.content segment))

/-- A process that opens a directory. -/
def Disk.opened (disk : Disk) (rollBytes : Nat) : Node :=
  (execute (openWithRoll rollBytes) { disk := disk }).2

/-- A directory that is opened again is settled. -/
def StoreEvent.settles (node : Node) : StoreEvent → Bool
  | .reopen _ => node.disk.settled
  | _ => true

/-- Every directory that a history opens is settled. -/
def OpensSettled
    (blake3 : Bytes → BlockId)
    (disk : Disk)
    (rollBytes : Nat)
    (events : List StoreEvent) : Prop :=
  disk.settled = true ∧
    ∀ position < events.length,
      events[position]?.all (fun event =>
        event.settles (StepRun.before (stepEvent blake3)
          (disk.opened rollBytes) events position)) = true

instance
    (blake3 : Bytes → BlockId)
    (disk : Disk)
    (rollBytes : Nat)
    (events : List StoreEvent) :
    Decidable (OpensSettled blake3 disk rollBytes events) :=
  inferInstanceAs (Decidable (_ ∧ ∀ position < events.length, _))

/-! ## Opening -/

section Open

variable {node : Node} {handles : List Nat} {contents : List Bytes}
  {recovered : Recovered}

/-- Any scan ends in the file, and its records are those of the segment. -/
theorem scanFrom_any
    {segment fuel offset tail : Nat}
    {bytes : Bytes}
    {located : List (BlockId × Location)}
    (scanned : scanFrom segment bytes fuel offset = some (located, tail))
    (inside : offset ≤ bytes.length) :
    tail ≤ bytes.length ∧ ∀ entry ∈ located, entry.2.segment = segment := by
  induction fuel generalizing offset located with
  | zero =>
      cases scanned
  | succ fuel inductionHypothesis =>
      rw [scanFrom] at scanned
      cases step : scanStep bytes offset with
      | none =>
          rw [step] at scanned
          cases scanned
          exact ⟨inside, fun _ member => absurd member List.not_mem_nil⟩
      | some found =>
          obtain ⟨record, next⟩ := found
          rw [step] at scanned
          obtain ⟨⟨later, last⟩, rest, same⟩ :=
            Option.map_eq_some_iff.mp scanned
          cases same
          have nextInside : next ≤ bytes.length := by
            unfold scanStep at step
            split at step
            · split at step
              · cases step
              · dsimp only at step
                split at step
                · cases step
                · rename_i within
                  cases step
                  exact not_lt.mp within
            · cases step
          obtain ⟨bound, segments⟩ := inductionHypothesis rest nextInside
          exact ⟨bound, List.forall_mem_cons.mpr ⟨rfl, segments⟩⟩

/-- What the scans of the first segments have collected. -/
structure Scanned
    (handles : List Nat)
    (contents : List Bytes)
    (count : Nat)
    (recovered : Recovered) : Prop where
  files : recovered.files = handles.take count
  indexed :
    ∀ (id : BlockId) (location : Location),
      recovered.index[id]? = some location →
        location.segment < count ∧
          ∃ bytes located tail,
            contents[location.segment]? = some bytes ∧
              scan location.segment bytes = some (located, tail) ∧
              (id, location) ∈ located
  tail :
    0 < count →
      ∃ bytes located,
        contents[count - 1]? = some bytes ∧
          scan (count - 1) bytes = some (located, recovered.tail)

/-- One more segment is scanned, unless its scan never ends. -/
theorem Scanned.ends_recoverSegment
    {count : Nat}
    (scanned : Scanned handles contents count recovered)
    (files : node.disk.Files handles contents)
    (noFault : node.fault = none)
    (within : count < contents.length) :
    Ends (recoverSegment recovered count) node
      (fun next final =>
        Scanned handles contents (count + 1) next ∧ final = node)
      (fun _ final => final = node) := by
  have present := List.getElem?_eq_getElem within
  obtain ⟨handle, file, named, found, same⟩ := files.file_at present
  have entry := files.entries count
  rw [named] at entry
  simp only [recoverSegment, openSegment, ends_bind,
    ends_ioStep_of_none noFault, ends_get, entry, ends_pure,
    ends_fileOf found]
  cases scan : scan count file.bytes with
  | none =>
      rfl
  | some result =>
      obtain ⟨located, tail⟩ := result
      have segments := (scanFrom_any scan (Nat.zero_le _)).2
      refine ⟨?_, rfl⟩
      refine {
        files := ?_
        indexed := ?_
        tail := ?_ }
      · rw [List.take_add_one, named, scanned.files]
        rfl
      · intro id location indexed
        simp only [FiniteMap.getElem?_insertMany_last] at indexed
        rcases Option.or_eq_some_iff.mp indexed with isNew | ⟨-, old⟩
        · obtain ⟨⟨found, place⟩, isLast, rfl⟩ :=
            Option.map_eq_some_iff.mp isNew
          have member := List.mem_reverse.mp
            (List.mem_of_find?_eq_some isLast)
          have sameId : found = id := by
            simpa using List.find?_some isLast
          rw [segments _ member, ← sameId]
          exact ⟨Nat.lt_succ_self count, _, located, tail, present,
            same ▸ scan, member⟩
        · obtain ⟨before, bytes⟩ := scanned.indexed id location old
          exact ⟨Nat.lt_succ_of_lt before, bytes⟩
      · intro _
        exact ⟨_, located, present, same ▸ scan⟩

/-- Opening a directory that has segments. -/
theorem Scanned.placed
    (scanned : Scanned handles contents contents.length recovered)
    (files : node.disk.Files handles contents)
    (nonempty : contents ≠ [])
    {store : BlockStore}
    (table : store.files = recovered.files)
    (tail : store.tail = recovered.tail)
    (fault : Option Fault) :
    ({ disk := node.disk, store := store, fault := fault } :
      Node).Placed := by
  have allFiles : store.files = handles := by
    rw [table, scanned.files, ← files.sameLength, List.take_length]
  obtain ⟨bytes, located, present, scan⟩ :=
    scanned.tail (List.length_pos_of_ne_nil nonempty)
  obtain ⟨handle, file, named, found, same⟩ := files.file_at present
  have inside := (scanFrom_any scan (Nat.zero_le _)).1
  refine {
    regular := ⟨contents, by rw [allFiles]; exact files⟩
    tail_le := ?_ }
  intro other otherFile last onDisk
  dsimp only at last onDisk ⊢
  rw [List.getLast?_eq_getElem?, allFiles, files.sameLength, named]
    at last
  cases last
  rw [found] at onDisk
  cases onDisk
  rw [tail, same]
  exact inside

/-- Opening a settled directory that has segments. -/
theorem Scanned.anchored
    (scanned : Scanned handles contents contents.length recovered)
    (files : node.disk.Files handles contents)
    (nonempty : contents ≠ [])
    (settled : node.disk.settled = true)
    {store : BlockStore}
    (index : store.index = recovered.index)
    (table : store.files = recovered.files)
    (tail : store.tail = recovered.tail)
    (fault : Option Fault) :
    ({ disk := node.disk, store := store, fault := fault } :
      Node).Anchored := by
  have allFiles : store.files = handles := by
    rw [table, scanned.files, ← files.sameLength, List.take_length]
  have length : store.files.length = contents.length := by
    rw [allFiles, files.sameLength]
  obtain ⟨bytes, located, present, scan⟩ :=
    scanned.tail (List.length_pos_of_ne_nil nonempty)
  obtain ⟨handle, file, named, found, same⟩ := files.file_at present
  refine {
    scanned.placed files nonempty table tail fault with indexed := ?_ }
  intro id location indexed
  dsimp only at indexed ⊢
  rw [index] at indexed
  obtain ⟨within, other, otherLocated, stop, otherPresent, otherScan,
    member⟩ := scanned.indexed id location indexed
  refine ⟨by omega, ?_⟩
  intro small isLast
  have position : location.segment = contents.length - 1 := by omega
  rw [position] at otherPresent otherScan
  rw [present] at otherPresent
  cases otherPresent
  rw [scan] at otherScan
  cases otherScan
  have lastKey : node.disk.segments.keys.getLast? =
      some (contents.length - 1) := by
    rw [files.keys_segments, List.getLast?_range]
    simp [nonempty]
  have content : node.disk.content (contents.length - 1) = bytes := by
    rw [Disk.content, files.entries, named]
    simp only [found, same]
  rw [Disk.settled, lastKey, Option.all_some, content, scan] at settled
  have below := List.all_eq_true.mp settled _ member
  rw [tail]
  simp only [Bool.or_eq_true, decide_eq_true_eq] at below
  omega

/-- A new segment in an empty directory. -/
theorem Node.Regular.opened_empty
    (regular : node.Regular)
    (tail : node.store.tail = 0)
    (unindexed : ∀ id : BlockId, node.store.index[id]? = none) :
    node.Placed ∧ node.Anchored := by
  have placed : node.Placed := {
    regular := regular
    tail_le := fun _ _ _ _ => tail ▸ Nat.zero_le _ }
  refine ⟨placed, { placed with indexed := ?_ }⟩
  intro id location found
  rw [unindexed id] at found
  cases found

/-- Opening any directory: if it fails, there is no store. -/
theorem Disk.Files.ends_openWith
    (files : node.disk.Files handles contents)
    (noFault : node.fault = none) :
    Ends openWith node
      (fun _ final =>
        final.Placed ∧ (node.disk.settled = true → final.Anchored) ∧
          (handles ≠ [] → final.disk = node.disk))
      (fun _ final => final = node) := by
  unfold openWith
  simp only [ends_bind, ends_get, files.keys_segments]
  refine (ends_foldlM_range
    (fun count recovered final =>
      Scanned handles contents count recovered ∧ final = node) ?_ ?_).imp ?_
  · rintro count recovered state within ⟨scanned, rfl⟩
    exact scanned.ends_recoverSegment files noFault within
  · refine ⟨?_, rfl⟩
    exact {
      files := rfl
      indexed := by simp
      tail := fun positive => absurd positive (Nat.lt_irrefl 0) }
  · rintro recovered final ⟨scanned, rfl⟩
    split
    · rename_i empty
      have none : handles = [] := by
        have taken := List.isEmpty_iff.mp empty
        rwa [scanned.files, ← files.sameLength, List.take_length] at taken
      have nothing : contents = [] := by
        rw [← List.length_eq_zero_iff, ← files.sameLength, none]
        rfl
      have unindexed (id : BlockId) : recovered.index[id]? = .none := by
        cases found : recovered.index[id]? with
        | none => rfl
        | some location =>
            have within := (scanned.indexed id location found).1
            rw [nothing] at within
            exact absurd within (Nat.not_lt_zero _)
      subst none
      subst nothing
      have absent : final.disk.segments[0]? = .none := by
        rw [files.entries]
        rfl
      simp only [openSegment, createFile, syncDir, ends_bind,
        ends_ioStep_of_none noFault, ends_get, absent, ends_modify,
        ends_pure]
      rw [ends_ioStep_of_none (by exact noFault)]
      have opened {state : Node} (regular : state.Regular)
          (tail : state.store.tail = 0)
          (index : state.store.index = recovered.index) :=
        regular.opened_empty tail fun id => index ▸ unindexed id
      refine ⟨?_, ?_, fun nonempty => absurd rfl nonempty⟩
      · exact (opened ⟨[[]], files.push⟩ rfl rfl).1
      · exact fun _ => (opened ⟨[[]], files.push⟩ rfl rfl).2
    · rename_i present
      have nonempty : contents ≠ [] := by
        rintro rfl
        apply present
        rw [scanned.files]
        rfl
      exact ⟨scanned.placed files nonempty rfl rfl _, fun settled =>
        scanned.anchored files nonempty settled rfl rfl rfl _, fun _ => rfl⟩

/--
A store that is open, or a directory that could not be opened.  The records
of an open store are in front of its tail if the directory was settled.
-/
structure Node.Sound (settled : Prop) (node : Node) : Prop where
  directory : ∃ handles contents, node.disk.Files handles contents
  opened :
    node.store.files = [] ∨
      node.Regular ∧
        (node.store.writeFailed = false →
          node.Placed ∧ (settled → node.Anchored))

variable {settled : Prop}

theorem Node.Placed.sound
    (placed : node.Placed)
    (anchored : settled → node.Anchored) :
    node.Sound settled where
  directory := ⟨_, placed.regular⟩
  opened := Or.inr ⟨placed.regular, fun _ => ⟨placed, anchored⟩⟩

theorem Node.Sound.withFault
    (sound : node.Sound settled)
    (fault : Option Fault) :
    ({ node with fault := fault } : Node).Sound settled :=
  ⟨sound.directory, sound.opened.imp_right fun ⟨regular, kept⟩ =>
    ⟨regular, fun accepting => ⟨(kept accepting).1.withFault fault,
      fun before => ((kept accepting).2 before).withFault fault⟩⟩⟩

/-- A new process on a directory. -/
theorem Disk.Files.opened
    {disk : Disk}
    (files : disk.Files handles contents)
    (isSettled : settled → disk.settled = true)
    (rollBytes : Nat) :
    (disk.opened rollBytes).Sound settled := by
  have ends : Ends (openWithRoll rollBytes) { disk := disk }
      (fun _ final => final.Sound settled)
      (fun _ final => final.Sound settled) := by
    rw [openWithRoll, ends_bind]
    have start : ({ disk := disk } : Node).disk.Files handles contents :=
      files
    refine (start.ends_openWith rfl).mono ?_ ?_
    · rintro - final ⟨placed, anchored, -⟩
      refine Node.Placed.sound ?_ ?_
      · exact {
          regular := placed.regular
          tail_le := placed.tail_le }
      · intro before
        have kept := anchored (isSettled before)
        exact {
          regular := kept.regular
          tail_le := kept.tail_le
          indexed := kept.indexed }
    · rintro error final rfl
      exact ⟨⟨handles, contents, files⟩, Or.inl rfl⟩
  exact ends.final

/-- Opening a directory that has segments leaves the disk as it is. -/
theorem Disk.Files.opened_disk
    {disk : Disk}
    (files : disk.Files handles contents)
    (nonempty : handles ≠ [])
    (rollBytes : Nat) :
    (disk.opened rollBytes).disk = disk := by
  have ends : Ends (openWithRoll rollBytes) { disk := disk }
      (fun _ final => final.disk = disk)
      (fun _ final => final.disk = disk) := by
    rw [openWithRoll, ends_bind]
    have start : ({ disk := disk } : Node).disk.Files handles contents :=
      files
    refine (start.ends_openWith rfl).mono ?_ ?_
    · rintro - final ⟨-, -, same⟩
      exact same nonempty
    · rintro error final rfl
      rfl
  exact ends.final

end Open

/-! ## Histories -/

section Step

variable {blake3 : Bytes → BlockId} {node : Node} {settled : Prop}

/-- Damage overwrites a file of the directory and shortens none. -/
theorem Node.damage_cases
    (node : Node)
    (segment position : Nat)
    (bytes : Bytes) :
    node.damage segment position bytes = node ∨
      ∃ (handle : Nat) (file next : SegmentFile),
        node.disk.segments[segment]? = some handle ∧
        node.disk.objects[handle]? = some file ∧
        file.bytes.length ≤ next.bytes.length ∧
        node.damage segment position bytes = node.setFile handle next := by
  unfold Node.damage
  cases damaged : node.damaged? segment position bytes with
  | none =>
      exact Or.inl rfl
  | some final =>
      simp only [Node.damaged?, Option.bind_eq_bind,
        Option.bind_eq_some_iff] at damaged
      obtain ⟨handle, entry, file, onDisk, found, -, located, -, written⟩ :=
        damaged
      split at written
      · obtain ⟨next, nextFile, same⟩ := Option.bind_eq_some_iff.mp written
        cases same
        refine Or.inr ⟨handle, file, next, entry, onDisk, ?_, rfl⟩
        rw [writePrefix?_bytes nextFile]
        exact ByteFile.length_le_writePrefix
      · cases written

theorem Node.Sound.damage
    (sound : node.Sound settled)
    (segment position : Nat)
    (bytes : Bytes) :
    (node.damage segment position bytes).Sound settled := by
  rcases node.damage_cases segment position bytes with
    same | ⟨handle, file, next, entry, onDisk, longer, changed⟩
  · rw [same]
    exact sound
  · rw [changed]
    obtain ⟨⟨handles, contents, files⟩, opened⟩ := sound
    have named : handles[segment]? = some handle := by
      rw [← files.entries]
      exact entry
    have within := (List.getElem?_eq_some_iff.mp onDisk).1
    refine ⟨⟨handles, _, files.overwrite named next⟩, ?_⟩
    rcases opened with closed | ⟨regular, anchored⟩
    · exact Or.inl closed
    · obtain ⟨tableContents, table⟩ := regular
      have inTable : node.store.files[segment]? = some handle := by
        rw [← table.entries]
        exact entry
      have stillRegular : (node.setFile handle next).Regular :=
        ⟨_, table.overwrite inTable next⟩
      refine Or.inr ⟨stillRegular, fun accepting => ?_⟩
      obtain ⟨before, anchoredBefore⟩ := anchored accepting
      have placed : (node.setFile handle next).Placed := by
        refine {
          regular := stillRegular
          tail_le := ?_ }
        intro other otherFile last found
        by_cases same : handle = other
        · subst same
          simp only [Node.setFile, List.getElem?_set_self within] at found
          cases found
          exact (before.tail_le handle file last onDisk).trans longer
        · simp only [Node.setFile, List.getElem?_set_ne same] at found
          exact before.tail_le other otherFile last found
      exact ⟨placed, fun isSettled =>
        { placed with indexed := (anchoredBefore isSettled).indexed }⟩

/-- A call on an open store, whatever I/O fails. -/
theorem Node.Sound.of_run
    {α : Type}
    {code : StorageM α}
    {fault : Option Fault}
    (ends :
      Ends code { node with fault := fault }
        (fun _ final => final.Sound settled) (fun _ final => final.Sound settled)) :
    (node.run fault code).Sound settled :=
  ends.final.withFault none

theorem Node.Sound.ends_putManyInner
    (sound : node.Sound settled)
    (payloads : List Payload)
    (isRepair : Bool) :
    Ends (putManyInner blake3 payloads isRepair) node
      (fun _ final => final.Sound settled) (fun _ final => final.Sound settled) := by
  by_cases refused : node.store.writeFailed = true
  · simp only [putManyInner, ends_bind, ends_get, refused, if_true,
      ends_throw]
    exact sound
  · have accepting : node.store.writeFailed = false := by simpa using refused
    rcases sound.opened with closed | ⟨-, anchored⟩
    · simp only [putManyInner, appendAll, ends_bind, ends_get, accepting,
        Bool.false_eq_true, if_false, ends_onFailure, closed,
        List.getLast?_nil, ends_throw]
      exact ⟨sound.directory, Or.inl rfl⟩
    · obtain ⟨placed, before⟩ := anchored accepting
      refine (placed.ends_putManyInner payloads isRepair).mono ?_ ?_
      · rintro ids final ⟨-, kept, stillAnchored, -⟩
        exact kept.sound fun isSettled => stillAnchored (before isSettled)
      · rintro error final ⟨-, regular, failed⟩
        refine ⟨⟨_, regular⟩, Or.inr ⟨regular, fun accepts => ?_⟩⟩
        rw [failed] at accepts
        cases accepts

theorem Node.Sound.ends_compact
    (sound : node.Sound settled)
    (live : BlockId → Bool)
    (order : IterationOrder) :
    Ends (compact blake3 live order) node
      (fun _ final => final.Sound settled) (fun _ final => final.Sound settled) := by
  rcases sound.opened with closed | ⟨regular, anchored⟩
  · simp only [compact, ends_bind, ends_get, closed, List.length_nil,
      Nat.zero_sub, List.range_zero, List.foldlM_nil, ends_pure]
    exact sound
  · have compacted (final : Node) (rewrote : Rewrote node final) :
        final.Sound settled := by
      refine ⟨⟨_, rewrote.regular⟩, Or.inr ⟨rewrote.regular, ?_⟩⟩
      intro accepting
      rw [rewrote.accepting] at accepting
      obtain ⟨placed, before⟩ := anchored accepting
      exact ⟨rewrote.placed placed, fun isSettled =>
        rewrote.anchored (before isSettled)⟩
    exact (regular.ends_compact live order).mono
      (fun _ final => compacted final) (fun _ final => compacted final)

/-- One event, if a directory that it opens is settled. -/
theorem Node.Sound.step
    (sound : node.Sound settled)
    (event : StoreEvent)
    (settles : settled → event.settles node = true) :
    (stepEvent blake3 node event).Sound settled := by
  cases event with
  | putMany fault payloads =>
      exact .of_run ((sound.withFault fault).ends_putManyInner payloads false)
  | repair fault id payload =>
      have faulty := sound.withFault fault
      exact .of_run (ends_repair_of_append faulty fun _ =>
        faulty.ends_putManyInner [payload] true)
  | compact fault live order =>
      exact .of_run ((sound.withFault fault).ends_compact live order)
  | damage segment position bytes =>
      exact sound.damage segment position bytes
  | reopen rollBytes =>
      obtain ⟨handles, contents, files⟩ := sound.directory
      exact files.opened settles rollBytes

/-- Every state of any history. -/
theorem Disk.Files.sound
    {disk : Disk}
    {handles : List Nat}
    {contents : List Bytes}
    (files : disk.Files handles contents)
    (rollBytes : Nat)
    (events : List StoreEvent)
    (position : Nat) :
    (StepRun.before (stepEvent blake3) (disk.opened rollBytes) events
      position).Sound False := by
  refine StepRun.holds_before (Node.Sound False)
    (files.opened False.elim rollBytes) ?_ position
  intro position event present reached
  exact reached.step event False.elim

/-- Every state of a history whose directories are settled. -/
theorem OpensSettled.sound
    {disk : Disk}
    {handles : List Nat}
    {contents : List Bytes}
    (files : disk.Files handles contents)
    {rollBytes : Nat}
    {events : List StoreEvent}
    (isSettled : OpensSettled blake3 disk rollBytes events)
    (position : Nat) :
    (StepRun.before (stepEvent blake3) (disk.opened rollBytes) events
      position).Sound True := by
  refine StepRun.holds_before (Node.Sound True)
    (files.opened (fun _ => isSettled.1) rollBytes) ?_ position
  intro position event present reached
  refine reached.step event fun _ => ?_
  have here := isSettled.2 position (List.getElem?_eq_some_iff.mp present).1
  rwa [present, Option.all_some] at here

end Step

end KalpakDb
