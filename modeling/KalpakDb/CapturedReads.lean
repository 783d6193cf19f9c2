import KalpakDb.FailedAppends

namespace KalpakDb

/-!
# Captured read locations

A reader takes the location of a block and the handle of its file while it
holds the index, and reads the payload after it has let the index go.  In
between other calls append, start segments and replace files.  A call changes
no file but the active one and those of its own rewrites, and the active one
only behind the tail, so what was captured stays valid.
-/

open Std (ExtTreeMap)
open Contract

/-- The calls of a process, whichever of their I/O steps fails. -/
def StoreEvent.isCall : StoreEvent → Bool
  | .putMany _ _ => true
  | .repair _ _ _ => true
  | .compact _ _ _ => true
  | _ => false

/-! ## What a call does to a file -/

/-- No rewrite in progress writes to the file. -/
def Disk.Apart (disk : Disk) (handle : Nat) : Prop :=
  ∀ segment : Nat, disk.temporaries[segment]? ≠ some handle

/--
What any call leaves of an open store: every file but the active one, and
the front of that one up to the tail.
-/
structure Carried (settled : Prop) (start final : Node) : Prop where
  sound : final.Sound settled
  isOpen : final.store.files ≠ []
  marked :
    start.store.writeFailed = true → final.store.writeFailed = true
  objects :
    ∀ (handle : Nat) (file : SegmentFile),
      start.disk.Apart handle →
      start.disk.objects[handle]? = some file →
        ∃ later : SegmentFile,
          final.disk.objects[handle]? = some later ∧
          final.disk.Apart handle ∧
          (start.store.writeFailed = true ∨
            start.store.files.getLast? ≠ some handle → later = file) ∧
          later.bytes.take start.store.tail =
            file.bytes.take start.store.tail ∧
          file.bytes.length ≤ later.bytes.length
  active :
    (final.store.files.getLast? = start.store.files.getLast? ∧
      start.store.tail ≤ final.store.tail) ∨
      ∃ handle,
        final.store.files.getLast? = some handle ∧
          start.disk.objects.length ≤ handle

section Calls

variable {blake3 : Bytes → BlockId} {node final : Node} {settled : Prop}

theorem Carried.refl
    (sound : node.Sound settled)
    (isOpen : node.store.files ≠ []) :
    Carried settled node node where
  sound := sound
  isOpen := isOpen
  marked := id
  objects := fun _ file apart found =>
    ⟨file, found, apart, fun _ => rfl, rfl, Nat.le_refl _⟩
  active := Or.inl ⟨rfl, Nat.le_refl _⟩

/-- Nothing of this depends on a failure that lies ahead. -/
theorem Carried.withFault
    {ahead : Option Fault}
    (carried : Carried settled { node with fault := ahead } final)
    (fault : Option Fault) :
    Carried settled node { final with fault := fault } where
  sound := carried.sound.withFault fault
  isOpen := carried.isOpen
  marked := carried.marked
  objects := carried.objects
  active := carried.active

/-- A batch carries what it keeps. -/
theorem Kept.carried
    (kept : Kept node final)
    (accepting : node.store.writeFailed = false)
    (isOpen : node.store.files ≠ [])
    (sound : final.Sound settled) :
    Carried settled node final where
  sound := sound
  isOpen := fun closed => isOpen (List.prefix_nil.mp (closed ▸ kept.files))
  marked := fun marked => by rw [accepting] at marked; cases marked
  objects := by
    intro handle file apart found
    obtain ⟨later, present, same, front, longer⟩ :=
      kept.objects handle file found
    refine ⟨later, present, ?_, ?_, front, longer⟩
    · unfold Disk.Apart
      rw [kept.temporaries]
      exact apart
    · rintro (marked | notActive)
      · rw [accepting] at marked
        cases marked
      · exact same notActive
  active := kept.active.imp_left fun ⟨files, tail⟩ => ⟨by rw [files], tail⟩

/-- A compaction carries every file that it does not write. -/
theorem Rewrote.carried
    (rewrote : Rewrote node final)
    (isOpen : node.store.files ≠ [])
    (sound : final.Sound settled) :
    Carried settled node final where
  sound := sound
  isOpen := by
    rw [← List.length_pos_iff, rewrote.length, List.length_pos_iff]
    exact isOpen
  marked := fun marked => by rw [rewrote.accepting]; exact marked
  objects := by
    intro handle file apart found
    obtain ⟨same, stillApart⟩ := rewrote.objects handle file apart found
    exact ⟨file, same, stillApart, fun _ => rfl, rfl, Nat.le_refl _⟩
  active := Or.inl ⟨rewrote.active, rewrote.tail.ge⟩

/-- A batch, whatever I/O fails. -/
theorem Node.Sound.ends_putManyInner_carried
    (sound : node.Sound settled)
    (isOpen : node.store.files ≠ [])
    (payloads : List Payload)
    (isRepair : Bool) :
    Ends (putManyInner blake3 payloads isRepair) node
      (fun _ final => Carried settled node final)
      (fun _ final => Carried settled node final) := by
  by_cases marked : node.store.writeFailed = true
  · rw [ends_of_error
      (AppendCall.execute_putManyInner_of_marked blake3 marked payloads
        isRepair)]
    exact .refl sound isOpen
  · have accepting : node.store.writeFailed = false := by simpa using marked
    obtain ⟨-, anchored⟩ := sound.opened.resolve_left isOpen
    refine (((anchored accepting).1.ends_putManyInner payloads isRepair).and
      (sound.ends_putManyInner payloads isRepair)).mono ?_ ?_
    · rintro _ final ⟨⟨kept, -⟩, finalSound⟩
      exact kept.carried accepting isOpen finalSound
    · rintro _ final ⟨⟨kept, -⟩, finalSound⟩
      exact kept.carried accepting isOpen finalSound

/-- A compaction, whatever I/O fails. -/
theorem Node.Sound.ends_compact_carried
    (sound : node.Sound settled)
    (isOpen : node.store.files ≠ [])
    (live : BlockId → Bool)
    (order : IterationOrder) :
    Ends (compact blake3 live order) node
      (fun _ final => Carried settled node final)
      (fun _ final => Carried settled node final) := by
  obtain ⟨regular, -⟩ := sound.opened.resolve_left isOpen
  refine ((regular.ends_compact live order).and
    (sound.ends_compact live order)).mono ?_ ?_
  · rintro _ final ⟨rewrote, finalSound⟩
    exact rewrote.carried isOpen finalSound
  · rintro _ final ⟨rewrote, finalSound⟩
    exact rewrote.carried isOpen finalSound

/-- One call of an open store. -/
theorem Node.Sound.carried
    (sound : node.Sound settled)
    (isOpen : node.store.files ≠ [])
    {event : StoreEvent}
    (call : event.isCall = true) :
    Carried settled node (stepEvent blake3 node event) := by
  cases event with
  | putMany fault payloads =>
      exact ((sound.withFault fault).ends_putManyInner_carried isOpen
        payloads false).final.withFault none
  | repair fault id payload =>
      have faulty := sound.withFault fault
      have ends : Ends (repair blake3 id payload) _
          (fun _ final => Carried settled { node with fault := fault } final)
          (fun _ final => Carried settled { node with fault := fault } final) :=
        ends_repair_of_append (.refl faulty isOpen) fun _ =>
          faulty.ends_putManyInner_carried isOpen [payload] true
      exact ends.final.withFault none
  | compact fault live order =>
      exact ((sound.withFault fault).ends_compact_carried isOpen live
        order).final.withFault none
  | damage segment position bytes =>
      cases call
  | reopen rollBytes =>
      cases call

end Calls

/-! ## Captured payloads -/

/-- A payload that a reader has captured is behind its handle. -/
structure Guarded
    (settled : Prop)
    (handle offset count : Nat)
    (payload : Bytes)
    (node : Node) : Prop where
  sound : node.Sound settled
  isOpen : node.store.files ≠ []
  apart : node.disk.Apart handle
  readable :
    ∃ file : SegmentFile,
      node.disk.objects[handle]? = some file ∧
        ByteFile.readAt file.bytes offset count = some payload
  behind :
    node.store.writeFailed = false →
    node.store.files.getLast? = some handle →
      offset + count ≤ node.store.tail

section Captured

variable {blake3 : Bytes → BlockId} {node final : Node}
  {handle offset count : Nat} {payload : Bytes} {settled : Prop}

/-- What a call carries includes the captured payload. -/
theorem Guarded.carried
    (guarded : Guarded settled handle offset count payload node)
    (carried : Carried settled node final) :
    Guarded settled handle offset count payload final := by
  obtain ⟨file, found, payloadRead⟩ := guarded.readable
  obtain ⟨later, present, apart, same, front, longer⟩ :=
    carried.objects handle file guarded.apart found
  refine {
    sound := carried.sound
    isOpen := carried.isOpen
    apart := apart
    readable := ⟨later, present, ?_⟩
    behind := ?_ }
  · by_cases written :
        node.store.writeFailed = false ∧
          node.store.files.getLast? = some handle
    · obtain ⟨accepting, active⟩ := written
      obtain ⟨-, anchored⟩ := guarded.sound.opened.resolve_left
        guarded.isOpen
      have inside :=
        (anchored accepting).1.tail_le handle file active found
      rw [← payloadRead]
      exact ByteFile.readAt_of_take_eq front
        (guarded.behind accepting active) (inside.trans longer) inside
    · have untouched :
          node.store.writeFailed = true ∨
            node.store.files.getLast? ≠ some handle := by
        rw [not_and_or, Bool.not_eq_false] at written
        exact written
      rw [same untouched]
      exact payloadRead
  · intro accepting active
    have wasAccepting : node.store.writeFailed = false := by
      rw [← Bool.not_eq_true]
      intro marked
      rw [carried.marked marked] at accepting
      cases accepting
    rcases carried.active with ⟨last, tail⟩ | ⟨new, last, fresh⟩
    · rw [last] at active
      exact (guarded.behind wasAccepting active).trans tail
    · rw [active] at last
      cases last
      obtain ⟨within, -⟩ := List.getElem?_eq_some_iff.mp found
      omega

/-- What a reader that succeeds has captured. -/
theorem Node.read_captured
    {id : BlockId}
    {location : Location}
    (readable : node.read blake3 id = .ok payload)
    (indexed : node.store.index[id]? = some location)
    (captured : node.store.files[location.segment]? = some handle) :
    location.payloadLen < 2 ^ 63 ∧
      ∃ file : SegmentFile,
        node.disk.objects[handle]? = some file ∧
          ByteFile.readAt file.bytes (location.offset + headerLen)
            location.payloadLen = some payload := by
  have looked :
      ({ node with fault := none } : Node).lookup .std blake3 id =
        .ok payload := by
    rw [← getBlock_eq_lookup rfl]
    exact readable
  simp only [Node.lookup, indexed, Node.fileAt, captured,
    Option.bind_some] at looked
  cases found : node.disk.objects[handle]? with
  | none =>
      rw [found] at looked
      cases looked
  | some file =>
      rw [found] at looked
      dsimp only at looked
      split at looked
      · cases looked
      · rename_i small
        refine ⟨not_le.mp small, file, rfl, ?_⟩
        rw [Backend.read] at looked
        split at looked
        · cases looked
        · rename_i bytes bytesRead
          split at looked
          · cases looked
          · cases looked
            exact bytesRead

/-- A reader that succeeds guards what it has captured. -/
theorem Node.Sound.guarded
    (sound : node.Sound True)
    {id : BlockId}
    {location : Location}
    (indexed : node.store.index[id]? = some location)
    (captured : node.store.files[location.segment]? = some handle)
    (readable : node.read blake3 id = .ok payload) :
    Guarded True handle (location.offset + headerLen) location.payloadLen
      payload node := by
  have member := List.mem_of_getElem? captured
  have isOpen := List.ne_nil_of_mem member
  obtain ⟨regular, anchored⟩ := sound.opened.resolve_left isOpen
  obtain ⟨small, content⟩ := Node.read_captured readable indexed captured
  refine {
    sound := sound
    isOpen := isOpen
    apart := ?_
    readable := content
    behind := ?_ }
  · obtain ⟨contents, files⟩ := regular
    exact fun segment named =>
      (files.temporariesApart segment handle named).2 member
  · intro accepting active
    exact (((anchored accepting).2 trivial).indexed id location indexed).2
      small
      (regular.last_of_active captured active)

/-- Later calls leave it behind the handle. -/
theorem Guarded.after
    (guarded : Guarded settled handle offset count payload node)
    {later : List StoreEvent}
    (calls : ∀ event ∈ later, event.isCall = true) :
    Guarded settled handle offset count payload
      (StepRun.after (stepEvent blake3) node later) := by
  rw [StepRun.after_eq_before]
  refine StepRun.holds_before (Guarded settled handle offset count payload) guarded
    ?_ _
  intro position event present reached
  exact reached.carried (reached.sound.carried reached.isOpen
    (calls event (List.mem_of_getElem? present)))

/-- Reading through the handle returns it. -/
theorem Guarded.readAt_eq
    (guarded : Guarded settled handle offset count payload node) :
    (execute (readAt handle offset count)
      { node with fault := none }).1 = .ok payload := by
  obtain ⟨file, found, payloadRead⟩ := guarded.readable
  apply Ends.result_eq
  rw [readAt, ends_bind, ends_ioStep_of_none rfl]
  simp only [fileOf, ends_bind, ends_get, found, ends_pure, payloadRead]

end Captured

/--
In a history whose directories are settled, the location and the handle that
a reader captures keep yielding the payload, whatever the later calls append,
move or drop, and however far they get.
-/
theorem captured_reads_stay_valid
    (blake3 : Bytes → BlockId)
    (disk : Disk)
    (handles : List Nat)
    (contents : List Bytes)
    (files : disk.Files handles contents)
    (rollBytes : Nat)
    (events : List StoreEvent)
    (settled : OpensSettled blake3 disk rollBytes events)
    (position : Nat)
    (id : BlockId)
    (location : Location)
    (handle : Nat)
    (payload : Bytes)
    (later : List StoreEvent)
    (calls : ∀ event ∈ later, event.isCall = true) :
    let node := StepRun.before (stepEvent blake3)
      (disk.opened rollBytes) events position
    let final := StepRun.after (stepEvent blake3) node later
    node.store.index[id]? = some location →
    node.store.files[location.segment]? = some handle →
    node.read blake3 id = .ok payload →
      (execute
        (readAt handle (location.offset + headerLen) location.payloadLen)
        { final with fault := none }).1 = .ok payload := by
  intro node final indexed captured readable
  have guarded := (settled.sound files position).guarded indexed captured
    readable
  exact (guarded.after calls).readAt_eq

/-- A new segment, a failed repair, and a compaction that drops the block. -/
def moreCalls : List StoreEvent :=
  [.putMany none [zeroByte], .repair (some ⟨2, 10⟩) (sampleBlake3 [0]) zeroByte,
    .compact none (fun id => id ≠ sampleBlake3 [1]) .sorted]

theorem captured_reads_stay_valid_dropped :
    let node := StepRun.before (stepEvent sampleBlake3)
      (({} : Disk).opened 65536) tornThenStored 3
    let final := StepRun.after (stepEvent sampleBlake3) node moreCalls
    node.store.index[sampleBlake3 [1]]? = some ⟨0, 0, 1⟩ ∧
    node.store.files[0]? = some 0 ∧
    sampleBlake3 [1] ∉ final.store.index ∧
    final.store.files[0]? ≠ some 0 ∧
    (execute (readAt 0 (0 + headerLen) 1)
      { final with fault := none }).1 = .ok [1] := by
  intro node final
  have indexed :
      node.store.index[sampleBlake3 [1]]? = some ⟨0, 0, 1⟩ := by
    decide +kernel
  have captured : node.store.files[0]? = some 0 := by decide +kernel
  refine ⟨indexed, captured, by decide +kernel, by decide +kernel, ?_⟩
  exact captured_reads_stay_valid sampleBlake3 {} [] [] .empty 65536
    tornThenStored (by decide +kernel) 3 (sampleBlake3 [1]) ⟨0, 0, 1⟩ 0 [1]
    moreCalls (by decide) indexed captured (by decide +kernel)

/--
Where the scan has taken the tail back into a stored block, the next batch
overwrites what a reader of that block has captured.
-/
theorem captured_read_overwritten :
    let node := StepRun.after (stepEvent wrappingBlake3)
      (({} : Disk).opened 65536) wrappedHistory
    let final := stepEvent wrappingBlake3 node (.putMany none [oneByte])
    let id := wrappingBlake3 zeroPages.bytes
    node.store.index[id]? = some ⟨0, 0, 4033⟩ ∧
    node.store.files[0]? = some 0 ∧
    (node.read wrappingBlake3 id).toOption.map List.getLast? =
      some (some 0) ∧
    (execute (readAt 0 (0 + headerLen) 4033)
      { final with fault := none }).1.toOption.map List.getLast? =
        some (some 75) := by
  decide +kernel

end KalpakDb
