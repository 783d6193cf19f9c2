import KalpakDb.RepairDurability
import KalpakDb.SettledStores

namespace KalpakDb

/-!
# Failed appends

An append that fails may have flushed segments, added files and written any
part of its records.  None of this can be read, and the store refuses every
further append until the directory is opened again.  This needs a tail that
is behind the indexed records, which a directory that is not settled lacks.
-/

open Std (ExtTreeMap)
open Contract

/-! ## Calls that append -/

inductive AppendCall where
  | put (payload : Payload)
  | putMany (payloads : List Payload)
  | repair (id : BlockId) (payload : Payload)

/-- A failure that the call returns as an error. -/
def Failure.isErr : Failure → Bool
  | .panicked => false
  | .diverged => false
  | _ => true

/-- The events of one process. -/
def StoreEvent.sameProcess : StoreEvent → Bool
  | .reopen _ => false
  | _ => true

namespace AppendCall

variable (blake3 : Bytes → BlockId)

def perform : AppendCall → StorageM Unit
  | .put payload => do
      let _ ← KalpakDb.put blake3 payload
  | .putMany payloads => do
      let _ ← KalpakDb.putMany blake3 payloads
  | .repair id payload => do
      let _ ← KalpakDb.repair blake3 id payload

/-- A repair with a payload of another block is refused before it appends. -/
def Begins : AppendCall → Prop
  | .repair id payload => blake3 payload.bytes = id
  | _ => True

def payloads : AppendCall → List Payload
  | .put payload => [payload]
  | .putMany payloads => payloads
  | .repair _ payload => [payload]

def isRepair : AppendCall → Bool
  | .repair _ _ => true
  | _ => false

variable {blake3} {node final : Node} {error : Failure}

/-- The outcome of a batch of which the first identifier is returned. -/
theorem execute_first
    {code : StorageM (List BlockId)}
    (failed :
      execute (do
        let ids ← code
        match ids with
        | id :: _ => pure id
        | [] => throw .panicked) node = (.error error, final))
    (returned : error.isErr = true) :
    execute code node = (.error error, final) := by
  rw [execute_bind] at failed
  rcases outcome : execute code node with ⟨_ | ids, middle⟩
  · simpa [outcome] using failed
  · simp only [outcome] at failed
    cases ids with
    | nil =>
        cases failed
        cases returned
    | cons id rest =>
        cases failed

/-- Dropping what a call returns does not change how it fails. -/
theorem execute_dropped
    {α : Type}
    {code : StorageM α}
    (failed :
      execute (do
        let _ ← code) node = (.error error, final)) :
    execute code node = (.error error, final) := by
  rw [execute_bind] at failed
  rcases outcome : execute code node with ⟨_ | value, middle⟩
  · simpa [outcome] using failed
  · simp only [outcome] at failed
    cases failed

/-- A call that fails was refused, or its batch failed. -/
theorem failure_cases
    {call : AppendCall}
    (failed :
      execute (call.perform blake3) node = (.error error, final))
    (returned : error.isErr = true) :
    (¬ call.Begins blake3 ∧ final = node) ∨
      execute (putManyInner blake3 call.payloads call.isRepair) node =
        (.error error, final) := by
  cases call with
  | put payload =>
      exact Or.inr (execute_first (execute_dropped failed) returned)
  | putMany payloads =>
      exact Or.inr (execute_dropped failed)
  | repair id payload =>
      have inner := execute_dropped failed
      unfold KalpakDb.repair at inner
      split at inner
      · rename_i different
        cases inner
        exact Or.inl ⟨different, rfl⟩
      · exact Or.inr (execute_first inner returned)

/-- A batch that fails marks the store. -/
theorem ends_putManyInner_marks
    (payloads : List Payload)
    (isRepair : Bool) :
    Ends (putManyInner blake3 payloads isRepair) node
      (fun _ _ => True)
      (fun _ final => final.store.writeFailed = true) := by
  simp only [putManyInner, ends_bind, ends_get]
  split
  · rename_i refused
    exact refused
  · simp only [ends_bind, ends_onFailure]
    exact (ends_trivial _ _).mono (fun _ _ _ => trivial)
      (fun _ _ _ => trivial)

/-- A marked store refuses a batch. -/
theorem execute_putManyInner_of_marked
    (blake3 : Bytes → BlockId)
    (marked : node.store.writeFailed = true)
    (payloads : List Payload)
    (isRepair : Bool) :
    execute (putManyInner blake3 payloads isRepair) node =
      (.error (.io .appendFailedPreviously), node) := by
  apply Ends.execute_eq
  simp [putManyInner, marked]

/-- A marked store refuses every call and stays as it is. -/
theorem refused
    (marked : node.store.writeFailed = true)
    (call : AppendCall) :
    ∃ refusal : Failure,
      refusal.isErr = true ∧
        execute (call.perform blake3) node = (.error refusal, node) := by
  have inner := execute_putManyInner_of_marked blake3 marked
  cases call with
  | put payload =>
      refine ⟨.io .appendFailedPreviously, rfl, ?_⟩
      simp [perform, KalpakDb.put, KalpakDb.putMany, execute_bind, inner]
  | putMany payloads =>
      refine ⟨.io .appendFailedPreviously, rfl, ?_⟩
      rw [perform, KalpakDb.putMany, execute_bind, inner]
  | repair id payload =>
      by_cases same : blake3 payload.bytes = id
      · refine ⟨.io .appendFailedPreviously, rfl, ?_⟩
        simp [perform, KalpakDb.repair, same, execute_bind, inner]
      · refine ⟨.corrupt id, rfl, ?_⟩
        apply Ends.execute_eq
        simp [perform, KalpakDb.repair, same]

end AppendCall

/-! ## What can be read -/

section Reads

variable {blake3 : Bytes → BlockId} {node final : Node} {id : BlockId}

/-- Looking up a block depends on its entry and the bytes it points to. -/
theorem getBlock_congr
    {first second : Node}
    (fault : first.fault = second.fault)
    (index : first.store.index[id]? = second.store.index[id]?)
    (alike :
      ∀ location : Location,
        second.store.index[id]? = some location →
          first.store.files[location.segment]? =
              second.store.files[location.segment]? ∧
            ∀ handle : Nat,
              second.store.files[location.segment]? = some handle →
              location.payloadLen < 2 ^ 63 →
                ∃ file other : SegmentFile,
                  first.disk.objects[handle]? = some file ∧
                    second.disk.objects[handle]? = some other ∧
                    ByteFile.readAt file.bytes (location.offset + headerLen)
                        location.payloadLen =
                      ByteFile.readAt other.bytes
                        (location.offset + headerLen) location.payloadLen) :
    (execute (getBlock blake3 id) first).1 =
      (execute (getBlock blake3 id) second).1 := by
  have same (result : Except Failure Bytes) :
      Ends (getBlock blake3 id) first
          (fun bytes _ => result = .ok bytes)
          (fun error _ => result = .error error) ↔
        Ends (getBlock blake3 id) second
          (fun bytes _ => result = .ok bytes)
          (fun error _ => result = .error error) := by
    simp only [getBlock, ends_bind, ends_get, index]
    cases entry : second.store.index[id]? with
    | none =>
        rfl
    | some location =>
        obtain ⟨table, bytes⟩ := alike location entry
        simp only [table]
        cases named : second.store.files[location.segment]? with
        | none =>
            rfl
        | some handle =>
            simp only
            split
            · rfl
            · rename_i small
              obtain ⟨file, other, found, present, read⟩ :=
                bytes handle named (not_le.mp small)
              simp only [readAt, ioStep, fileOf, ends_bind, ends_get, fault]
              rcases second.fault with - | ⟨- | step, written⟩
              · simp only [ends_pure, found, present, read]
                split
                · simp only [ends_pure]
                  split <;> rfl
                · rfl
              · rfl
              · simp only [ends_modify, ends_pure, found, present, read]
                split
                · simp only [ends_pure]
                  split <;> rfl
                · rfl
  exact Ends.result_eq ((same _).mpr (ends_result _ _))

/-- What a batch leaves alone includes every indexed record. -/
theorem Kept.getBlock_eq
    (kept : Kept node final)
    (anchored : node.Anchored)
    (index : final.store.index = node.store.index)
    (id : BlockId)
    (fault : Option Fault) :
    (execute (getBlock blake3 id) { final with fault := fault }).1 =
      (execute (getBlock blake3 id) { node with fault := fault }).1 := by
  refine getBlock_congr rfl (by dsimp only; rw [index]) ?_
  intro location indexed
  dsimp only at indexed ⊢
  obtain ⟨within, below⟩ := anchored.indexed id location indexed
  obtain ⟨added, files⟩ := kept.files
  refine ⟨by rw [← files, List.getElem?_append_left within], ?_⟩
  intro handle named small
  obtain ⟨file, present⟩ :=
    anchored.regular.file_of_mem (List.mem_of_getElem? named)
  obtain ⟨later, found, same, front, longer⟩ :=
    kept.objects handle file present
  refine ⟨later, file, found, present, ?_⟩
  by_cases active : node.store.files.getLast? = some handle
  · have last := anchored.regular.last_of_active named active
    have inside := anchored.tail_le handle file active present
    exact ByteFile.readAt_of_take_eq front (below small last)
      (inside.trans longer) inside
  · rw [same active]

end Reads

/-! ## Failing closed -/

section Closed

variable {blake3 : Bytes → BlockId} {node : Node}

/-- A compaction does not clear the mark. -/
theorem ends_compact_marked
    (live : BlockId → Bool)
    (order : IterationOrder)
    (marked : node.store.writeFailed = true) :
    Ends (compact blake3 live order) node
      (fun _ final => final.store.writeFailed = true)
      (fun _ final => final.store.writeFailed = true) := by
  simp only [compact, ends_bind, ends_get]
  refine ends_foldlM_range
    (fun _ _ (state : Node) => state.store.writeFailed = true) ?_ marked
  intro segment stats state _ stateMarked
  simp only [compactSegment, ends_bind, ends_get]
  split
  · exact stateMarked
  · rw [rewriteSegment_eq, ends_bind]
    refine (ends_installRewrite_store blake3 state segment _).mono ?_ ?_
    · rintro ⟨handle, oldLen, offset, moved⟩ installed ⟨same, -⟩
      have published : installed.store.writeFailed = true := by
        rw [same]
        exact stateMarked
      simp only [publishRewrite, ends_bind, ends_modify, syncDir]
      exact ends_ioStep (fun _ => published) published
    · intro error final same
      rw [same]
      exact stateMarked

/-- Within one process a marked store stays marked. -/
theorem marked_step
    (marked : node.store.writeFailed = true)
    {event : StoreEvent}
    (inProcess : event.sameProcess = true) :
    (stepEvent blake3 node event).store.writeFailed = true := by
  have inner (fault : Option Fault) :=
    AppendCall.execute_putManyInner_of_marked blake3
      (show ({ node with fault := fault } : Node).store.writeFailed = true
        from marked)
  cases event with
  | putMany fault payloads =>
      rw [stepEvent, Node.run, putMany, inner]
      exact marked
  | repair fault id payload =>
      rw [stepEvent, Node.run, repair]
      split
      · exact marked
      · rw [execute_bind, inner]
        exact marked
  | compact fault live order =>
      exact (ends_compact_marked live order
        (show ({ node with fault := fault } : Node).store.writeFailed = true
          from marked)).final
  | damage segment position bytes =>
      rw [stepEvent, Node.store_damage]
      exact marked
  | reopen rollBytes =>
      cases inProcess

/-- A marked store stays marked until the directory is opened again. -/
theorem marked_after
    (marked : node.store.writeFailed = true)
    {later : List StoreEvent}
    (inProcess : ∀ event ∈ later, event.sameProcess = true) :
    (StepRun.after (stepEvent blake3) node later).store.writeFailed =
      true := by
  rw [StepRun.after_eq_before]
  refine StepRun.holds_before
    (fun state : Node => state.store.writeFailed = true) marked ?_ _
  intro position event present stateMarked
  exact marked_step stateMarked
    (inProcess event (List.mem_of_getElem? present))

end Closed

/-! ## A failed append -/

/-- A batch that fails leaves every read as it was. -/
theorem Node.Sound.failed_putManyInner
    {blake3 : Bytes → BlockId}
    {node final : Node}
    (sound : node.Sound True)
    {payloads : List Payload}
    {isRepair : Bool}
    {error : Failure}
    (failed :
      execute (putManyInner blake3 payloads isRepair) node =
        (.error error, final))
    (returned : error.isErr = true)
    (id : BlockId)
    (reading : Option Fault) :
    (execute (getBlock blake3 id) { final with fault := reading }).1 =
      (execute (getBlock blake3 id) { node with fault := reading }).1 := by
  by_cases marked : node.store.writeFailed = true
  · rw [AppendCall.execute_putManyInner_of_marked blake3 marked] at failed
    cases failed
    rfl
  · have accepting : node.store.writeFailed = false := by simpa using marked
    rcases sound.opened with closed | ⟨-, anchored⟩
    · have panics : Ends (putManyInner blake3 payloads isRepair) node
          (fun _ _ => True) (fun error _ => error = .panicked) := by
        simp only [putManyInner, appendAll, ends_bind, ends_get, accepting,
          Bool.false_eq_true, if_false, ends_onFailure, closed,
          List.getLast?_nil, ends_throw]
      rw [ends_of_error failed] at panics
      subst panics
      cases returned
    · obtain ⟨placed, before⟩ := anchored accepting
      have kept := (ends_of_error failed).mp
        (placed.ends_putManyInner payloads isRepair)
      have index := (ends_of_error failed).mp
        (ends_putManyInner_any payloads isRepair)
      exact kept.1.getBlock_eq (before trivial) index id reading

/--
In a history whose directories are settled, an append that fails leaves every
read and every membership test as it was, and until the directory is opened
again every further append is refused and changes nothing.
-/
theorem failed_appends_change_nothing
    (blake3 : Bytes → BlockId)
    (disk : Disk)
    (handles : List Nat)
    (contents : List Bytes)
    (files : disk.Files handles contents)
    (rollBytes : Nat)
    (events : List StoreEvent)
    (settled : OpensSettled blake3 disk rollBytes events)
    (position : Nat)
    (call : AppendCall)
    (fault : Option Fault)
    (error : Failure)
    (returned : error.isErr = true)
    (failed :
      let node := StepRun.before (stepEvent blake3)
        (disk.opened rollBytes) events position
      (execute (call.perform blake3) { node with fault := fault }).1 =
        .error error) :
    let node := StepRun.before (stepEvent blake3)
      (disk.opened rollBytes) events position
    let final := node.run fault (call.perform blake3)
    (∀ (id : BlockId) (reading : Option Fault),
      (execute (getBlock blake3 id) { final with fault := reading }).1 =
        (execute (getBlock blake3 id) { node with fault := reading }).1) ∧
    (∀ id : BlockId,
      final.store.index.contains id = node.store.index.contains id) ∧
    (call.Begins blake3 →
      ∀ later : List StoreEvent,
        (∀ event ∈ later, event.sameProcess = true) →
          ∀ (again : AppendCall) (ahead : Option Fault),
            let state :=
              { StepRun.after (stepEvent blake3) final later with
                fault := ahead }
            ∃ refusal : Failure,
              refusal.isErr = true ∧
                execute (again.perform blake3) state =
                  (.error refusal, state)) := by
  intro node final
  have sound : ({ node with fault := fault } : Node).Sound True :=
    (settled.sound files position).withFault fault
  rcases outcome :
      execute (call.perform blake3) { node with fault := fault } with
    ⟨result, ended⟩
  obtain rfl : result = .error error :=
    (congrArg Prod.fst outcome).symm.trans failed
  have isFinal : final = { ended with fault := none } :=
    congrArg (fun ran => { ran.2 with fault := none }) outcome
  rcases AppendCall.failure_cases outcome returned with
    ⟨refused, rfl⟩ | batch
  · rw [isFinal]
    exact ⟨fun _ _ => rfl, fun _ => rfl, fun begins =>
      absurd begins refused⟩
  · have index := (ends_of_error batch).mp
      (ends_putManyInner_any call.payloads call.isRepair)
    have marked := (ends_of_error batch).mp
      (AppendCall.ends_putManyInner_marks call.payloads call.isRepair)
    refine ⟨?_, ?_, ?_⟩
    · intro id reading
      rw [isFinal]
      exact sound.failed_putManyInner batch returned id reading
    · intro id
      rw [isFinal]
      exact congrArg (·.contains id) index
    · intro _ later inProcess again ahead state
      have finalMarked : final.store.writeFailed = true := by
        rw [isFinal]
        exact marked
      have stateMarked : state.store.writeFailed = true :=
        marked_after finalMarked inProcess
      exact AppendCall.refused stateMarked again

/-- A torn append, a new process with small segments, and a block. -/
def tornThenStored : List StoreEvent :=
  [.putMany (some ⟨0, 70⟩) [zeroByte], .reopen 4096,
    .putMany none [oneByte]]

/-- A batch that starts two segments and fails in the second one. -/
theorem failed_appends_change_nothing_rolled :
    let node := StepRun.before (stepEvent sampleBlake3)
      (({} : Disk).opened 65536) tornThenStored 3
    let call := AppendCall.putMany [zeroByte, zeroPages]
    let final := node.run (some ⟨3, 10⟩) (call.perform sampleBlake3)
    (execute (call.perform sampleBlake3)
      { node with fault := some ⟨3, 10⟩ }).1 = .error (.io .failed) ∧
    node.store.files.length + 2 = final.store.files.length ∧
    (∀ (id : BlockId) (reading : Option Fault),
      (execute (getBlock sampleBlake3 id)
          { final with fault := reading }).1 =
        (execute (getBlock sampleBlake3 id)
          { node with fault := reading }).1) ∧
    let later := [StoreEvent.compact none (fun _ => true) .sorted]
    let state :=
      { StepRun.after (stepEvent sampleBlake3) final later with
        fault := none }
    ∃ refusal : Failure,
      refusal.isErr = true ∧
        execute ((AppendCall.put oneByte).perform sampleBlake3) state =
          (.error refusal, state) := by
  intro node call final
  have failed : (execute (call.perform sampleBlake3)
      { node with fault := some ⟨3, 10⟩ }).1 = .error (.io .failed) := by
    decide +kernel
  have changesNothing := failed_appends_change_nothing sampleBlake3 {} [] []
    .empty 65536 tornThenStored (by decide +kernel) 3 call (some ⟨3, 10⟩)
    (.io .failed) rfl failed
  refine ⟨failed, by decide +kernel, changesNothing.1, ?_⟩
  intro later
  exact changesNothing.2.2 trivial later
    (by intro event member; rw [List.mem_singleton.mp member]; rfl)
    (.put oneByte) none

/--
A payload that ends with a record header of its own, whose length takes the
next record back to the second page of the file.
-/
def wrappingPayload : Payload :=
  ⟨List.replicate 8128 0 ++
      encodeHeader (BlockId.filled 9) (2 ^ 64 - 4096 - headerLen),
    by decide +kernel⟩

/-- BLAKE3 on the sample byte strings and the wrapping payload. -/
def wrappingBlake3 (bytes : Bytes) : BlockId :=
  if bytes.length = 8192 then
    ⟨[23, 219, 255, 59, 204, 67, 69, 182, 149, 0, 160, 92, 31, 197, 17, 179,
      100, 92, 31, 196, 213, 144, 104, 254, 75, 139, 205, 38, 105, 82, 167,
      96], by decide⟩
  else
    sampleBlake3 bytes

/--
The wrapping payload is torn behind its header, a block of two pages is
stored in front of what is left of it, and the directory is opened again.
-/
def wrappedHistory : List StoreEvent :=
  [.putMany (some ⟨0, 8256⟩) [wrappingPayload], .reopen 65536,
    .putMany none [zeroPages], .reopen 65536]

/--
The tail is then in the middle of the stored block, and an append that fails
after one byte damages it.
-/
theorem failed_append_tears_record :
    let node := StepRun.after (stepEvent wrappingBlake3)
      (({} : Disk).opened 65536) wrappedHistory
    let call := AppendCall.putMany [oneByte]
    let final := node.run (some ⟨0, 1⟩) (call.perform wrappingBlake3)
    let id := wrappingBlake3 zeroPages.bytes
    (execute (call.perform wrappingBlake3)
      { node with fault := some ⟨0, 1⟩ }).1 = .error (.io .failed) ∧
    (execute (getBlock wrappingBlake3 id) node).1.isOk = true ∧
    (execute (getBlock wrappingBlake3 id) final).1 =
      .error (.corrupt id) := by
  decide +kernel

end KalpakDb
