import KalpakDb.StepRun
import KalpakDb.StoreAppend

namespace KalpakDb

/-!
# Durability across crashes

A process stores batches, is killed in the middle of one, and its disk is
opened again, any number of times.  Recovery overwrites a torn tail without
removing it.  Acknowledged payloads survive as long as no leftover bytes read
as a record where the scan should stop.
-/

open Contract
open ByteFile (consecutive whole)

/-- One event of a crash history; a batch meets the given I/O failure. -/
inductive CrashStep where
  | put (payloads : List Payload) (fault : Option Fault)
  | reopen

/-- A running process and the payloads whose batches returned. -/
structure Session where
  node : Node
  acknowledged : List Payload := []

/-- Opening a disk in a new process. -/
def reopened (disk : Disk) : Except Failure Unit × Node :=
  execute openWith { disk := disk }

/-- The process that starts in an empty directory. -/
def initialSession : Session where
  node := (reopened {}).2

/-- All payloads of a history. -/
def involvedPayloads (history : List CrashStep) : List Payload :=
  history.flatMap fun
    | .put payloads _ => payloads
    | .reopen => []

/-- The bytes of the active segment. -/
def Node.activeBytes (node : Node) : Bytes :=
  match node.store.files.getLast? with
  | none => []
  | some handle =>
      match node.disk.objects[handle]? with
      | none => []
      | some file => file.bytes

section Hash

variable (blake3 : Bytes → BlockId)

/-- A batch returns, or the process stops in the middle of it. -/
def stepSession (session : Session) : CrashStep → Session
  | .put payloads fault =>
      let ended :=
        execute (putMany blake3 payloads) { session.node with fault := fault }
      { node := ended.2
        acknowledged :=
          match ended.1 with
          | .ok _ => session.acknowledged ++ payloads
          | .error _ => session.acknowledged }
  | .reopen => { session with node := (reopened session.node.disk).2 }

/--
After the bytes of a batch that reach the active segment, the scan of the
segment stops at the end of the last record written completely.
-/
def stopsAfter (node : Node) (payloads : List Payload) : Bool :=
  let chunk := batchChunk node payloads blake3
  let writes :=
    consecutive node.store.tail (chunk.map (encodePayload blake3))
  let reached := node.writeBudget writes
  let complete := whole recordSize reached chunk
  node.store.writeFailed ||
    (scanStep (ByteFile.writePrefix reached writes node.activeBytes)
      (node.store.tail + (encodeAll blake3 complete).length)).isNone

/-- Every batch of a history leaves a segment whose scan stops in time. -/
def settledRun : Session → List CrashStep → Bool
  | _, [] => true
  | session, .put payloads fault :: rest =>
      stopsAfter blake3 { session.node with fault := fault } payloads &&
        settledRun (stepSession blake3 session (.put payloads fault)) rest
  | session, .reopen :: rest =>
      settledRun (stepSession blake3 session .reopen) rest

/-- What every session of a settled history keeps. -/
structure Session.Durable
    (involved : List Payload)
    (session : Session)
    (handles : List Nat)
    (images : List SegmentImage) : Prop where
  nonempty : images ≠ []
  holds : session.node.disk.Holds blake3 handles images
  distinct :
    ((storedPayloads images).map fun payload => blake3 payload.bytes).Nodup
  known : ∀ payload ∈ storedPayloads images, payload ∈ involved
  kept : ∀ payload ∈ session.acknowledged, payload ∈ storedPayloads images
  serves :
    session.node.store.writeFailed = false →
      session.node.Serves blake3 images

variable {blake3} {session : Session} {involved : List Payload}
  {handles : List Nat} {images : List SegmentImage}

/-- The condition on a batch, seen from the image of the active segment. -/
theorem settles_of_stopsAfter
    {node : Node}
    (serves : node.Serves blake3 images)
    {payloads : List Payload}
    (stops : stopsAfter blake3 node payloads = true) :
    Settles node images payloads blake3 := by
  obtain ⟨front, active, before, last, files, images, holds, tail⟩ :=
    serves.activeSegment
  obtain ⟨-, file, found, contents⟩ := holds.lastFile
  have bytes : node.activeBytes = last.contents blake3 := by
    simp [Node.activeBytes, files, found, contents]
  intro earlier image shape _ absorbed bounded
  have same : last = image := by
    have both := images.symm.trans shape
    simpa using (List.append_inj' both rfl).2
  subst same
  simp only [stopsAfter, serves.accepting, Bool.false_or,
    Option.isNone_iff_eq_none, bytes, tail,
    SegmentImage.writePrefix_contents] at stops
  rw [SegmentImage.Stops]
  simpa only [absorbed, SegmentImage.tail, SegmentImage.absorb,
    encodeAll_append, List.length_append] using stops

/-- A disk in an empty directory. -/
theorem initialSession_durable
    (blake3 : Bytes → BlockId)
    (involved : List Payload) :
    ∃ handles,
      initialSession.Durable blake3 involved handles
        [{ records := [], residue := [] }] := by
  obtain ⟨node, ok, serves, -, -, -⟩ := openWith_empty blake3
  have same : initialSession.node = node := congrArg Prod.snd ok
  refine ⟨node.store.files, ?_⟩
  refine {
    nonempty := serves.nonempty
    holds := by rw [same]; exact serves.holds
    distinct := serves.distinct
    known := by simp [storedPayloads]
    kept := by simp [initialSession]
    serves := fun _ => by rw [same]; exact serves }

/-- Reopening a durable session. -/
theorem Session.Durable.reopen
    (durable : session.Durable blake3 involved handles images) :
    ∃ node,
      reopened session.node.disk = (.ok (), node) ∧
        node.Serves blake3 images ∧
        node.disk = session.node.disk ∧
        node.fault = none := by
  have opened : ({ disk := session.node.disk } : Node).disk.Holds blake3
      handles images := durable.holds
  obtain ⟨node, ok, serves, disk, noFault, -⟩ :=
    openWith_serves opened rfl durable.nonempty durable.distinct
  exact ⟨node, ok, serves, disk, noFault⟩

/-- A refused batch changes nothing. -/
theorem putMany_refused
    (node : Node)
    (refusing : node.store.writeFailed = true)
    (payloads : List Payload) :
    execute (putMany blake3 payloads) node =
      (.error (.io .appendFailedPreviously), node) := by
  apply Ends.execute_eq
  simp only [putMany, putManyInner, ends_bind, ends_get, refusing, if_true,
    ends_throw]

/-- A batch of a durable session, whether it returns or is interrupted. -/
theorem Session.Durable.put
    (durable : session.Durable blake3 involved handles images)
    (noCollision :
      ∀ first ∈ involved, ∀ second ∈ involved,
        blake3 first.bytes = blake3 second.bytes → first = second)
    {payloads : List Payload}
    (listed : ∀ payload ∈ payloads, payload ∈ involved)
    {fault : Option Fault}
    (stops :
      stopsAfter blake3 { session.node with fault := fault } payloads =
        true) :
    ∃ handles images,
      (stepSession blake3 session (.put payloads fault)).Durable blake3
        involved handles images := by
  cases refusing : session.node.store.writeFailed with
  | true =>
      have refused :
          execute (putMany blake3 payloads)
              { session.node with fault := fault } =
            (.error (.io .appendFailedPreviously),
              { session.node with fault := fault }) :=
        putMany_refused { session.node with fault := fault } refusing payloads
      refine ⟨handles, images, ?_⟩
      rw [stepSession, refused]
      refine {
        nonempty := durable.nonempty
        holds := durable.holds
        distinct := durable.distinct
        known := durable.known
        kept := durable.kept
        serves := ?_ }
      intro accepting
      exact absurd (refusing.symm.trans accepting) (by decide)
  | false =>
      have serves := (durable.serves refusing).withFault fault
      have ends := ends_putMany serves (settles_of_stopsAfter serves stops)
      have freshListed :
          ∀ payload ∈ batchFresh { session.node with fault := fault }
              payloads blake3, payload ∈ involved :=
        fun payload member => listed payload (mem_freshPayloads member).1
      have known (new : List Payload)
          (isFresh : new ⊆ batchFresh { session.node with fault := fault }
            payloads blake3) :
          ∀ payload ∈ storedPayloads images ++ new,
            payload ∈ involved := by
        intro payload member
        rcases List.mem_append.mp member with old | added
        · exact durable.known payload old
        · exact freshListed payload (isFresh added)
      rcases outcome :
          execute (putMany blake3 payloads)
            { session.node with fault := fault } with ⟨_ | ids, final⟩
      · obtain ⟨⟨-, after, afterImages, nonempty, holds, written, front,
          stored⟩, failed⟩ := (ends_of_error outcome).mp ends
        refine ⟨after, afterImages, ?_⟩
        rw [stepSession, outcome]
        refine {
          nonempty := nonempty
          holds := holds
          distinct := by rw [stored]; exact serves.distinct_append front
          known := by rw [stored]; exact known _ front.subset
          kept := ?_
          serves := ?_ }
        · intro payload member
          rw [stored]
          exact List.mem_append_left _ (durable.kept payload member)
        · intro accepting
          exact absurd (failed.symm.trans accepting) (by decide)
      · obtain ⟨-, after, served, stored, -, -, -⟩ :=
          (ends_of_ok outcome).mp ends
        have knownAfter :
            ∀ payload ∈ storedPayloads after, payload ∈ involved := by
          rw [stored]
          exact known _ (List.Subset.refl _)
        refine ⟨final.store.files, after, ?_⟩
        rw [stepSession, outcome]
        refine {
          nonempty := served.nonempty
          holds := served.holds
          distinct := served.distinct
          known := knownAfter
          kept := ?_
          serves := fun _ => served }
        intro payload member
        rcases List.mem_append.mp member with old | new
        · rw [stored]
          exact List.mem_append_left _ (durable.kept payload old)
        · obtain ⟨found, foundMember, same⟩ :=
            serves.stored_of_batch stored new
          rw [← noCollision found (knownAfter found foundMember) payload
            (listed payload new) same]
          exact foundMember

/-- Every session of a settled history is durable. -/
theorem Session.Durable.run
    (noCollision :
      ∀ first ∈ involved, ∀ second ∈ involved,
        blake3 first.bytes = blake3 second.bytes → first = second)
    {history : List CrashStep}
    (listed : ∀ payload ∈ involvedPayloads history, payload ∈ involved)
    (settled : settledRun blake3 session history = true)
    (durable : session.Durable blake3 involved handles images) :
    ∃ handles images,
      (StepRun.after (stepSession blake3) session history).Durable blake3
        involved handles images := by
  induction history generalizing session handles images with
  | nil =>
      exact ⟨handles, images, durable⟩
  | cons step rest inductionHypothesis =>
      rw [StepRun.after_cons]
      have later :
          ∀ payload ∈ involvedPayloads rest, payload ∈ involved := by
        intro payload member
        refine listed payload ?_
        simp only [involvedPayloads, List.flatMap_cons, List.mem_append]
        exact Or.inr member
      cases step with
      | put payloads fault =>
          simp only [settledRun, Bool.and_eq_true] at settled
          have here : ∀ payload ∈ payloads, payload ∈ involved := by
            intro payload member
            refine listed payload ?_
            simp only [involvedPayloads, List.flatMap_cons, List.mem_append]
            exact Or.inl member
          obtain ⟨nextHandles, nextImages, next⟩ :=
            durable.put noCollision here settled.1
          exact inductionHypothesis later settled.2 next
      | reopen =>
          simp only [settledRun] at settled
          obtain ⟨node, ok, served, disk, -⟩ := durable.reopen
          have same :
              (stepSession blake3 session .reopen).node = node :=
            congrArg Prod.snd ok
          have next :
              (stepSession blake3 session .reopen).Durable blake3 involved
                node.store.files images := {
            nonempty := durable.nonempty
            holds := by rw [same]; exact served.holds
            distinct := durable.distinct
            known := durable.known
            kept := durable.kept
            serves := fun _ => by rw [same]; exact served }
          exact inductionHypothesis later settled next

/--
Crash durability.  Over every history of batches, interrupted batches and
reopens that starts in an empty directory, and in which every batch leaves a
segment whose scan stops at the end of the last complete record: reopening
succeeds, returns every payload of every batch that was acknowledged, byte
for byte, and the verification of the whole store is clean.
-/
theorem acknowledged_payloads_survive
    (blake3 : Bytes → BlockId)
    (history : List CrashStep)
    (noCollision :
      ∀ first ∈ involvedPayloads history,
        ∀ second ∈ involvedPayloads history,
          blake3 first.bytes = blake3 second.bytes → first = second)
    (settled : settledRun blake3 initialSession history = true) :
    let session :=
      StepRun.after (stepSession blake3) initialSession history
    ∃ node,
      reopened session.node.disk = (.ok (), node) ∧
      (∀ payload ∈ session.acknowledged,
        execute (getBlock blake3 (blake3 payload.bytes)) node =
          (.ok payload.bytes, node)) ∧
      ∃ report,
        execute (verifyAll blake3) node = (.ok report, node) ∧
          report.isClean = true := by
  intro session
  obtain ⟨initialHandles, initially⟩ :=
    initialSession_durable blake3 (involvedPayloads history)
  obtain ⟨handles, images, durable⟩ :=
    initially.run noCollision (fun _ member => member) settled
  obtain ⟨node, ok, serves, -, noFault⟩ := durable.reopen
  refine ⟨node, ok, ?_, serves.verifyAll_clean noFault⟩
  intro payload member
  exact serves.getBlock_stored noFault (durable.kept payload member)

end Hash

/-! ## Sample histories -/

/-- Zeros whose record takes two pages. -/
def zeroPages : Payload :=
  ⟨List.replicate 4033 0, by rw [List.length_replicate]; omega⟩

/-- BLAKE3 on the three byte strings that the sample histories hash. -/
def sampleBlake3 (bytes : Bytes) : BlockId :=
  if bytes = zeroPages.bytes then
    ⟨[107, 44, 195, 174, 83, 169, 208, 133, 240, 6, 62, 76, 207, 20, 228, 95,
      200, 5, 240, 168, 147, 5, 182, 5, 133, 116, 19, 212, 161, 225, 47,
      123], by decide⟩
  else if bytes = [1] then
    .ofOneByte
  else if bytes = [0] then
    .ofZeroByte
  else
    BlockId.filled 0

/-- A torn block whose first page is then overwritten by a whole one. -/
def tornOnceHistory : List CrashStep :=
  [.put [zeroPages] (some ⟨0, 4097⟩), .reopen, .put [oneByte] none, .reopen]

theorem acknowledged_payloads_survive_torn :
    let session :=
      StepRun.after (stepSession sampleBlake3) initialSession tornOnceHistory
    ∃ node,
      reopened session.node.disk = (.ok (), node) ∧
      (∀ payload ∈ session.acknowledged,
        execute (getBlock sampleBlake3 (sampleBlake3 payload.bytes)) node =
          (.ok payload.bytes, node)) ∧
      ∃ report,
        execute (verifyAll sampleBlake3) node = (.ok report, node) ∧
          report.isClean = true :=
  acknowledged_payloads_survive sampleBlake3 tornOnceHistory
    (by decide +kernel) (by decide +kernel)

/--
A large block is torn, then a small one in front of its leftover bytes.  The
second reopen takes the small header and the old bytes for a record, and the
retry of the small block is acknowledged without being written.
-/
def tornTwiceHistory : List CrashStep :=
  [.put [zeroPages] (some ⟨0, 4096⟩), .reopen,
    .put [oneByte] (some ⟨0, 64⟩), .reopen, .put [oneByte] none, .reopen]

/-- The acknowledged block is reported corrupt and cannot be read. -/
theorem torn_tail_admitted :
    let session :=
      StepRun.after (stepSession sampleBlake3) initialSession
        tornTwiceHistory
    session.acknowledged = [oneByte] ∧
    (execute (getBlock sampleBlake3 (sampleBlake3 oneByte.bytes))
      session.node).1 = .error (.corrupt (sampleBlake3 oneByte.bytes)) ∧
    (execute (verifyAll sampleBlake3) session.node).1.toOption.map
      VerifyReport.corrupt = some [sampleBlake3 oneByte.bytes] ∧
    ∀ first ∈ involvedPayloads tornTwiceHistory,
      ∀ second ∈ involvedPayloads tornTwiceHistory,
        sampleBlake3 first.bytes = sampleBlake3 second.bytes →
          first = second := by
  decide +kernel

end KalpakDb
