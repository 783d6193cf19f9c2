import KalpakDb.StepRun
import KalpakDb.TieredStore

namespace KalpakDb.StreamUpload

/-!
# Streamed uploads

A client may upload blocks as a stream of chunks; the last chunk of a block is
marked.  The server collects the chunks of a block, stages the blocks that are
complete and stores them whenever enough of them, or enough bytes, have
gathered.  An upload is admitted only with a reservation for all that the
server may have to buffer for it.
-/

open Contract

def mib : Nat := 1024 * 1024

theorem mib_eq : mib = 1048576 := rfl

/-- The chunk size of the client. -/
def chunkBytes : Nat := 1024 * 1024

theorem chunkBytes_eq : chunkBytes = 1048576 := rfl

def flushBytes : Nat := 64 * 1024 * 1024

theorem flushBytes_eq : flushBytes = 67108864 := rfl

def maxStreamBlocks : Nat := 4096
def maxBatchBlocks : Nat := 256
def maxStreamChunks : Nat := 65536

/-! ## Admission -/

inductive BudgetError where
  | reservationOverflow
  | exceedsBudget
  deriving DecidableEq

/-- The permits of all uploads, and those of one; a permit is a MiB. -/
structure UploadBudget where
  permits : Nat
  reservation : Nat
  deriving DecidableEq

def checkedAdd (left right : Nat) : Option Nat :=
  if left + right < 2 ^ 64 then
    some (left + right)
  else
    none

/-- A full block and one batch of completed blocks, rounded up. -/
def reservedBytes (maxBlockBytes : Nat) : Option Nat :=
  (checkedAdd maxBlockBytes (64 * mib)).bind (checkedAdd · (mib - 1))

/-- Whole permits, and enough of them that only four uploads are active. -/
def UploadBudget.reserve : Option Nat → Except BudgetError UploadBudget
  | none => .error .reservationOverflow
  | some reserved =>
      if reserved / mib > 512 then
        .error .exceedsBudget
      else
        .ok { permits := 512, reservation := max (reserved / mib) 128 }

def UploadBudget.new (maxBlockBytes : Nat) :
    Except BudgetError UploadBudget :=
  UploadBudget.reserve (reservedBytes maxBlockBytes)

/-- A server does not start without the budget for its largest block. -/
structure Server where
  maxBlockBytes : Nat
  uploads : UploadBudget
  started : UploadBudget.new maxBlockBytes = .ok uploads

theorem checkedAdd_eq_some
    {left right sum : Nat}
    (checked : checkedAdd left right = some sum) :
    left + right = sum := by
  unfold checkedAdd at checked
  split at checked
  · exact Option.some.inj checked
  · cases checked

theorem UploadBudget.reserve_eq_ok
    {reserved : Option Nat}
    {budget : UploadBudget}
    (accepted : UploadBudget.reserve reserved = .ok budget) :
    ∃ bytes,
      reserved = some bytes ∧
        bytes / mib ≤ 512 ∧
        budget = { permits := 512, reservation := max (bytes / mib) 128 } := by
  cases reserved with
  | none =>
      cases accepted
  | some bytes =>
      unfold UploadBudget.reserve at accepted
      dsimp only at accepted
      by_cases tooLarge : bytes / mib > 512
      · rw [if_pos tooLarge] at accepted
        cases accepted
      · rw [if_neg tooLarge] at accepted
        exact ⟨bytes, rfl, not_lt.mp tooLarge,
          (Except.ok.inj accepted).symm⟩

/-- The reservation of an upload covers what it may buffer. -/
theorem Server.reservation_covers (server : Server) :
    server.maxBlockBytes + flushBytes ≤ server.uploads.reservation * mib ∧
      server.uploads.reservation ≤ server.uploads.permits ∧
      server.uploads.permits = 512 := by
  obtain ⟨bytes, isBytes, within, budget⟩ :=
    UploadBudget.reserve_eq_ok server.started
  obtain ⟨covered, isCovered, rounded⟩ := Option.bind_eq_some_iff.mp isBytes
  have sum := checkedAdd_eq_some isCovered
  have up := checkedAdd_eq_some rounded
  rw [budget, flushBytes_eq]
  rw [mib_eq] at sum up within ⊢
  dsimp only
  omega

theorem Server.maxBlockBytes_lt (server : Server) :
    server.maxBlockBytes < 2 ^ 30 := by
  obtain ⟨covers, within, permits⟩ := server.reservation_covers
  rw [mib_eq, flushBytes_eq] at covers
  omega

/-! ## The client -/

structure Chunk where
  data : Payload
  lastChunk : Bool
  deriving DecidableEq

def noBytes : Payload := ⟨[], by decide⟩

/-- A part of a payload. -/
def slice (payload : Payload) (start count : Nat) : Payload where
  bytes := (payload.bytes.drop start).take count
  length_lt := by
    have bounded := payload.length_lt
    rw [List.length_take, List.length_drop]
    omega

/-- `payload.chunks(CHUNK_BYTES)`. -/
def pieces (payload : Payload) : List Payload :=
  (List.range ((payload.bytes.length + (chunkBytes - 1)) / chunkBytes)).map
    fun index => slice payload (index * chunkBytes) chunkBytes

/-- The piece behind which there is none is marked. -/
def marked : List Payload → List Chunk
  | [] => []
  | piece :: rest =>
      { data := piece, lastChunk := rest.isEmpty } :: marked rest

def payloadChunks (payload : Payload) : List Chunk :=
  if payload.bytes.isEmpty then
    [{ data := noBytes, lastChunk := true }]
  else
    marked (pieces payload)

/-- The stream that `KalpakGrpcClient::put_blocks` sends. -/
def clientChunks (payloads : List Payload) : List Chunk :=
  payloads.flatMap payloadChunks

/-! ## The server -/

inductive Status where
  | tooManyChunks
  | tooManyBlocks
  | blockTooLarge (maxBlockBytes : Nat)
  | endedMidBlock
  | idle
  | broken
  | internal (failure : Failure)
  deriving DecidableEq

structure Upload where
  blocks : List Payload := []
  stagedBytes : Nat := 0
  current : Payload := noBytes
  ids : List BlockId := []
  blockCount : Nat := 0
  chunkCount : Nat := 0
  blockOpen : Bool := false

section Server

variable (server : Server)

/-- The current block, extended by a chunk that the limit allows. -/
def extend
    (current data : Payload)
    (fits :
      ¬ data.bytes.length > server.maxBlockBytes - current.bytes.length) :
    Payload where
  bytes := current.bytes ++ data.bytes
  length_lt := by
    have small := server.maxBlockBytes_lt
    have bounded := current.length_lt
    rw [List.length_append]
    omega

/-- A block is complete; it may complete a batch. -/
def Upload.push (upload : Upload) (block : Payload) :
    Upload × Option (List Payload) :=
  let stagedBytes := upload.stagedBytes + block.bytes.length
  let blocks := upload.blocks ++ [block]
  let pushed := { upload with
    blockCount := upload.blockCount + 1
    current := noBytes }
  if stagedBytes ≥ flushBytes ∨ blocks.length ≥ maxBatchBlocks then
    ({ pushed with blocks := [], stagedBytes := 0 }, some blocks)
  else
    ({ pushed with blocks := blocks, stagedBytes := stagedBytes }, none)

/-- One chunk; a batch that is complete has to be flushed. -/
def Upload.accept (upload : Upload) (chunk : Chunk) :
    Except Status (Upload × Option (List Payload)) :=
  let counted := { upload with chunkCount := upload.chunkCount + 1 }
  if counted.chunkCount > maxStreamChunks then
    .error .tooManyChunks
  else if upload.blockCount = maxStreamBlocks then
    .error .tooManyBlocks
  else if tooLarge :
      chunk.data.bytes.length >
        server.maxBlockBytes - upload.current.bytes.length then
    .error (.blockTooLarge server.maxBlockBytes)
  else
    let current := extend server upload.current chunk.data tooLarge
    let extended := { counted with
      current := current
      blockOpen := !chunk.lastChunk }
    .ok (if chunk.lastChunk then
      extended.push current
    else
      (extended, none))

/-- What the handler is doing; a batch is being flushed, maybe the last. -/
inductive Stage where
  | receiving
  | flushing (batch : List Payload) (closing : Bool)
  | finished (result : Except Status (List BlockId))

structure Stream where
  stage : Stage := .receiving
  upload : Upload := {}

inductive Event where
  | chunk (chunk : Chunk)
  | idle
  | broken
  | closed
  | flushed (result : Except Failure (List BlockId))

/-- The stream ends in between two chunks. -/
def Upload.close (upload : Upload) : Stream :=
  if upload.blockOpen then
    { stage := .finished (.error .endedMidBlock), upload := upload }
  else if upload.blocks.isEmpty then
    { stage := .finished (.ok upload.ids), upload := upload }
  else
    { stage := .flushing upload.blocks true
      upload := { upload with blocks := [] } }

/-- One step of `put_blocks`. -/
def Stream.step (stream : Stream) (event : Event) : Stream :=
  match stream.stage, event with
  | .receiving, .chunk chunk =>
      match stream.upload.accept server chunk with
      | .error status => { stream with stage := .finished (.error status) }
      | .ok (upload, none) => { stage := .receiving, upload := upload }
      | .ok (upload, some batch) =>
          { stage := .flushing batch false, upload := upload }
  | .receiving, .idle => { stream with stage := .finished (.error .idle) }
  | .receiving, .broken =>
      { stream with stage := .finished (.error .broken) }
  | .receiving, .closed => stream.upload.close
  | .flushing _ _, .flushed (.error failure) =>
      { stream with stage := .finished (.error (.internal failure)) }
  | .flushing _ closing, .flushed (.ok ids) =>
      let upload := { stream.upload with ids := stream.upload.ids ++ ids }
      { stage := if closing then .finished (.ok upload.ids) else .receiving
        upload := upload }
  | _, _ => stream

/-! ## Storing -/

section Store

variable {σ : Type} (flush : List Payload → Code σ Failure (List BlockId))

/-- The handler of a stream and the store it flushes to. -/
structure Session (σ : Type) where
  stream : Stream := {}
  store : σ

/-- An event, and the flush that it may call for. -/
def Session.drive (session : Session σ) (event : Event) : Session σ :=
  let stream := session.stream.step server event
  match stream.stage with
  | .flushing batch _ =>
      let flushed := execute (flush batch) session.store
      { stream := stream.step server (.flushed flushed.1)
        store := flushed.2 }
  | _ => { session with stream := stream }

/-- A whole stream of chunks that is closed by the client. -/
def putBlocks (chunks : List Chunk) (store : σ) : Session σ :=
  StepRun.after (Session.drive server flush) { store := store }
    (chunks.map .chunk ++ [.closed])

end Store

end Server

/-- The flush of a batch to the tiered store; replicated blocks are verified. -/
def flushTiered
    (blake3 : Bytes → BlockId)
    (replicas : Nat)
    (blocks : List Payload) : TieredM (List BlockId) := do
  let ids ← TieredStore.putMany blake3 blocks
  if replicas > 1 then
    (ids.zip blocks).foldlM
      (fun _ entry => do
        let _ ← TieredStore.repair blake3 entry.1 entry.2)
      ()
  pure ids

/-! ## What is buffered -/

def blockBytes (blocks : List Payload) : Nat :=
  (blocks.map fun block => block.bytes.length).sum

/-- The batch that is being flushed. -/
def Stage.batch : Stage → List Payload
  | .flushing batch _ => batch
  | _ => []

/-- The payload bytes in memory: staged, being flushed, or incomplete. -/
def Stream.buffered (stream : Stream) : Nat :=
  blockBytes stream.stage.batch + blockBytes stream.upload.blocks +
    stream.upload.current.bytes.length

section Bounds

variable {server : Server} {upload : Upload}

theorem blockBytes_append (blocks more : List Payload) :
    blockBytes (blocks ++ more) = blockBytes blocks + blockBytes more := by
  rw [blockBytes, List.map_append, List.sum_append]
  rfl

theorem blockBytes_singleton (block : Payload) :
    blockBytes [block] = block.bytes.length := by
  simp [blockBytes]

/-- Between two chunks less than a batch is staged. -/
structure Upload.Ready (server : Server) (upload : Upload) : Prop where
  staged : upload.stagedBytes = blockBytes upload.blocks
  below : upload.stagedBytes < flushBytes
  current : upload.current.bytes.length ≤ server.maxBlockBytes
  atEnd : upload.blockOpen = false → upload.current = noBytes

/-- What a batch leaves behind. -/
structure Upload.Emptied (upload : Upload) : Prop where
  blocks : upload.blocks = []
  current : upload.current = noBytes

/-- The buffer in each stage of an upload. -/
def Stream.Bounded (server : Server) (stream : Stream) : Prop :=
  match stream.stage with
  | .receiving => stream.upload.Ready server
  | .flushing batch closing =>
      blockBytes batch ≤ server.maxBlockBytes + flushBytes ∧
        stream.upload.Emptied ∧
        (closing = false → stream.upload.stagedBytes = 0)
  | .finished _ =>
      stream.buffered ≤ server.maxBlockBytes + flushBytes

theorem Upload.Ready.buffered_le
    (ready : upload.Ready server) :
    blockBytes upload.blocks + upload.current.bytes.length ≤
      server.maxBlockBytes + flushBytes := by
  have below := ready.below
  have current := ready.current
  rw [ready.staged] at below
  omega

theorem Upload.Emptied.blockBytes_eq
    (emptied : upload.Emptied) :
    blockBytes upload.blocks = 0 ∧ upload.current.bytes.length = 0 := by
  rw [emptied.blocks, emptied.current]
  exact ⟨rfl, rfl⟩

theorem Upload.Emptied.ready
    (emptied : upload.Emptied)
    (unstaged : upload.stagedBytes = 0) :
    upload.Ready server where
  staged := unstaged.trans emptied.blockBytes_eq.1.symm
  below := by
    rw [unstaged, flushBytes_eq]
    decide
  current := emptied.blockBytes_eq.2.symm ▸ Nat.zero_le _
  atEnd := fun _ => emptied.current

theorem Stream.Bounded.buffered_le
    {stream : Stream}
    (bounded : stream.Bounded server) :
    stream.buffered ≤ server.maxBlockBytes + flushBytes := by
  unfold Stream.Bounded at bounded
  split at bounded
  · rename_i receiving
    rw [Stream.buffered, receiving,
      show blockBytes Stage.receiving.batch = 0 from rfl, Nat.zero_add]
    exact bounded.buffered_le
  · rename_i batch closing flushing
    obtain ⟨within, emptied, -⟩ := bounded
    rw [Stream.buffered, flushing, Stage.batch, emptied.blockBytes_eq.1,
      emptied.blockBytes_eq.2]
    exact within
  · exact bounded

/-- A block is staged, or completes a batch of bounded size. -/
theorem Upload.push_cases
    {block : Payload}
    (staged : upload.stagedBytes = blockBytes upload.blocks)
    (below : upload.stagedBytes < flushBytes)
    (fits : block.bytes.length ≤ server.maxBlockBytes) :
    (∃ next, upload.push block = (next, none) ∧ next.Ready server) ∨
      ∃ next batch,
        upload.push block = (next, some batch) ∧
          blockBytes batch ≤ server.maxBlockBytes + flushBytes ∧
          next.Emptied ∧
          next.stagedBytes = 0 := by
  unfold Upload.push
  dsimp only
  split
  · refine Or.inr ⟨_, _, rfl, ?_, ⟨rfl, rfl⟩, rfl⟩
    rw [blockBytes_append, blockBytes_singleton, ← staged]
    omega
  · rename_i small
    refine Or.inl ⟨_, rfl, ?_, ?_, Nat.zero_le _, fun _ => rfl⟩
    · rw [blockBytes_append, blockBytes_singleton, ← staged]
    · exact not_le.mp fun full => small (Or.inl full)

theorem Upload.Ready.accept_cases
    (ready : upload.Ready server)
    (chunk : Chunk) :
    (∃ status, upload.accept server chunk = .error status) ∨
      (∃ next,
        upload.accept server chunk = .ok (next, none) ∧
          next.Ready server) ∨
      ∃ next batch,
        upload.accept server chunk = .ok (next, some batch) ∧
          blockBytes batch ≤ server.maxBlockBytes + flushBytes ∧
          next.Emptied ∧
          next.stagedBytes = 0 := by
  unfold Upload.accept
  dsimp only
  split
  · exact Or.inl ⟨_, rfl⟩
  · split
    · exact Or.inl ⟨_, rfl⟩
    · split
      · exact Or.inl ⟨_, rfl⟩
      · rename_i tooLarge
        have fits : (extend server upload.current chunk.data
            tooLarge).bytes.length ≤ server.maxBlockBytes := by
          have current := ready.current
          rw [extend, List.length_append]
          omega
        refine Or.inr ?_
        cases isLast : chunk.lastChunk with
        | false =>
            refine Or.inl ⟨_, rfl, ready.staged, ready.below, fits, ?_⟩
            intro closed
            cases closed
        | true =>
            let extended : Upload := { upload with
              chunkCount := upload.chunkCount + 1
              current := extend server upload.current chunk.data tooLarge
              blockOpen := false }
            have staged : extended.stagedBytes = blockBytes extended.blocks :=
              ready.staged
            rcases Upload.push_cases staged ready.below fits with
              ⟨next, pushed, nextReady⟩ |
              ⟨next, batch, pushed, bounded, emptied, unstaged⟩
            · exact Or.inl ⟨next, congrArg Except.ok pushed, nextReady⟩
            · exact Or.inr ⟨next, batch, congrArg Except.ok pushed, bounded,
                emptied, unstaged⟩

/-- The end of a stream, in between two chunks. -/
theorem Upload.Ready.close
    (ready : upload.Ready server) :
    upload.close.Bounded server := by
  have within := ready.buffered_le
  have finished : ∀ result,
      ({ stage := .finished result, upload := upload } : Stream).Bounded
        server := by
    intro result
    rw [← Nat.zero_add (blockBytes upload.blocks)] at within
    exact within
  unfold Upload.close
  split
  · exact finished _
  · rename_i complete
    split
    · exact finished _
    · refine ⟨?_, ⟨rfl, ready.atEnd (Bool.eq_false_iff.mpr complete)⟩, nofun⟩
      exact (Nat.le_add_right _ _).trans within

/-- Every event keeps the buffer bounded. -/
theorem Stream.Bounded.step
    {stream : Stream}
    (bounded : stream.Bounded server)
    (event : Event) :
    (stream.step server event).Bounded server := by
  have within := bounded.buffered_le
  obtain ⟨stage, upload⟩ := stream
  cases stage with
  | receiving =>
      have ready : upload.Ready server := bounded
      cases event with
      | chunk chunk =>
          rcases ready.accept_cases chunk with
            ⟨status, rejected⟩ | ⟨next, accepted, nextReady⟩ |
            ⟨next, batch, accepted, batchBounded, emptied, unstaged⟩
          · simp only [Stream.step, rejected]
            exact within
          · simp only [Stream.step, accepted]
            exact nextReady
          · simp only [Stream.step, accepted]
            exact ⟨batchBounded, emptied, fun _ => unstaged⟩
      | idle =>
          exact within
      | broken =>
          exact within
      | closed =>
          exact ready.close
      | flushed result =>
          exact bounded
  | flushing batch closing =>
      obtain ⟨batchBounded, emptied, unstaged⟩ := bounded
      have finished : ∀ result ids,
          ({ stage := .finished result
             upload := { upload with ids := ids } } : Stream).Bounded
            server := by
        intro result ids
        dsimp only [Stream.Bounded, Stream.buffered, Stage.batch]
        rw [emptied.blockBytes_eq.1, emptied.blockBytes_eq.2]
        exact Nat.zero_le _
      cases event with
      | flushed outcome =>
          cases outcome with
          | error failure =>
              exact finished _ upload.ids
          | ok ids =>
              cases closing with
              | true =>
                  exact finished _ _
              | false =>
                  have ready : ({ upload with
                      ids := upload.ids ++ ids } : Upload).Ready server :=
                    Upload.Emptied.ready ⟨emptied.blocks, emptied.current⟩
                      (unstaged rfl)
                  exact ready
      | _ =>
          exact ⟨batchBounded, emptied, unstaged⟩
  | finished result =>
      cases event <;> exact bounded

end Bounds

/-- Whatever happens to a stream, its buffer stays bounded. -/
theorem bounded_after (server : Server) (events : List Event) :
    (StepRun.after (Stream.step server) {} events).Bounded server := by
  refine StepRun.invariant_after (fun _ event bounded => bounded.step event)
    events ?_
  exact Upload.Emptied.ready ⟨rfl, rfl⟩ rfl

/-! ## All uploads of a server -/

/-- The permits left, the streams that hold some, and other requests. -/
structure Admissions where
  available : Nat
  streams : List Stream := []
  others : Nat := 0

/-- What happens to the uploads of a server. -/
inductive AdmissionEvent where
  | enter
  | stream (index : Nat) (event : Event)
  | release (index : Nat)
  | enterOther
  | releaseOther

/-- `try_acquire`: a reservation, or nothing. -/
def Admissions.tryAcquire
    (server : Server)
    (admissions : Admissions) : Option Admissions :=
  if server.uploads.reservation ≤ admissions.available then
    some { admissions with
      available := admissions.available - server.uploads.reservation }
  else
    none

def Admissions.step
    (server : Server)
    (admissions : Admissions) : AdmissionEvent → Admissions
  | .enter =>
      (admissions.tryAcquire server).elim admissions fun acquired =>
        { acquired with streams := acquired.streams ++ [{}] }
  | .stream index event =>
      { admissions with
        streams := admissions.streams.modify index
          (Stream.step server · event) }
  | .release index =>
      if index < admissions.streams.length then
        { admissions with
          available := admissions.available + server.uploads.reservation
          streams := admissions.streams.eraseIdx index }
      else
        admissions
  | .enterOther =>
      (admissions.tryAcquire server).elim admissions fun acquired =>
        { acquired with others := acquired.others + 1 }
  | .releaseOther =>
      if admissions.others = 0 then
        admissions
      else
        { admissions with
          available := admissions.available + server.uploads.reservation
          others := admissions.others - 1 }

/-- Every permit is available or held, and every buffer is bounded. -/
structure Admissions.Accounted
    (server : Server)
    (admissions : Admissions) : Prop where
  permits :
    admissions.available +
        (admissions.streams.length + admissions.others) *
          server.uploads.reservation = 512
  bounded : ∀ stream ∈ admissions.streams, stream.Bounded server

/-- One more holder, or one less. -/
theorem Admissions.Accounted.hold
    {server : Server}
    {admissions : Admissions}
    (accounted : admissions.Accounted server)
    (enough : server.uploads.reservation ≤ admissions.available) :
    admissions.available - server.uploads.reservation +
        (admissions.streams.length + admissions.others + 1) *
          server.uploads.reservation = 512 := by
  have permits := accounted.permits
  rw [Nat.add_mul, Nat.one_mul]
  omega

theorem Admissions.Accounted.release
    {server : Server}
    {admissions : Admissions}
    (accounted : admissions.Accounted server)
    {holders : Nat}
    (one : holders + 1 = admissions.streams.length + admissions.others) :
    admissions.available + server.uploads.reservation +
        holders * server.uploads.reservation = 512 := by
  have permits := accounted.permits
  rw [← one, Nat.add_mul, Nat.one_mul] at permits
  omega

theorem Admissions.Accounted.step
    {server : Server}
    {admissions : Admissions}
    (accounted : admissions.Accounted server)
    (event : AdmissionEvent) :
    (admissions.step server event).Accounted server := by
  cases event with
  | enter =>
      unfold Admissions.step Admissions.tryAcquire
      dsimp only
      split
      · rename_i enough
        refine ⟨?_, ?_⟩
        · have held := accounted.hold enough
          simp only [Option.elim_some, List.length_append,
            List.length_singleton]
          rwa [Nat.add_right_comm admissions.streams.length 1]
        · intro stream member
          rcases List.mem_append.mp member with before | isNew
          · exact accounted.bounded stream before
          · cases List.mem_singleton.mp isNew
            exact Upload.Emptied.ready ⟨rfl, rfl⟩ rfl
      · exact accounted
  | stream index event =>
      refine ⟨?_, ?_⟩
      · simp only [Admissions.step, List.length_modify]
        exact accounted.permits
      · intro stream member
        obtain ⟨position, present⟩ := List.mem_iff_getElem?.mp member
        simp only [Admissions.step, List.getElem?_modify] at present
        obtain ⟨before, isBefore, isStream⟩ :=
          Option.map_eq_some_iff.mp present
        have bounded :=
          accounted.bounded before (List.mem_of_getElem? isBefore)
        split at isStream
        · rw [← isStream]
          exact bounded.step event
        · rw [← isStream]
          exact bounded
  | release index =>
      unfold Admissions.step
      dsimp only
      split
      · rename_i present
        refine ⟨?_, ?_⟩
        · refine accounted.release ?_
          simp only [List.length_eraseIdx_of_lt present]
          omega
        · intro stream member
          exact accounted.bounded stream (List.mem_of_mem_eraseIdx member)
      · exact accounted
  | enterOther =>
      unfold Admissions.step Admissions.tryAcquire
      dsimp only
      split
      · rename_i enough
        exact ⟨accounted.hold enough, accounted.bounded⟩
      · exact accounted
  | releaseOther =>
      unfold Admissions.step
      dsimp only
      split
      · exact accounted
      · refine ⟨accounted.release ?_, accounted.bounded⟩
        dsimp only
        omega

/-- All streams together buffer no more than the budget of the server. -/
theorem total_buffered_le
    (server : Server)
    (events : List AdmissionEvent) :
    ((StepRun.after (Admissions.step server) { available := 512 }
      events).streams.map Stream.buffered).sum ≤ 512 * mib := by
  have accounted : (StepRun.after (Admissions.step server)
      { available := 512 } events).Accounted server :=
    StepRun.invariant_after
      (fun _ event accounted => accounted.step event) events
      ⟨by simp, nofun⟩
  generalize StepRun.after (Admissions.step server) { available := 512 }
    events = admissions at *
  have each : ∀ buffered ∈ admissions.streams.map Stream.buffered,
      buffered ≤ server.uploads.reservation * mib := by
    intro buffered member
    obtain ⟨stream, isStream, rfl⟩ := List.mem_map.mp member
    exact (accounted.bounded stream isStream).buffered_le.trans
      server.reservation_covers.1
  have total := List.sum_le_card_nsmul _ _ each
  have permits := accounted.permits
  rw [List.length_map, smul_eq_mul, ← Nat.mul_assoc] at total
  refine total.trans (Nat.mul_le_mul_right mib ?_)
  rw [Nat.add_mul] at permits
  omega

end KalpakDb.StreamUpload
