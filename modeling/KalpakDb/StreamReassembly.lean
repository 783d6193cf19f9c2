import KalpakDb.CrashDurability
import KalpakDb.StoreCalls
import KalpakDb.StreamUploads

namespace KalpakDb.StreamUpload

/-!
# Streamed uploads are reassembled

The chunks that the client makes of a list of payloads are put together again
by the server.  It stores the payloads batch by batch in the order in which
they were sent; a batch that fails ends the upload.  A stream that is closed
within a block is rejected.
-/

open Contract

/-! ## What the client sends -/

/-- A payload is what its pieces are, one after the other. -/
theorem flatMap_pieces (payload : Payload) (count : Nat) :
    ((List.range count).map fun index =>
      slice payload (index * chunkBytes) chunkBytes).flatMap Payload.bytes =
      payload.bytes.take (count * chunkBytes) := by
  induction count with
  | zero =>
      rw [Nat.zero_mul]
      rfl
  | succ count inductionHypothesis =>
      rw [List.range_succ, List.map_append, List.flatMap_append,
        inductionHypothesis, Nat.succ_mul, List.take_add]
      simp [slice]

/-- The data of the chunks of a payload. -/
def payloadPieces (payload : Payload) : List Payload :=
  if payload.bytes.isEmpty then [noBytes] else pieces payload

theorem payloadChunks_eq (payload : Payload) :
    payloadChunks payload = marked (payloadPieces payload) := by
  unfold payloadChunks payloadPieces
  split <;> rfl

theorem payloadPieces_ne_nil (payload : Payload) :
    payloadPieces payload ≠ [] := by
  unfold payloadPieces
  split
  · exact List.cons_ne_nil _ _
  · rename_i nonempty
    intro nothing
    have count := List.range_eq_nil.mp (List.map_eq_nil_iff.mp nothing)
    have some : payload.bytes.length ≠ 0 :=
      fun zero => nonempty (List.isEmpty_iff.mpr (List.length_eq_zero_iff.mp zero))
    rw [chunkBytes_eq] at count
    omega

theorem flatMap_payloadPieces (payload : Payload) :
    (payloadPieces payload).flatMap Payload.bytes = payload.bytes := by
  unfold payloadPieces
  split
  · rename_i empty
    rw [List.isEmpty_iff.mp empty]
    rfl
  · rw [pieces, flatMap_pieces]
    refine List.take_of_length_le ?_
    rw [chunkBytes_eq]
    omega

theorem clientChunks_cons (payload : Payload) (rest : List Payload) :
    clientChunks (payload :: rest) =
      payloadChunks payload ++ clientChunks rest :=
  List.flatMap_cons

theorem length_marked (payloads : List Payload) :
    (marked payloads).length = payloads.length := by
  induction payloads with
  | nil =>
      rfl
  | cons payload rest inductionHypothesis =>
      rw [marked, List.length_cons, List.length_cons, inductionHypothesis]

/-! ## Reassembly -/

/-- The batches in which staged and further payloads are stored. -/
def batchesFrom :
    List Payload → Nat → List Payload → List (List Payload)
  | staged, _, [] => if staged.isEmpty then [] else [staged]
  | staged, stagedBytes, payload :: rest =>
      if stagedBytes + payload.bytes.length ≥ flushBytes ∨
          (staged ++ [payload]).length ≥ maxBatchBlocks then
        (staged ++ [payload]) :: batchesFrom [] 0 rest
      else
        batchesFrom (staged ++ [payload])
          (stagedBytes + payload.bytes.length) rest

/-- The batches of an upload. -/
def batches (payloads : List Payload) : List (List Payload) :=
  batchesFrom [] 0 payloads

/-- The batches are the payloads in their order. -/
theorem flatten_batchesFrom
    (staged : List Payload)
    (stagedBytes : Nat)
    (payloads : List Payload) :
    (batchesFrom staged stagedBytes payloads).flatten =
      staged ++ payloads := by
  induction payloads generalizing staged stagedBytes with
  | nil =>
      rw [batchesFrom]
      split
      · rename_i empty
        rw [List.isEmpty_iff.mp empty]
        rfl
      · simp
  | cons payload rest inductionHypothesis =>
      rw [batchesFrom]
      split
      · rw [List.flatten_cons, inductionHypothesis]
        simp
      · rw [inductionHypothesis]
        simp

section Store

variable {σ : Type} {server : Server}
  {flush : List Payload → Code σ Failure (List BlockId)} {upload : Upload}
  {chunk : Chunk} {session : Session σ}

/-- Batches are flushed one after the other. -/
def flushAll (flush : List Payload → Code σ Failure (List BlockId)) :
    List BlockId → List (List Payload) → Code σ Failure (List BlockId)
  | ids, [] => pure ids
  | ids, batch :: rest => do
      let more ← flush batch
      flushAll flush (ids ++ more) rest

/-- A failed flush is an internal error. -/
def outcome : Except Failure (List BlockId) → Except Status (List BlockId)
  | .ok ids => .ok ids
  | .error failure => .error (.internal failure)

/-- An upload goes on, if need be behind a flush. -/
def Session.settle
    (server : Server)
    (flush : List Payload → Code σ Failure (List BlockId))
    (accepted : Upload × Option (List Payload))
    (store : σ) : Session σ :=
  match accepted with
  | (next, none) => { stream := { upload := next }, store := store }
  | (next, some batch) =>
      let flushed := execute (flush batch) store
      { stream := Stream.step server
          { stage := .flushing batch false, upload := next }
          (.flushed flushed.1)
        store := flushed.2 }

theorem extend_eq
    {current data extended : Payload}
    (fits :
      ¬ data.bytes.length > server.maxBlockBytes - current.bytes.length)
    (isExtended : extended.bytes = current.bytes ++ data.bytes) :
    extend server current data fits = extended := by
  obtain ⟨bytes, bounded⟩ := extended
  dsimp only at isExtended
  subst isExtended
  rfl

/-- A chunk that the limits allow. -/
theorem Upload.accept_eq
    {current : Payload}
    (room : upload.chunkCount < maxStreamChunks)
    (few : upload.blockCount ≠ maxStreamBlocks)
    (isCurrent : current.bytes = upload.current.bytes ++ chunk.data.bytes)
    (fits : current.bytes.length ≤ server.maxBlockBytes) :
    upload.accept server chunk =
      let extended := { upload with
        chunkCount := upload.chunkCount + 1
        current := current
        blockOpen := !chunk.lastChunk }
      .ok (if chunk.lastChunk then
        extended.push current
      else
        (extended, none)) := by
  have length := congrArg List.length isCurrent
  rw [List.length_append] at length
  have allowed : ¬ chunk.data.bytes.length >
      server.maxBlockBytes - upload.current.bytes.length := by
    omega
  unfold Upload.accept
  dsimp only
  rw [if_neg (by omega), if_neg few, dif_neg allowed,
    extend_eq allowed isCurrent]

/-- What becomes of a chunk that is accepted. -/
theorem drive_accepted
    (flush : List Payload → Code σ Failure (List BlockId))
    (store : σ)
    {accepted : Upload × Option (List Payload)}
    (isAccepted : upload.accept server chunk = .ok accepted) :
    Session.drive server flush
        { stream := { upload := upload }, store := store } (.chunk chunk) =
      Session.settle server flush accepted store := by
  obtain ⟨next, batch⟩ := accepted
  cases batch <;>
    simp [Session.drive, Stream.step, isAccepted, Session.settle]

/-- A chunk that continues a block. -/
theorem drive_more
    (flush : List Payload → Code σ Failure (List BlockId))
    (store : σ)
    {piece current : Payload}
    (room : upload.chunkCount < maxStreamChunks)
    (few : upload.blockCount ≠ maxStreamBlocks)
    (isCurrent : current.bytes = upload.current.bytes ++ piece.bytes)
    (fits : current.bytes.length ≤ server.maxBlockBytes) :
    Session.drive server flush
        { stream := { upload := upload }, store := store }
        (.chunk { data := piece, lastChunk := false }) =
      { stream := { upload := { upload with
          chunkCount := upload.chunkCount + 1
          current := current
          blockOpen := true } }
        store := store } := by
  have accepted := Upload.accept_eq room few
    (show current.bytes =
      upload.current.bytes ++ (Chunk.mk piece false).data.bytes
      from isCurrent) fits
  exact drive_accepted flush store accepted

/-- The chunk that completes a block. -/
theorem drive_last
    (flush : List Payload → Code σ Failure (List BlockId))
    (store : σ)
    {piece block : Payload}
    (room : upload.chunkCount < maxStreamChunks)
    (few : upload.blockCount ≠ maxStreamBlocks)
    (isBlock : block.bytes = upload.current.bytes ++ piece.bytes)
    (fits : block.bytes.length ≤ server.maxBlockBytes) :
    Session.drive server flush
        { stream := { upload := upload }, store := store }
        (.chunk { data := piece, lastChunk := true }) =
      Session.settle server flush
        ({ upload with
          chunkCount := upload.chunkCount + 1
          blockOpen := false }.push block) store := by
  have accepted := Upload.accept_eq room few
    (show block.bytes =
      upload.current.bytes ++ (Chunk.mk piece true).data.bytes
      from isBlock) fits
  exact drive_accepted flush store accepted

/-- The chunks of a block complete it. -/
theorem drive_marked
    (flush : List Payload → Code σ Failure (List BlockId))
    (store : σ)
    {pieces : List Payload}
    {block : Payload}
    (some : pieces ≠ [])
    (room : upload.chunkCount + pieces.length ≤ maxStreamChunks)
    (few : upload.blockCount ≠ maxStreamBlocks)
    (isBlock :
      block.bytes = upload.current.bytes ++ pieces.flatMap Payload.bytes)
    (fits : block.bytes.length ≤ server.maxBlockBytes) :
    StepRun.after (Session.drive server flush)
        { stream := { upload := upload }, store := store }
        ((marked pieces).map .chunk) =
      Session.settle server flush
        ({ upload with
          chunkCount := upload.chunkCount + pieces.length
          blockOpen := false }.push block) store := by
  induction pieces generalizing upload with
  | nil =>
      exact absurd rfl some
  | cons piece rest inductionHypothesis =>
      rw [List.length_cons] at room
      rw [marked, List.map_cons, StepRun.after_cons]
      cases rest with
      | nil =>
          refine drive_last flush store (by omega) few ?_ fits
          simpa using isBlock
      | cons next rest =>
          have length := congrArg List.length isBlock
          rw [List.flatMap_cons, ← List.append_assoc, List.length_append]
            at length
          have bounded := block.length_lt
          let current : Payload :=
            ⟨upload.current.bytes ++ piece.bytes, by omega⟩
          rw [List.isEmpty_cons, drive_more flush store (by omega) few
            (show current.bytes = _ from rfl)
            (show current.bytes.length ≤ _ by dsimp only [current]; omega)]
          have later := inductionHypothesis (List.cons_ne_nil next rest)
            (show ({ upload with
              chunkCount := upload.chunkCount + 1
              current := current
              blockOpen := true } : Upload).chunkCount +
                (next :: rest).length ≤ maxStreamChunks by
              dsimp only
              omega) few
            (by
              rw [isBlock, List.flatMap_cons, ← List.append_assoc])
          have count : upload.chunkCount + (piece :: next :: rest).length =
              upload.chunkCount + 1 + (next :: rest).length := by
            simp only [List.length_cons]
            omega
          rw [later, count]
          rfl

/-- The chunks of a payload complete it. -/
theorem drive_payload
    (flush : List Payload → Code σ Failure (List BlockId))
    (store : σ)
    {payload : Payload}
    (room :
      upload.chunkCount + (payloadChunks payload).length ≤ maxStreamChunks)
    (few : upload.blockCount ≠ maxStreamBlocks)
    (between : upload.current = noBytes)
    (fits : payload.bytes.length ≤ server.maxBlockBytes) :
    StepRun.after (Session.drive server flush)
        { stream := { upload := upload }, store := store }
        ((payloadChunks payload).map .chunk) =
      Session.settle server flush
        ({ upload with
          chunkCount := upload.chunkCount + (payloadChunks payload).length
          blockOpen := false }.push payload) store := by
  rw [payloadChunks_eq, length_marked] at room ⊢
  refine drive_marked flush store (payloadPieces_ne_nil payload) room few ?_
    fits
  rw [between, flatMap_payloadPieces]
  rfl

/-- Nothing happens to an upload that is finished. -/
theorem drive_finished
    (flush : List Payload → Code σ Failure (List BlockId))
    {result : Except Status (List BlockId)}
    (finished : session.stream.stage = .finished result)
    (event : Event) :
    session.drive server flush event = session := by
  obtain ⟨⟨stage, upload⟩, store⟩ := session
  cases finished
  cases event <;> rfl

theorem after_finished
    (flush : List Payload → Code σ Failure (List BlockId))
    {result : Except Status (List BlockId)}
    (finished : session.stream.stage = .finished result)
    (events : List Event) :
    StepRun.after (Session.drive server flush) session events = session := by
  induction events with
  | nil =>
      rfl
  | cons event rest inductionHypothesis =>
      rw [StepRun.after_cons, drive_finished flush finished,
        inductionHypothesis]

/-- An upload has ended with a result and left a store behind. -/
def Session.Ended
    (session : Session σ)
    (ending : Except Failure (List BlockId) × σ) : Prop :=
  session.stream.stage = .finished (outcome ending.1) ∧
    session.store = ending.2

/-- Closing a stream in between two blocks flushes what is staged. -/
theorem drive_closed
    (flush : List Payload → Code σ Failure (List BlockId))
    (store : σ)
    (between : upload.blockOpen = false) :
    (Session.drive server flush
      { stream := { upload := upload }, store := store } .closed).Ended
      (execute (flushAll flush upload.ids
        (batchesFrom upload.blocks upload.stagedBytes [])) store) := by
  rw [batchesFrom]
  cases isEmpty : upload.blocks.isEmpty with
  | true =>
      simp [Session.drive, Stream.step, Upload.close, between, isEmpty,
        Session.Ended, flushAll, execute_pure, outcome]
  | false =>
      have closed : upload.close =
          { stage := .flushing upload.blocks true
            upload := { upload with blocks := [] } } := by
        simp [Upload.close, between, isEmpty]
      simp only [Session.drive, Stream.step, closed, Session.Ended,
        Bool.false_eq_true, if_false, flushAll, execute_bind]
      rcases execute (flush upload.blocks) store with ⟨error | ids, final⟩ <;>
        exact ⟨rfl, rfl⟩

/-- The payloads of a stream are stored batch by batch. -/
theorem drive_payloads
    (flush : List Payload → Code σ Failure (List BlockId))
    (store : σ)
    {payloads : List Payload}
    (room :
      upload.chunkCount + (clientChunks payloads).length ≤ maxStreamChunks)
    (few : upload.blockCount + payloads.length ≤ maxStreamBlocks)
    (between : upload.current = noBytes ∧ upload.blockOpen = false)
    (fits :
      ∀ payload ∈ payloads, payload.bytes.length ≤ server.maxBlockBytes) :
    (StepRun.after (Session.drive server flush)
      { stream := { upload := upload }, store := store }
      ((clientChunks payloads).map .chunk ++ [.closed])).Ended
      (execute (flushAll flush upload.ids
        (batchesFrom upload.blocks upload.stagedBytes payloads)) store) := by
  induction payloads generalizing upload store with
  | nil =>
      exact drive_closed flush store between.2
  | cons payload rest inductionHypothesis =>
      obtain ⟨payloadFits, restFits⟩ := List.forall_mem_cons.mp fits
      rw [List.length_cons] at few
      rw [clientChunks_cons, List.length_append] at room
      rw [clientChunks_cons, List.map_append, List.append_assoc, StepRun.after_append,
        drive_payload flush store (by omega) (by omega) between.1 payloadFits,
        batchesFrom, Upload.push]
      dsimp only
      split
      · rw [flushAll, execute_bind]
        dsimp only [Session.settle]
        rcases execute (flush (upload.blocks ++ [payload])) store with
          ⟨error | ids, final⟩
        · rw [after_finished flush rfl]
          exact ⟨rfl, rfl⟩
        · exact inductionHypothesis final (by dsimp only [Stream.step]; omega)
            (by dsimp only; omega) ⟨rfl, rfl⟩ restFits
      · exact inductionHypothesis store (by dsimp only; omega)
          (by dsimp only; omega) ⟨rfl, rfl⟩ restFits

/-! ## Streams that end within a block -/

/-- What the chunks received so far leave open. -/
def Session.Awaits (session : Session σ) (last : Option Chunk) : Prop :=
  (∃ status, session.stream.stage = .finished (.error status)) ∨
    session.stream.stage = .receiving ∧
      ∀ chunk ∈ last, session.stream.upload.blockOpen = !chunk.lastChunk

theorem Upload.push_blockOpen (upload : Upload) (block : Payload) :
    (upload.push block).1.blockOpen = upload.blockOpen := by
  unfold Upload.push
  dsimp only
  split <;> rfl

theorem Upload.accept_blockOpen
    {accepted : Upload × Option (List Payload)}
    (isAccepted : upload.accept server chunk = .ok accepted) :
    accepted.1.blockOpen = !chunk.lastChunk := by
  unfold Upload.accept at isAccepted
  dsimp only at isAccepted
  split at isAccepted
  · cases isAccepted
  · split at isAccepted
    · cases isAccepted
    · split at isAccepted
      · cases isAccepted
      · rw [← Except.ok.inj isAccepted]
        split
        · exact Upload.push_blockOpen _ _
        · rfl

/-- A chunk leaves its block open unless it is the last one of it. -/
theorem drive_chunk_awaits
    (server : Server)
    (flush : List Payload → Code σ Failure (List BlockId))
    {last : Option Chunk}
    (awaits : session.Awaits last)
    (chunk : Chunk) :
    (session.drive server flush (.chunk chunk)).Awaits (some chunk) := by
  rcases awaits with ⟨status, finished⟩ | ⟨receiving, -⟩
  · rw [drive_finished flush finished]
    exact Or.inl ⟨status, finished⟩
  · obtain ⟨⟨stage, upload⟩, store⟩ := session
    cases receiving
    cases accepted : upload.accept server chunk with
    | error status =>
        refine Or.inl ⟨status, ?_⟩
        simp [Session.drive, Stream.step, accepted]
    | ok accepted' =>
        have isOpen := Upload.accept_blockOpen accepted
        rw [drive_accepted flush store accepted]
        obtain ⟨next, batch⟩ := accepted'
        cases batch with
        | none =>
            exact Or.inr ⟨rfl, fun _ isLast => Option.some.inj isLast ▸ isOpen⟩
        | some batch =>
            dsimp only [Session.settle]
            rcases execute (flush batch) store with ⟨error | ids, final⟩
            · exact Or.inl ⟨_, rfl⟩
            · exact Or.inr
                ⟨rfl, fun _ isLast => Option.some.inj isLast ▸ isOpen⟩

theorem after_chunks_awaits
    (server : Server)
    (flush : List Payload → Code σ Failure (List BlockId))
    {last : Option Chunk}
    (chunks : List Chunk)
    (awaits : session.Awaits last) :
    (StepRun.after (Session.drive server flush) session
      (chunks.map .chunk)).Awaits (chunks.getLast?.or last) := by
  induction chunks generalizing session last with
  | nil =>
      exact awaits
  | cons chunk rest inductionHypothesis =>
      have later := inductionHypothesis
        (drive_chunk_awaits server flush awaits chunk)
      rw [List.map_cons, StepRun.after_cons, List.getLast?_cons]
      cases isLast : rest.getLast? with
      | none =>
          rw [isLast] at later
          exact later
      | some final =>
          rw [isLast] at later
          exact later

/-- A stream that is closed within a block is rejected. -/
theorem putBlocks_open
    (server : Server)
    (flush : List Payload → Code σ Failure (List BlockId))
    (store : σ)
    {chunks : List Chunk}
    (isLast : chunks.getLast? = some chunk)
    (incomplete : chunk.lastChunk = false) :
    ∃ status,
      (putBlocks server flush chunks store).stream.stage =
        .finished (.error status) := by
  rw [putBlocks, StepRun.after_append, StepRun.after_cons, StepRun.after_nil]
  have awaits := after_chunks_awaits server flush chunks
    (show Session.Awaits { store := store } none from Or.inr ⟨rfl, nofun⟩)
  rw [isLast] at awaits
  rcases awaits with ⟨status, finished⟩ | ⟨receiving, isOpen⟩
  · rw [drive_finished flush finished]
    exact ⟨status, finished⟩
  · have stillOpen := isOpen chunk rfl
    rw [incomplete] at stillOpen
    refine ⟨.endedMidBlock, ?_⟩
    simp [Session.drive, Stream.step, receiving, Upload.close, stillOpen]

end Store

/-! ## The tiered store -/

section Tiers

variable {blake3 : Bytes → BlockId}

/-- A node holds the blocks of another one and some more. -/
def Holds
    (node final : TieredNode)
    (ids : List BlockId) : Prop :=
  ∀ id : BlockId,
    id ∈ final.cold.store.index ↔ id ∈ node.cold.store.index ∨ id ∈ ids

/-- Repairs of blocks that are held add no others. -/
theorem ends_repairs
    (node : TieredNode)
    {middle : TieredNode}
    {ids : List BlockId}
    {entries : List (BlockId × Payload)}
    (holds : Holds node middle ids)
    (listed : ∀ entry ∈ entries, entry.1 ∈ ids) :
    Ends
      (entries.foldlM
        (fun _ entry => do
          let _ ← TieredStore.repair blake3 entry.1 entry.2) ())
      middle (fun _ final => Holds node final ids) (fun _ _ => True) := by
  refine (ends_foldlM (fun _ rest state =>
    Holds node state ids ∧ ∀ entry ∈ rest, entry.1 ∈ ids) ?_
    ⟨holds, listed⟩).imp fun _ _ kept => kept.1
  rintro - entry rest state ⟨held, restListed⟩
  obtain ⟨isListed, others⟩ := List.forall_mem_cons.mp restListed
  simp only [TieredStore.repair, onCold, ends_bind, ends_within,
    changeTiers, ends_modify, ends_pure]
  refine (ends_repair_any entry.1 entry.2).mono ?_ (fun _ _ _ => trivial)
  rintro - cold ⟨-, published⟩
  refine ⟨fun id => ?_, others⟩
  rw [published id, held id]
  constructor
  · rintro (present | rfl)
    · exact present
    · exact Or.inr isListed
  · exact Or.inl

theorem ends_flushTiered
    (node : TieredNode)
    (replicas : Nat)
    (blocks : List Payload) :
    Ends (flushTiered blake3 replicas blocks) node
      (fun ids final =>
        ids = blocks.map (fun block => blake3 block.bytes) ∧
          Holds node final ids)
      (fun _ _ => True) := by
  simp only [flushTiered, TieredStore.putMany, onCold, ends_bind,
    ends_within, changeTiers, ends_modify, ends_pure, KalpakDb.putMany]
  refine (ends_putManyInner_any blocks false).mono ?_ (fun _ _ _ => trivial)
  rintro _ cold ⟨rfl, published⟩
  split
  · rw [ends_bind]
    refine Ends.imp (ends_repairs node ?_ ?_) fun _ _ holds => ⟨rfl, holds⟩
    · exact published
    · exact fun entry member => (List.of_mem_zip member).1
  · exact ⟨rfl, published⟩

theorem ends_flushAll
    (blake3 : Bytes → BlockId)
    (node : TieredNode)
    (replicas : Nat)
    (ids : List BlockId)
    (batches : List (List Payload)) :
    Ends (flushAll (flushTiered blake3 replicas) ids batches) node
      (fun all final =>
        all = ids ++
            batches.flatten.map (fun block => blake3 block.bytes) ∧
          Holds node final
            (batches.flatten.map fun block => blake3 block.bytes))
      (fun _ _ => True) := by
  induction batches generalizing node ids with
  | nil =>
      rw [flushAll, ends_pure]
      exact ⟨(List.append_nil ids).symm, fun id => by simp⟩
  | cons batch rest inductionHypothesis =>
      rw [flushAll, ends_bind]
      refine (ends_flushTiered node replicas batch).imp ?_
      rintro _ middle ⟨rfl, holds⟩
      refine (inductionHypothesis middle _).imp ?_
      rintro _ final ⟨rfl, holdsMore⟩
      refine ⟨by simp, fun id => ?_⟩
      rw [holdsMore id, holds id]
      simp [or_assoc]

end Tiers

/-! ## Uploads -/

/--
The stream that a client sends is stored payload by payload, in batches whose
order is that of the payloads, and its result are their addresses.  No stream
makes the server buffer more than its reservation, and none that ends within
a block is accepted.
-/
theorem streamed_uploads_reassemble
    (server : Server)
    (blake3 : Bytes → BlockId) :
    (∀ (replicas : Nat) (payloads : List Payload) (node : TieredNode),
      payloads.length ≤ 4096 →
      (∀ payload ∈ payloads,
        payload.bytes.length ≤ server.maxBlockBytes) →
      (clientChunks payloads).length ≤ 65536 →
      let session := putBlocks server (flushTiered blake3 replicas)
        (clientChunks payloads) node
      let flushed := execute
        (flushAll (flushTiered blake3 replicas) [] (batches payloads)) node
      (batches payloads).flatten = payloads ∧
        session.stream.stage = .finished (outcome flushed.1) ∧
        session.store = flushed.2 ∧
        ∀ ids, flushed.1 = .ok ids →
          ids = payloads.map (fun payload => blake3 payload.bytes) ∧
            ∀ id : BlockId,
              id ∈ session.store.cold.store.index ↔
                id ∈ node.cold.store.index ∨ id ∈ ids) ∧
    (∀ events : List Event,
      let stream := StepRun.after (Stream.step server) {} events
      stream.buffered ≤ server.maxBlockBytes + 64 * 1024 * 1024 ∧
        stream.buffered ≤ server.uploads.reservation * (1024 * 1024)) ∧
    ∀ (σ : Type) (flush : List Payload → Code σ Failure (List BlockId))
      (store : σ) (chunks : List Chunk) (chunk : Chunk),
      chunks.getLast? = some chunk →
      chunk.lastChunk = false →
      ∃ status,
        (putBlocks server flush chunks store).stream.stage =
          .finished (.error status) := by
  refine ⟨?_, ?_, ?_⟩
  · intro replicas payloads node few fits room session flushed
    have inOrder : (batches payloads).flatten = payloads :=
      flatten_batchesFrom [] 0 payloads
    obtain ⟨finished, stored⟩ : session.Ended flushed :=
      drive_payloads (flushTiered blake3 replicas) node
        (show 0 + (clientChunks payloads).length ≤ maxStreamChunks by
          rwa [Nat.zero_add])
        (show 0 + payloads.length ≤ maxStreamBlocks by rwa [Nat.zero_add])
        ⟨rfl, rfl⟩ fits
    refine ⟨inOrder, finished, stored, ?_⟩
    intro ids succeeded
    have all := ends_flushAll blake3 node replicas [] (batches payloads)
    rw [inOrder] at all
    have ended : execute
        (flushAll (flushTiered blake3 replicas) [] (batches payloads)) node =
        (.ok ids, flushed.2) := Prod.ext succeeded rfl
    obtain ⟨isIds, holds⟩ := (ends_of_ok ended).mp all
    rw [List.nil_append] at isIds
    refine ⟨isIds, ?_⟩
    rw [stored, isIds]
    exact holds
  · intro events stream
    have within := (bounded_after server events).buffered_le
    obtain ⟨covers, -, -⟩ := server.reservation_covers
    exact ⟨within, within.trans covers⟩
  · intro σ flush store chunks chunk isLast incomplete
    exact putBlocks_open server flush store isLast incomplete

/-- A server with the default limit of 256 MiB. -/
def defaultServer : Server where
  maxBlockBytes := 256 * 1024 * 1024
  uploads := { permits := 512, reservation := 320 }
  started := by decide +kernel

/-- BLAKE3 on the payloads of the sample blocks. -/
def blankBlake3 (bytes : Bytes) : BlockId :=
  if bytes = [] then
    ⟨[175, 19, 73, 185, 245, 249, 161, 166, 160, 64, 77, 234, 54, 220, 201,
      73, 155, 203, 37, 201, 173, 193, 18, 183, 204, 154, 147, 202, 228, 31,
      50, 98], by decide⟩
  else
    sampleBlake3 bytes

/-- A server whose store has just been opened. -/
def freshNode : TieredNode :=
  ⟨.new 65536, (execute (openWithRoll 4096) {}).2⟩

/-- Two blocks, one of them empty, and a stream without its last chunk. -/
theorem streamed_uploads_reassemble_pair :
    (putBlocks defaultServer (flushTiered blankBlake3 2)
        (clientChunks [oneByte, noBytes]) freshNode).stream.stage =
        .finished (.ok [blankBlake3 [1], blankBlake3 []]) ∧
      (∀ id : BlockId,
        id ∈ (putBlocks defaultServer (flushTiered blankBlake3 2)
            (clientChunks [oneByte, noBytes])
            freshNode).store.cold.store.index ↔
          id ∈ freshNode.cold.store.index ∨
            id ∈ [blankBlake3 [1], blankBlake3 []]) ∧
      ∃ status,
        (putBlocks defaultServer (flushTiered blankBlake3 2)
          [{ data := oneByte, lastChunk := false }]
          freshNode).stream.stage = .finished (.error status) := by
  have ok : (execute (flushAll (flushTiered blankBlake3 2) []
      (batches [oneByte, noBytes])) freshNode).1 =
      .ok [blankBlake3 [1], blankBlake3 []] := by
    decide +kernel
  obtain ⟨stored, -, rejected⟩ :=
    streamed_uploads_reassemble defaultServer blankBlake3
  have upload := stored 2 [oneByte, noBytes] freshNode (by decide)
    (by decide) (by decide)
  dsimp only at upload
  rw [ok] at upload
  obtain ⟨-, finished, -, succeeded⟩ := upload
  exact ⟨finished, (succeeded _ rfl).2,
    rejected TieredNode (flushTiered blankBlake3 2) freshNode _
      { data := oneByte, lastChunk := false } rfl rfl⟩

end KalpakDb.StreamUpload
