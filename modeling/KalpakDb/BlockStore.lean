import KalpakDb.ByteFile
import KalpakDb.Contract
import KalpakDb.FiniteMap
import KalpakDb.Segment

namespace KalpakDb

/-!
# The block store

Blocks are appended to segment files and found through an in-memory index
that is rebuilt by scanning the segments on open.  The model keeps the
directory and the file contents apart, because an open handle goes on naming
its file after another one was renamed over the path.

Every I/O step may fail.  An environment that lets a step fail in the middle
of a write also chooses how many bytes reach the file.  A crash is such a
failure after which the process is gone and only the disk remains.
-/

open Std (ExtTreeMap)
open Contract (Code)

/-! ## The disk -/

/-- File contents; no file grows past the largest offset. -/
structure SegmentFile where
  bytes : Bytes
  length_lt : bytes.length < 2 ^ 63
  deriving DecidableEq

def SegmentFile.empty : SegmentFile := ⟨[], by decide⟩

/-- Write the given number of bytes of a batch, unless the file gets too long. -/
def SegmentFile.writePrefix?
    (file : SegmentFile)
    (budget : Nat)
    (writes : List (Nat × Bytes)) : Option SegmentFile :=
  let bytes := ByteFile.writePrefix budget writes file.bytes
  if bounded : bytes.length < 2 ^ 63 then some ⟨bytes, bounded⟩ else none

/--
File contents by handle, and the two kinds of directory entry: the segments
`seg-N.klpk` and the files `seg-N.klpk.compact` of unfinished rewrites.
-/
structure Disk where
  objects : List SegmentFile := []
  segments : ExtTreeMap Nat Nat := ∅
  temporaries : ExtTreeMap Nat Nat := ∅

inductive IoError where
  | failed
  | unexpectedEof
  | appendFailedPreviously
  deriving DecidableEq

/--
Why a call does not return its result.  The last two are not error values:
the call panics, or never returns.
-/
inductive Failure where
  | blockNotFound (id : BlockId)
  | corrupt (id : BlockId)
  | io (error : IoError)
  | panicked
  | diverged
  deriving DecidableEq

/-- An I/O failure: the steps before it, and the bytes its write still puts. -/
structure Fault where
  step : Nat
  written : Nat
  deriving DecidableEq

def defaultSegmentRollBytes : Nat := 256 * 1024 * 1024

/-- The in-memory part of a store; `files` holds the segment handles. -/
structure BlockStore where
  index : ExtTreeMap BlockId Location := ∅
  files : List Nat := []
  tail : Nat := 0
  rollBytes : Nat := defaultSegmentRollBytes
  writeFailed : Bool := false

/-- A process on its disk, and the I/O failure that lies ahead of it. -/
structure Node where
  disk : Disk := {}
  store : BlockStore := {}
  fault : Option Fault := none

/-- Code of the storage engine. -/
abbrev StorageM := Code Node Failure

/-! ## I/O steps -/

def ioStep : StorageM Unit := do
  match (← get).fault with
  | none => pure ()
  | some ⟨0, _⟩ =>
      modify fun node => { node with fault := none }
      throw (.io .failed)
  | some ⟨step + 1, written⟩ =>
      modify fun node => { node with fault := some ⟨step, written⟩ }

/-- How many bytes of a write reach the file. -/
def Node.writeBudget (node : Node) (writes : List (Nat × Bytes)) : Nat :=
  match node.fault with
  | some ⟨0, written⟩ => written
  | _ => ByteFile.totalBytes writes

def Node.setFile (node : Node) (handle : Nat) (file : SegmentFile) : Node :=
  { node with
    disk := { node.disk with
      objects := node.disk.objects.set handle file } }

def fileOf (handle : Nat) : StorageM SegmentFile := do
  match (← get).disk.objects[handle]? with
  | some file => pure file
  | none => throw .panicked

/-- Write a batch of records and flush it, as one operation. -/
def writeBatch (handle : Nat) (writes : List (Nat × Bytes)) :
    StorageM Unit := do
  let file ← fileOf handle
  let budget := (← get).writeBudget writes
  match file.writePrefix? budget writes with
  | none => throw (.io .failed)
  | some file =>
      modify fun node => node.setFile handle file
      ioStep

def readAt (handle offset count : Nat) : StorageM Bytes := do
  ioStep
  let file ← fileOf handle
  match ByteFile.readAt file.bytes offset count with
  | some bytes => pure bytes
  | none => throw (.io .unexpectedEof)

def fileLen (handle : Nat) : StorageM Nat := do
  ioStep
  let file ← fileOf handle
  pure file.bytes.length

def syncDir : StorageM Unit := ioStep

/-- A new empty file. -/
def createFile : StorageM Nat := do
  let handle := (← get).disk.objects.length
  modify fun node =>
    { node with
      disk := { node.disk with
        objects := node.disk.objects ++ [.empty] } }
  pure handle

/-- Open a segment file, creating it if absent. -/
def openSegment (segment : Nat) : StorageM Nat := do
  ioStep
  match (← get).disk.segments[segment]? with
  | some handle => pure handle
  | none =>
      let handle ← createFile
      modify fun node =>
        { node with
          disk := { node.disk with
            segments := node.disk.segments.insert segment handle } }
      pure handle

/-- Open the file of a rewrite, creating it if absent. -/
def openTemporary (segment : Nat) : StorageM Nat := do
  ioStep
  match (← get).disk.temporaries[segment]? with
  | some handle => pure handle
  | none =>
      let handle ← createFile
      modify fun node =>
        { node with
          disk := { node.disk with
            temporaries := node.disk.temporaries.insert segment handle } }
      pure handle

/-- Create the file of a rewrite, or empty the one a previous rewrite left. -/
def truncateTemporary (segment : Nat) : StorageM Unit := do
  let handle ← openTemporary segment
  modify fun node => node.setFile handle .empty

/-- Rename the file of a rewrite over its segment. -/
def renameTemporary (segment : Nat) : StorageM Unit := do
  ioStep
  match (← get).disk.temporaries[segment]? with
  | none => throw (.io .failed)
  | some handle =>
      modify fun node =>
        { node with
          disk := { node.disk with
            segments := node.disk.segments.insert segment handle
            temporaries := node.disk.temporaries.erase segment } }

/-! ## Opening -/

/-- What the scan of the segments has collected. -/
structure Recovered where
  index : ExtTreeMap BlockId Location := ∅
  files : List Nat := []
  tail : Nat := 0

/-- Scan one segment; a record found later replaces an earlier one. -/
def recoverSegment (recovered : Recovered) (segment : Nat) :
    StorageM Recovered := do
  let handle ← openSegment segment
  ioStep
  let file ← fileOf handle
  match scan segment file.bytes with
  | none => throw .diverged
  | some (located, tail) =>
      pure {
        index := recovered.index.insertMany located
        files := recovered.files ++ [handle]
        tail := tail }

def openWith : StorageM Unit := do
  let segments := (← get).disk.segments.keys
  let recovered ← segments.foldlM recoverSegment {}
  if recovered.files.isEmpty then
    let handle ← openSegment 0
    syncDir
    modify fun node =>
      { node with
        store := {
          index := recovered.index
          files := [handle]
          tail := 0 } }
  else
    modify fun node =>
      { node with
        store := {
          index := recovered.index
          files := recovered.files
          tail := recovered.tail } }

def openWithRoll (rollBytes : Nat) : StorageM Unit := do
  openWith
  modify fun node =>
    { node with store := { node.store with rollBytes := rollBytes } }

/-! ## Reading -/

section Hash

variable (blake3 : Bytes → BlockId)

/-- Fetch a block, verifying its digest before returning. -/
def getBlock (id : BlockId) : StorageM Bytes := do
  let store := (← get).store
  match store.index[id]? with
  | none => throw (.blockNotFound id)
  | some location =>
      match store.files[location.segment]? with
      | none => throw .panicked
      | some handle =>
          if location.payloadLen ≥ 2 ^ 63 then
            throw .panicked
          let payload ←
            readAt handle (location.offset + headerLen) location.payloadLen
          if blake3 payload ≠ id then
            throw (.corrupt id)
          pure payload

structure VerifyReport where
  blocksChecked : Nat := 0
  bytesChecked : Nat := 0
  corrupt : List BlockId := []
  unreadable : List BlockId := []
  deriving DecidableEq

def VerifyReport.isClean (report : VerifyReport) : Bool :=
  report.corrupt.isEmpty && report.unreadable.isEmpty

def verifyOne (report : VerifyReport) (id : BlockId) :
    StorageM VerifyReport := do
  match ← Contract.observe (getBlock blake3 id) with
  | .ok payload =>
      pure { report with
        blocksChecked := report.blocksChecked + 1
        bytesChecked := report.bytesChecked + payload.length }
  | .error (.corrupt id) =>
      pure { report with corrupt := report.corrupt ++ [id] }
  | .error .panicked => throw .panicked
  | .error .diverged => throw .diverged
  | .error _ =>
      pure { report with unreadable := report.unreadable ++ [id] }

/-- Re-read every indexed record and verify its digest. -/
def verifyAll : StorageM VerifyReport := do
  let ids := (← get).store.index.keys
  ids.foldlM (verifyOne blake3) {}

/-! ## Appending -/

/-- The records staged by a running batch. -/
structure Batch where
  active : Nat × Nat
  pending : List (Nat × Bytes) := []
  staged : List (BlockId × Location) := []
  rolled : Bool := false

/-- Write the staged records as one batch. -/
def flushPending (batch : Batch) : StorageM Unit := do
  if batch.pending.isEmpty then
    pure ()
  else
    writeBatch batch.active.2 batch.pending

/-- Seal the active segment and continue in a new one. -/
def rollSegment (batch : Batch) : StorageM Batch := do
  flushPending batch
  let segment := (← get).store.files.length
  let handle ← openSegment segment
  modify fun node =>
    { node with
      store := { node.store with
        files := node.store.files ++ [handle]
        tail := 0 } }
  pure { batch with
    active := (segment, handle)
    pending := []
    rolled := true }

/-- Whether a payload is already stored; a repair reads it to find out. -/
def isPresent (repair : Bool) (id : BlockId) : StorageM Bool := do
  if repair then
    match ← Contract.observe (getBlock blake3 id) with
    | .ok _ => pure true
    | .error .panicked => throw .panicked
    | .error .diverged => throw .diverged
    | .error _ => pure false
  else
    pure ((← get).store.index.contains id)

/-- Give a record its place behind the tail. -/
def stageRecord (batch : Batch) (id : BlockId) (payload : Payload) :
    StorageM Batch := do
  let record := encodeRecord id payload.bytes
  let offset := (← get).store.tail
  modify fun node =>
    { node with
      store := { node.store with tail := node.store.tail + record.length } }
  pure { batch with
    pending := batch.pending ++ [(offset, record)]
    staged := batch.staged ++ [(id, {
      segment := batch.active.1
      offset := offset
      payloadLen := payload.bytes.length })] }

/-- One payload of a batch: skipped if present, else staged. -/
def appendOne (repair : Bool) (batch : Batch) (payload : Payload) :
    StorageM Batch := do
  let id := blake3 payload.bytes
  let present ← isPresent blake3 repair id
  if present || batch.staged.any fun entry => entry.1 = id then
    pure batch
  else
    let store := (← get).store
    let record := encodeRecord id payload.bytes
    if store.tail + record.length > store.rollBytes ∧ store.tail > 0 then
      let batch ← rollSegment batch
      stageRecord batch id payload
    else
      stageRecord batch id payload

/-- The steps of a batch that the append guard covers. -/
def appendAll (payloads : List Payload) (repair : Bool) : StorageM Unit := do
  let files := (← get).store.files
  match files.getLast? with
  | none => throw .panicked
  | some handle =>
      let batch ← payloads.foldlM (appendOne blake3 repair)
        { active := (files.length - 1, handle) }
      flushPending batch
      if batch.rolled then
        syncDir
      modify fun node =>
        { node with
          store := { node.store with
            index := node.store.index.insertMany batch.staged } }

/-- An append that fails marks the store; later ones are then refused. -/
def putManyInner (payloads : List Payload) (repair : Bool) :
    StorageM (List BlockId) := do
  if (← get).store.writeFailed then
    throw (.io .appendFailedPreviously)
  Contract.onFailure
    (fun node =>
      { node with store := { node.store with writeFailed := true } })
    (appendAll blake3 payloads repair)
  pure (payloads.map fun payload => blake3 payload.bytes)

/-- Store a batch of payloads under a single flush. -/
def putMany (payloads : List Payload) : StorageM (List BlockId) :=
  putManyInner blake3 payloads false

/-- Store one payload, returning its content address. -/
def put (payload : Payload) : StorageM BlockId := do
  match ← putMany blake3 [payload] with
  | id :: _ => pure id
  | [] => throw .panicked

/-- Replace an unreadable record by appending a verified new one. -/
def repair (id : BlockId) (payload : Payload) : StorageM BlockId := do
  if blake3 payload.bytes ≠ id then
    throw (.corrupt id)
  match ← putManyInner blake3 [payload] true with
  | id :: _ => pure id
  | [] => throw .panicked

/-! ## Compaction -/

/-- The order in which a hash map happens to enumerate its entries. -/
structure IterationOrder where
  arrange : List (BlockId × Location) → List (BlockId × Location)
  arrange_perm : ∀ entries, (arrange entries).Perm entries

structure CompactStats where
  segmentsRewritten : Nat := 0
  blocksDropped : Nat := 0
  bytesReclaimed : Nat := 0
  deriving DecidableEq

/-- Copy one live record behind those already rewritten. -/
def rewriteRecord
    (old temporary segment : Nat)
    (rewritten : Nat × List (BlockId × Location))
    (entry : BlockId × Location) :
    StorageM (Nat × List (BlockId × Location)) := do
  if entry.2.payloadLen ≥ 2 ^ 63 then
    throw .panicked
  let payload ← readAt old (entry.2.offset + headerLen) entry.2.payloadLen
  if blake3 payload ≠ entry.1 then
    throw (.corrupt entry.1)
  let record := encodeRecord entry.1 payload
  writeBatch temporary [(rewritten.1, record)]
  pure (rewritten.1 + record.length, rewritten.2 ++ [(entry.1, {
    segment := segment
    offset := rewritten.1
    payloadLen := entry.2.payloadLen })])

/-- The handle and the index entries of a rewritten segment change together. -/
def BlockStore.swapSegment
    (store : BlockStore)
    (segment handle : Nat)
    (dropped moved : List (BlockId × Location)) : BlockStore :=
  { store with
    files := store.files.set segment handle
    index :=
      (FiniteMap.eraseAll store.index (dropped.map Prod.fst)).insertMany
        moved }

/-- Rewrite a sealed segment without its dead records. -/
def rewriteSegment
    (segment : Nat)
    (kept dropped : List (BlockId × Location))
    (stats : CompactStats) : StorageM CompactStats := do
  match (← get).store.files[segment]? with
  | none => throw .panicked
  | some old =>
      truncateTemporary segment
      let temporary ← openTemporary segment
      let (offset, moved) ←
        kept.foldlM (rewriteRecord blake3 old temporary segment) (0, [])
      ioStep
      let oldLen ← fileLen old
      let handle ← openTemporary segment
      renameTemporary segment
      modify fun node =>
        { node with
          store := node.store.swapSegment segment handle dropped moved }
      syncDir
      pure {
        segmentsRewritten := stats.segmentsRewritten + 1
        blocksDropped := stats.blocksDropped + dropped.length
        bytesReclaimed := stats.bytesReclaimed + (oldLen - offset) }

def compactSegment
    (live : BlockId → Bool)
    (order : IterationOrder)
    (stats : CompactStats)
    (segment : Nat) : StorageM CompactStats := do
  let index := (← get).store.index
  let entries := order.arrange
    (index.toList.filter fun entry => entry.2.segment = segment)
  let kept := entries.filter fun entry => live entry.1
  let dropped := entries.filter fun entry => !live entry.1
  if dropped.isEmpty then
    pure stats
  else
    rewriteSegment blake3 segment kept dropped stats

/-- Drop the dead records of every sealed segment. -/
def compact (live : BlockId → Bool) (order : IterationOrder) :
    StorageM CompactStats := do
  let sealedCount := (← get).store.files.length - 1
  (List.range sealedCount).foldlM (compactSegment blake3 live order) {}

end Hash

end KalpakDb
