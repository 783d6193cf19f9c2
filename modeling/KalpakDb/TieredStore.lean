import KalpakDb.BlockStore

namespace KalpakDb

/-!
# The tiered store

A warm cache and a map of pinned blocks in memory over the block store on
disk.  Uploads write through to disk, reads promote what they found there,
and a block whose cold record is damaged is quarantined until it is repaired.

The warm cache may forget entries at any time, so forgetting is an event of
its own.  Apart from that it returns for an address what was inserted last.
-/

open Std (ExtTreeMap ExtTreeSet)
open Contract (Code)

structure TieredStore where
  quarantined : ExtTreeSet BlockId := ∅
  warm : ExtTreeMap BlockId Bytes := ∅
  warmBudget : Nat
  pinned : ExtTreeMap BlockId Bytes := ∅
  pinnedBytes : Nat := 0
  pinnedBudget : Nat

/-- The pinned tier gets a quarter of the warm budget. -/
def TieredStore.new (warmBudgetBytes : Nat) : TieredStore where
  warmBudget := warmBudgetBytes
  pinnedBudget := warmBudgetBytes / 4

/-- The tiers of a process and the block store below them. -/
structure TieredNode where
  tiers : TieredStore
  cold : Node

/-- Code of the tiered store. -/
abbrev TieredM := Code TieredNode Failure

/-! ## Changing the tiers -/

namespace TieredStore

/-- A block larger than the whole budget skips the warm tier. -/
def warmInsert
    (tiers : TieredStore)
    (id : BlockId)
    (payload : Bytes) : TieredStore :=
  if payload.length ≤ tiers.warmBudget then
    { tiers with warm := tiers.warm.insert id payload }
  else
    tiers

/-- Take a block out of the pinned tier. -/
def unpin (tiers : TieredStore) (id : BlockId) : TieredStore :=
  match tiers.pinned[id]? with
  | none => tiers
  | some payload =>
      { tiers with
        pinned := tiers.pinned.erase id
        pinnedBytes := tiers.pinnedBytes - payload.length }

/-- The tiers no longer serve a block whose cold record is damaged. -/
def quarantine (tiers : TieredStore) (id : BlockId) : TieredStore :=
  { tiers with
    quarantined := tiers.quarantined.insert id
    warm := tiers.warm.erase id }.unpin id

def release (tiers : TieredStore) (id : BlockId) : TieredStore :=
  { tiers with quarantined := tiers.quarantined.erase id }

/-- The warm cache forgets some entries. -/
def evict (tiers : TieredStore) (ids : List BlockId) : TieredStore :=
  { tiers with warm := FiniteMap.eraseAll tiers.warm ids }

/-- Both tiers drop the blocks that the cold store no longer backs. -/
def sweep (tiers : TieredStore) (backed : BlockId → Bool) : TieredStore :=
  let swept :=
    (tiers.pinned.keys.filter fun id => !backed id).foldl unpin tiers
  swept.evict (swept.warm.keys.filter fun id => !backed id)

end TieredStore

/-! ## Operations -/

/-- Run code of the block store. -/
def onCold {α : Type} (code : StorageM α) : TieredM α :=
  Contract.within TieredNode.cold
    (fun cold node => { node with cold := cold }) code

def changeTiers (change : TieredStore → TieredStore) : TieredM Unit :=
  modify fun node => { node with tiers := change node.tiers }

namespace TieredStore

section Hash

variable (blake3 : Bytes → BlockId)

/-- Pinned blocks come first, then the warm cache; a cold hit is promoted. -/
def getBlock (id : BlockId) : TieredM Bytes := do
  let tiers := (← MonadState.get).tiers
  if tiers.quarantined.contains id then
    throw (.corrupt id)
  match tiers.pinned[id]? with
  | some payload => pure payload
  | none =>
      match tiers.warm[id]? with
      | some payload => pure payload
      | none =>
          let payload ← onCold (KalpakDb.getBlock blake3 id)
          changeTiers fun tiers => tiers.warmInsert id payload
          pure payload

/-- Pinning is advisory: it may find the budget exhausted. -/
def pin (id : BlockId) : TieredM Bool := do
  if (← MonadState.get).tiers.pinned.contains id then
    pure true
  else
    let payload ← getBlock blake3 id
    let tiers := (← MonadState.get).tiers
    if tiers.pinned.contains id then
      pure true
    else if tiers.pinnedBytes + payload.length > tiers.pinnedBudget then
      pure false
    else
      changeTiers fun tiers =>
        { tiers with
          pinned := tiers.pinned.insert id payload
          pinnedBytes := tiers.pinnedBytes + payload.length }
      pure true

/-- Write through to the cold store, then warm the block. -/
def put (payload : Payload) : TieredM BlockId := do
  let id ← onCold (KalpakDb.put blake3 payload)
  changeTiers fun tiers => tiers.warmInsert id payload.bytes
  pure id

/-- Store a batch, then warm every block of it. -/
def putMany (payloads : List Payload) : TieredM (List BlockId) := do
  let ids ← onCold (KalpakDb.putMany blake3 payloads)
  changeTiers fun tiers =>
    (ids.zip payloads).foldl
      (fun tiers entry => tiers.warmInsert entry.1 entry.2.bytes) tiers
  pure ids

def contains (node : TieredNode) (id : BlockId) : Bool :=
  !node.tiers.quarantined.contains id && node.cold.store.index.contains id

/-- Verify the cold bytes even where a warm or pinned copy masks damage. -/
def verifyCold (id : BlockId) : TieredM Unit := do
  match ← Contract.observe (onCold (KalpakDb.getBlock blake3 id)) with
  | .ok _ => changeTiers fun tiers => tiers.release id
  | .error (.blockNotFound missing) => throw (.blockNotFound missing)
  | .error .panicked => throw .panicked
  | .error .diverged => throw .diverged
  | .error failure =>
      changeTiers fun tiers => tiers.quarantine id
      throw failure

def repair (id : BlockId) (payload : Payload) : TieredM BlockId := do
  let _ ← onCold (KalpakDb.repair blake3 id payload)
  changeTiers fun tiers => (tiers.release id).warmInsert id payload.bytes
  pure id

/-- Compact the cold store, then sweep the tiers if a block was dropped. -/
def compact (live : BlockId → Bool) (order : IterationOrder) :
    TieredM CompactStats := do
  let stats ← onCold (KalpakDb.compact blake3 live order)
  if stats.blocksDropped > 0 then
    modify fun node =>
      { node with
        tiers := node.tiers.sweep node.cold.store.index.contains }
  pure stats

end Hash

end TieredStore

/-! ## Histories -/

/-- One call of the tiered store, or a moment at which the cache forgets. -/
inductive TieredOp where
  | put (payload : Payload)
  | putMany (payloads : List Payload)
  | get (id : BlockId)
  | pin (id : BlockId)
  | verifyCold (id : BlockId)
  | repair (id : BlockId) (payload : Payload)
  | compact (live : BlockId → Bool) (order : IterationOrder)
  | evict (ids : List BlockId)

/-- How a call ends, whatever it returns. -/
def TieredOp.perform
    (blake3 : Bytes → BlockId)
    (node : TieredNode) : TieredOp → TieredNode
  | .put payload =>
      (Contract.execute (TieredStore.put blake3 payload) node).2
  | .putMany payloads =>
      (Contract.execute (TieredStore.putMany blake3 payloads) node).2
  | .get id => (Contract.execute (TieredStore.getBlock blake3 id) node).2
  | .pin id => (Contract.execute (TieredStore.pin blake3 id) node).2
  | .verifyCold id =>
      (Contract.execute (TieredStore.verifyCold blake3 id) node).2
  | .repair id payload =>
      (Contract.execute (TieredStore.repair blake3 id payload) node).2
  | .compact live order =>
      (Contract.execute (TieredStore.compact blake3 live order) node).2
  | .evict ids => { node with tiers := node.tiers.evict ids }

/-- The environment decides which I/O failure lies ahead of a call. -/
def TieredNode.withFault
    (node : TieredNode)
    (fault : Option Fault) : TieredNode :=
  { node with cold := { node.cold with fault := fault } }

end KalpakDb
