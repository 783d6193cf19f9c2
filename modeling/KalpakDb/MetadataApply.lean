import KalpakDb.Leases

namespace KalpakDb

/-!
# Applying committed log entries

The replicated state machine: agent registry, prefix bindings with exact
reference counts, replica requirements and lease requests, wrapped by the
fence that records the last log position at which a block's references may
have changed.
-/

open Std (ExtTreeMap ExtTreeSet)
open MachineWord

def maxBlockFences : Nat := 65536
def maxReplicaRequirements : Nat := 16384

/-! ## Binding one key -/

/-- Give one reference back; the last one removes the entry. -/
def releaseRef
    (refs : ExtTreeMap BlockId UInt32)
    (block : BlockId) : ExtTreeMap BlockId UInt32 :=
  match refs[block]? with
  | none => refs
  | some count =>
      let remaining := if count = 0 then 0 else count - 1
      if remaining = 0 then refs.erase block else refs.insert block remaining

/-- Take one reference.  The counter is 32 bits wide and wraps. -/
def addRef
    (refs : ExtTreeMap BlockId UInt32)
    (block : BlockId) : ExtTreeMap BlockId UInt32 :=
  refs.insert block (refs[block]?.getD 0 + 1)

/-- Rebinding first releases the old blocks of the key. -/
def rebindRefs
    (refs : ExtTreeMap BlockId UInt32)
    (old : Option BindingRecord)
    (blocks : List BlockId) : ExtTreeMap BlockId UInt32 :=
  blocks.foldl addRef
    (match old with
    | none => refs
    | some binding => binding.blocks.foldl releaseRef refs)

/-- Link a key below its declared parent once. -/
def linkChild
    (children : ExtTreeMap String (List String))
    (parent : Option String)
    (key : String) : ExtTreeMap String (List String) :=
  match parent with
  | none => children
  | some parent =>
      let kids := children[parent]?.getD []
      if kids.contains key then
        children
      else
        children.insert parent (kids ++ [key])

/-- After lease activation every binding mutation raises the key's fence. -/
def LeaseState.bumpRevision (leases : LeaseState) (key : String) : LeaseState :=
  if leases.initialized then
    { leases with
      revisions := leases.revisions.insert key
        (saturatingAdd (leases.revisions[key]?.getD 0) 1) }
  else
    leases

/-- The largest desired copy count ever requested for each block. -/
def raiseRequirements
    (requirements : ExtTreeMap BlockId UInt64)
    (blocks : List BlockId)
    (replicas : UInt64) : ExtTreeMap BlockId UInt64 :=
  blocks.foldl
    (fun next id =>
      let wanted := next[id]?.getD replicas
      next.insert id (if wanted < replicas then replicas else wanted))
    requirements

section Apply

variable (bindingKey : CacheKey → String)

def bindOne
    (state : MetadataState)
    (agent : AgentId)
    (key : CacheKey)
    (blocks : List BlockId)
    (parent : Option CacheKey) : MetadataState :=
  let keyText := bindingKey key
  { state with
    leases := state.leases.bumpRevision keyText
    blockRefs :=
      rebindRefs state.blockRefs state.bindings[keyText]? blocks
    bindings := state.bindings.insert keyText {
      agent := agent
      blocks := blocks }
    children := linkChild state.children (parent.map bindingKey) keyText }

/-- The links of a chain are bound in order. -/
def bindAll
    (state : MetadataState)
    (agent : AgentId)
    (bindings : List ChainBinding) : MetadataState :=
  bindings.foldl
    (fun current link =>
      bindOne bindingKey current agent link.key link.blocks link.parent)
    state

/-- Consume a lease; validation has already found its record. -/
def recordCommit
    (state : MetadataState)
    (lease : BlockId)
    (commit : LeaseCommit) : MetadataState :=
  { state with
    leases := { state.leases with
      records := state.leases.records.modify lease fun record =>
        { record with committed := some commit } } }

def applyUnfenced
    (state : MetadataState) : Request → MetadataState × Response
  | .renewUploadLease lease agent expectedGeneration ttlTicks =>
      renew state lease agent expectedGeneration ttlTicks
  | .advanceLeaseClock expectedTick =>
      advance state expectedTick
  | .expireUploadLease lease generation deadlineTick =>
      expire state lease generation deadlineTick
  | .cancelUploadLease lease agent =>
      cancel state lease agent
  | .beginUploadLease lease agent blocks =>
      reserve state lease agent blocks
  | .commitUploadLease lease agent binding expectedRevision =>
      match validateCommit bindingKey state lease agent binding
          expectedRevision with
      | .error message => (state, .rejected message)
      | .ok false => (state, .bound)
      | .ok true =>
          let bound :=
            bindOne bindingKey state agent binding.key binding.blocks
              binding.parent
          (recordCommit bound lease {
            binding := binding
            expectedRevision := expectedRevision }, .bound)
  | .requireReplicas blocks replicas =>
      if ¬ (2 ≤ replicas ∧ replicas ≤ 16) ∨ blocks.length > 4096 then
        (state, .rejected "invalid replica requirements")
      else
        let next :=
          raiseRequirements state.replicaRequirements blocks replicas
        if next.size > maxReplicaRequirements then
          (state, .rejected "replica requirement capacity exhausted")
        else
          ({ state with replicaRequirements := next }, .replicasRequired)
  | .registerAgent agent displayName =>
      ({ state with
        agents := state.agents.insert agent {
          displayName := displayName
          registeredAt := state.appliedIndex } },
        .registered)
  | .bindChain agent bindings =>
      (bindAll bindingKey state agent bindings, .bound)
  | .bindPrefix agent key blocks parent =>
      (bindOne bindingKey state agent key blocks parent, .bound)

/-! ## Reference fences -/

/-- The blocks a binding brings in, and those it would replace. -/
def touchBinding
    (state : MetadataState)
    (touched : ExtTreeSet BlockId)
    (key : CacheKey)
    (blocks : List BlockId) : ExtTreeSet BlockId :=
  let extended := touched.insertMany blocks
  match state.bindings[bindingKey key]? with
  | none => extended
  | some old => extended.insertMany old.blocks

/-- Every block whose references the request may change in this state. -/
def touchedBlocks
    (state : MetadataState) : Request → ExtTreeSet BlockId
  | .bindPrefix _ key blocks _ =>
      touchBinding bindingKey state ∅ key blocks
  | .bindChain _ bindings =>
      bindings.foldl
        (fun touched item =>
          touchBinding bindingKey state touched item.key item.blocks)
        ∅
  | .commitUploadLease _ _ binding _ =>
      touchBinding bindingKey state ∅ binding.key binding.blocks
  | .beginUploadLease _ _ blocks =>
      ExtTreeSet.insertMany ∅ blocks
  | .requireReplicas blocks _ =>
      ExtTreeSet.insertMany ∅ blocks
  | .renewUploadLease lease _ _ _ =>
      match state.leases.records[lease]? with
      | none => ∅
      | some record => ExtTreeSet.insertMany ∅ record.blocks
  | _ => ∅

/-- Fencing the touched blocks would exceed the capacity of the fence map. -/
def fencesExhausted
    (state : MetadataState)
    (touched : ExtTreeSet BlockId) : Bool :=
  state.blockFences.size +
      (touched.toList.filter fun id =>
        !state.blockFences.contains id).length >
    maxBlockFences

/-- Move the fence of every touched block to the current log position. -/
def fenceBlocks
    (state : MetadataState)
    (touched : ExtTreeSet BlockId) : MetadataState :=
  { state with
    blockFences := FiniteMap.insertAll state.blockFences touched.toList
      state.appliedIndex }

def applyOne
    (state : MetadataState)
    (request : Request) : MetadataState × Response :=
  let touched := touchedBlocks bindingKey state request
  if fencesExhausted state touched then
    (state, .rejected "block fence capacity exhausted")
  else
    let result := applyUnfenced bindingKey state request
    if result.2.isRejected then
      result
    else
      (fenceBlocks result.1 touched, result.2)

/-- One iteration of the apply loop. -/
def applyEntry
    (state : MetadataState)
    (entry : Entry) : MetadataState × Response :=
  let state := { state with lastApplied := some entry.logId }
  match entry.payload with
  | .blank => (state, .registered)
  | .normal request => applyOne bindingKey state request
  | .membership membership =>
      ({ state with
        membership := {
          logId := some entry.logId
          membership := membership } },
        .registered)

/-- Apply a batch of committed entries, collecting one reply for each. -/
def apply
    (state : MetadataState)
    (entries : List Entry) : MetadataState × List Response :=
  entries.foldl
    (fun progress entry =>
      let result := applyEntry bindingKey progress.1 entry
      (result.1, progress.2 ++ [result.2]))
    (state, [])

end Apply

/-! ## Local observations -/

/-- How many bindings reference a block. -/
def blockRefCount (state : MetadataState) (id : BlockId) : UInt32 :=
  state.blockRefs[id]?.getD 0

/-- Every block referenced by any binding: the collector's live set. -/
def boundBlocks (state : MetadataState) : ExtTreeSet BlockId :=
  ExtTreeSet.insertMany ∅
    ((FiniteMap.values state.bindings).flatMap BindingRecord.blocks)

end KalpakDb
