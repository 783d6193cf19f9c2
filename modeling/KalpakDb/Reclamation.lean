import KalpakDb.JsonValue
import KalpakDb.LeaseLifecycle
import KalpakDb.ReferenceFences
import KalpakDb.RetentionJournal

namespace KalpakDb.Reclamation

/-!
# The reclamation dry run

A report about a block puts together what the local metadata, the local
retention journal and the storage directory say about it.  A dry run compares
three values of the report with expected ones: the storage generation, the
journal generation of the block and its reference fence.  It never releases
anything.  Two dry runs against the same expected values enclose no change of
the references to the block and no admitted write of it.
-/

open Retention (History historyBefore)
open Std (ExtTreeMap)

/-! ## Observations -/

/-- What a retention journal says about a block. -/
structure LocalGuard where
  guarded : Bool
  localGeneration : Option Nat
  activeLocalWrites : Nat
  localReleaseCheck : Bool
  journalSequence : Nat
  writeFailed : Bool
  deriving DecidableEq

/-- `Retention::evidence`. -/
def retentionEvidence (state : Retention.State) (id : BlockId) :
    LocalGuard where
  guarded := state.ids.contains id
  localGeneration := state.ids[id]?
  activeLocalWrites := state.active[id]?.getD 0
  localReleaseCheck := state.releaseChecks.contains id
  journalSequence := state.sequence
  writeFailed := state.failed

def natJson (number : Nat) : Json := .integer number

def textJson (text : String) : Json := .string text.toList

def optionJson {α : Type} (write : α → Json) (value : Option α) : Json :=
  value.elim .null write

def LocalGuard.toJson (guard : LocalGuard) : Json :=
  .object
    [("guarded", .bool guard.guarded),
      ("local_generation", optionJson natJson guard.localGeneration),
      ("active_local_writes", natJson guard.activeLocalWrites),
      ("local_release_check", .bool guard.localReleaseCheck),
      ("journal_sequence", natJson guard.journalSequence),
      ("write_failed", .bool guard.writeFailed)]

def logIdJson (id : LogId) : Json :=
  .object
    [("leader_id",
        .object
          [("term", natJson id.leaderId.term.toNat),
            ("node_id", natJson id.leaderId.nodeId.toNat)]),
      ("index", natJson id.index.toNat)]

def evidenceJson (evidence : ReclamationEvidence) : Json :=
  .object
    [("last_applied", optionJson logIdJson evidence.lastApplied),
      ("logical_tick", natJson evidence.logicalTick.toNat),
      ("block_reference_fence",
        optionJson (fun fence : UInt64 => natJson fence.toNat)
          evidence.blockReferenceFence),
      ("binding_references", natJson evidence.bindingReferences.toNat),
      ("required_replicas", natJson evidence.requiredReplicas.toNat),
      ("leases",
        .object
          [("pending", natJson evidence.leases.pending),
            ("committed", natJson evidence.leases.committed),
            ("cancelled", natJson evidence.leases.cancelled),
            ("expired", natJson evidence.leases.expired)])]

def gcReason : String :=
  "compaction blocked: upload retention requires a coordinated GC watermark"

def unknowns : List String :=
  ["in_flight_writes", "legacy_provenance", "cluster_gc_watermark",
    "linearizable_release_validation", "replica_health"]

/-- What one node reports about a block. -/
structure Observed where
  metadata : MetadataState
  retention : Retention.State
  storageGeneration : List Char
  payloadPresent : Bool

def reclamationObservation (observed : Observed) (id : BlockId) : Json :=
  .object
    [("block", .string (hexEncode id.bytes)),
      ("mode", textJson "diagnostic_only"),
      ("authoritative", .bool false),
      ("reclaimable", .bool false),
      ("gc_enabled", .bool false),
      ("blocked_reason", textJson gcReason),
      ("metadata", evidenceJson (reclamationEvidence observed.metadata id)),
      ("local_guard",
        (retentionEvidence observed.retention id).toJson),
      ("storage_generation", .string observed.storageGeneration),
      ("local_payload_present", .bool observed.payloadPresent),
      ("unknowns", .array (unknowns.map textJson)),
      ("consistency",
        textJson ("local observations taken separately; may be stale or " ++
          "change during capture"))]

/-! ## The dry run -/

structure ExpectedFences where
  storageGeneration : List Char
  localGeneration : UInt64
  blockReferenceFence : UInt64
  deriving DecidableEq

/-- The fences that are unknown or differ from the expected ones. -/
def fenceBlockers (expected : ExpectedFences) (observation : Json) :
    List String :=
  let guard := observation.field "local_guard"
  let metadata := observation.field "metadata"
  ([(observation.field "storage_generation",
      Json.string expected.storageGeneration,
      "storage_generation_mismatch"),
    (guard.field "local_generation",
      natJson expected.localGeneration.toNat,
      "local_generation_unknown_or_changed"),
    (metadata.field "block_reference_fence",
      natJson expected.blockReferenceFence.toNat,
      "reference_fence_unknown_or_changed")].filter fun check =>
        check.1 = .null ∨ check.1 ≠ check.2.1).map fun check => check.2.2

/-- What the retention journal has against a release. -/
def guardBlockers (observation : Json) : List String :=
  let guard := observation.field "local_guard"
  (if guard.field "guarded" = .bool true then []
    else ["local_guard_missing"]) ++
  (if guard.field "write_failed" = .bool false then []
    else ["journal_health_unknown_or_failed"]) ++
  (if (guard.field "active_local_writes").asU64? = some 0 then []
    else ["active_local_writes_present_or_unknown"]) ++
  (if guard.field "local_release_check" = .bool false then []
    else ["local_release_check_present_or_unknown"])

/-- What the metadata has against a release. -/
def referenceBlockers (observation : Json) : List String :=
  let metadata := observation.field "metadata"
  ([(metadata.field "binding_references",
      "binding_references_present_or_unknown"),
    ((metadata.field "leases").field "pending",
      "pending_leases_present_or_unknown"),
    (metadata.field "required_replicas",
      "replica_requirement_present_or_unknown")].filter fun check =>
        check.1.asU64? ≠ some 0).map Prod.snd

/-- What always stands against a release. -/
def standingBlockers : List String :=
  ["in_flight_writes_not_coordinated", "legacy_provenance_not_verified",
    "cluster_gc_watermark_missing",
    "linearizable_release_validation_missing",
    "restore_rollback_not_fenced", "physical_gc_disabled"]

def validate (expected : ExpectedFences) (observation : Json) : Json :=
  .object
    [("mode", textJson "dry_run"),
      ("authoritative", .bool false),
      ("reclaimable", .bool false),
      ("release_authorized", .bool false),
      ("gc_enabled", .bool false),
      ("observed_fences_match",
        .bool (fenceBlockers expected observation).isEmpty),
      ("blockers",
        .array ((fenceBlockers expected observation ++
          (guardBlockers observation ++
            (referenceBlockers observation ++ standingBlockers))).map
              textJson)),
      ("observation", observation)]

/-! ## Reading a reply -/

def fencesMatch (reply : Json) : Bool :=
  reply.field "observed_fences_match" = .bool true

/-- Whether the observation in a reply comes from a healthy journal. -/
def journalHealthy (reply : Json) : Bool :=
  ((reply.field "observation").field "local_guard").field "write_failed" =
    .bool false

/-- Whether only what always stands against a release is in a reply. -/
def onlyStanding (reply : Json) : Bool :=
  reply.field "blockers" = .array (standingBlockers.map textJson)

/-! ## What a dry run has seen -/

/-- The three values of a report that a dry run compares. -/
structure Matches
    (expected : ExpectedFences)
    (observed : Observed)
    (id : BlockId) : Prop where
  storage : observed.storageGeneration = expected.storageGeneration
  generation :
    observed.retention.ids[id]? = some expected.localGeneration.toNat
  fence :
    observed.metadata.blockFences[id]? = some expected.blockReferenceFence

theorem asU64?_natJson_eq_zero {number : Nat} :
    (natJson number).asU64? = some 0 ↔ number = 0 := by
  simp only [natJson, Json.asU64?]
  split
  · simp
  · next outside =>
      constructor
      · rintro ⟨⟩
      · rintro rfl
        exact absurd (by decide) outside

/-- An optional number is the expected one exactly if it passes the check. -/
theorem optionJson_passes {found : Option Nat} {wanted : Nat} :
    ¬ (optionJson natJson found = .null ∨
        optionJson natJson found ≠ natJson wanted) ↔
      found = some wanted := by
  cases found with
  | none =>
      simp [optionJson]
  | some number =>
      simp [optionJson, natJson]

section Reports

variable {expected : ExpectedFences} {observed : Observed} {id : BlockId}

theorem fenceBlockers_eq_nil_iff :
    fenceBlockers expected (reclamationObservation observed id) = [] ↔
      Matches expected observed id := by
  have storage : (reclamationObservation observed id).field
      "storage_generation" = .string observed.storageGeneration := rfl
  have generation : ((reclamationObservation observed id).field
      "local_guard").field "local_generation" =
        optionJson natJson observed.retention.ids[id]? := rfl
  have fence : ((reclamationObservation observed id).field
      "metadata").field "block_reference_fence" =
        optionJson natJson
          (observed.metadata.blockFences[id]?.map UInt64.toNat) := by
    show optionJson (fun fence : UInt64 => natJson fence.toNat)
      observed.metadata.blockFences[id]? = _
    cases observed.metadata.blockFences[id]? <;> rfl
  have sameFence :
      observed.metadata.blockFences[id]?.map UInt64.toNat =
          some expected.blockReferenceFence.toNat ↔
        observed.metadata.blockFences[id]? =
          some expected.blockReferenceFence := by
    simp [Option.map_eq_some_iff, UInt64.toNat_inj]
  simp only [fenceBlockers, storage, generation, fence, List.map_eq_nil_iff,
    List.filter_eq_nil_iff, List.forall_mem_cons, decide_eq_true_eq,
    optionJson_passes, sameFence]
  constructor
  · rintro ⟨same, found, fenced, -⟩
    exact ⟨by simpa using same, found, fenced⟩
  · rintro ⟨same, found, fenced⟩
    exact ⟨by simp [same], found, fenced, by simp⟩

/-- What the journal reports of a block that nothing local is going on with. -/
structure LocallyQuiet (state : Retention.State) (id : BlockId) : Prop where
  guarded : id ∈ state.ids
  healthy : state.failed = false
  noWrites : state.active[id]?.getD 0 = 0
  noCheck : state.releaseChecks.contains id = false

/-- What the metadata reports of a block without references. -/
structure Unreferenced (state : MetadataState) (id : BlockId) : Prop where
  bindings : state.blockRefs[id]?.getD 0 = 0
  pending : (reclamationEvidence state id).leases.pending = 0
  requirement : state.replicaRequirements[id]?.getD 0 = 0

theorem guardBlockers_eq_nil_iff :
    guardBlockers (reclamationObservation observed id) = [] ↔
      LocallyQuiet observed.retention id := by
  have guarded : ((reclamationObservation observed id).field
      "local_guard").field "guarded" =
        .bool (observed.retention.ids.contains id) := rfl
  have failed : ((reclamationObservation observed id).field
      "local_guard").field "write_failed" =
        .bool observed.retention.failed := rfl
  have active : ((reclamationObservation observed id).field
      "local_guard").field "active_local_writes" =
        natJson (observed.retention.active[id]?.getD 0) := rfl
  have check : ((reclamationObservation observed id).field
      "local_guard").field "local_release_check" =
        .bool (observed.retention.releaseChecks.contains id) := rfl
  simp only [guardBlockers, guarded, failed, active, check,
    asU64?_natJson_eq_zero, List.append_eq_nil_iff, ite_eq_left_iff,
    reduceCtorEq, imp_false, not_not, Json.bool.injEq]
  constructor
  · rintro ⟨⟨⟨isGuarded, healthy⟩, noWrites⟩, noCheck⟩
    exact ⟨by simpa using isGuarded, healthy, noWrites, noCheck⟩
  · rintro ⟨isGuarded, healthy, noWrites, noCheck⟩
    exact ⟨⟨⟨by simpa using isGuarded, healthy⟩, noWrites⟩, noCheck⟩

theorem referenceBlockers_eq_nil_iff :
    referenceBlockers (reclamationObservation observed id) = [] ↔
      Unreferenced observed.metadata id := by
  have bindings : ((reclamationObservation observed id).field
      "metadata").field "binding_references" =
        natJson (observed.metadata.blockRefs[id]?.getD 0).toNat := rfl
  have pending : (((reclamationObservation observed id).field
      "metadata").field "leases").field "pending" =
        natJson (reclamationEvidence observed.metadata id).leases.pending :=
    rfl
  have requirement : ((reclamationObservation observed id).field
      "metadata").field "required_replicas" =
        natJson (observed.metadata.replicaRequirements[id]?.getD 0).toNat :=
    rfl
  simp only [referenceBlockers, bindings, pending, requirement,
    List.map_eq_nil_iff, List.filter_eq_nil_iff, List.forall_mem_cons,
    decide_eq_true_eq, ne_eq, not_not, asU64?_natJson_eq_zero]
  constructor
  · rintro ⟨noBinding, noPending, noRequirement, -⟩
    exact ⟨UInt32.toNat_inj.mp noBinding, noPending,
      UInt64.toNat_inj.mp noRequirement⟩
  · rintro ⟨noBinding, noPending, noRequirement⟩
    exact ⟨by simp [noBinding], noPending, by simp [noRequirement],
      by simp⟩

theorem validate_blockers (observation : Json) :
    (validate expected observation).field "blockers" =
      .array ((fenceBlockers expected observation ++
        (guardBlockers observation ++
          (referenceBlockers observation ++ standingBlockers))).map
            textJson) :=
  rfl

/-- The blockers are the standing ones exactly if nothing else was seen. -/
theorem onlyStanding_iff :
    onlyStanding (validate expected (reclamationObservation observed id)) =
        true ↔
      Matches expected observed id ∧ LocallyQuiet observed.retention id ∧
        Unreferenced observed.metadata id := by
  rw [onlyStanding, decide_eq_true_eq, validate_blockers,
    ← fenceBlockers_eq_nil_iff, ← guardBlockers_eq_nil_iff,
    ← referenceBlockers_eq_nil_iff]
  constructor
  · intro same
    have lengths := congrArg List.length (Json.array.inj same)
    simp only [List.length_map, List.length_append] at lengths
    refine ⟨List.eq_nil_of_length_eq_zero ?_,
      List.eq_nil_of_length_eq_zero ?_, List.eq_nil_of_length_eq_zero ?_⟩
    all_goals omega
  · rintro ⟨noFence, noGuard, noReference⟩
    rw [noFence, noGuard, noReference]
    rfl

theorem fencesMatch_iff :
    fencesMatch (validate expected (reclamationObservation observed id)) =
        true ↔
      Matches expected observed id := by
  have shape : (validate expected
      (reclamationObservation observed id)).field "observed_fences_match" =
        .bool (fenceBlockers expected
          (reclamationObservation observed id)).isEmpty := rfl
  rw [fencesMatch, decide_eq_true_eq, shape, ← fenceBlockers_eq_nil_iff,
    Json.bool.injEq, List.isEmpty_iff]

theorem journalHealthy_iff :
    journalHealthy (validate expected (reclamationObservation observed id)) =
        true ↔
      observed.retention.failed = false := by
  have shape : (((validate expected (reclamationObservation observed id)).field
      "observation").field "local_guard").field "write_failed" =
        .bool observed.retention.failed := rfl
  rw [journalHealthy, decide_eq_true_eq, shape, Json.bool.injEq]

end Reports

/-! ## Two dry runs -/

section Between

variable {bindingKey : CacheKey → String} {entries : List Entry}
  {block : BlockId} {fence : UInt64}

/-- Between two states of a run with one fence, no references change. -/
theorem sameReferences_of_ordered
    (increasing : IncreasingIndices entries)
    {first position last : Nat}
    (afterFirst : first ≤ position)
    (beforeLast : position ≤ last)
    (foundFirst :
      (stateAt bindingKey {} entries first).blockFences[block]? = some fence)
    (foundLast :
      (stateAt bindingKey {} entries last).blockFences[block]? =
        some fence) :
    SameReferences block (stateAt bindingKey {} entries first)
      (stateAt bindingKey {} entries position) := by
  have level :
      fenceLevel block (stateAt bindingKey {} entries first) =
        fenceLevel block (stateAt bindingKey {} entries last) := by
    rw [fenceLevel_of_found foundFirst, fenceLevel_of_found foundLast]
  induction position, afterFirst using Nat.le_induction with
  | base =>
      exact .refl _
  | succ position afterFirst inductionHypothesis =>
      refine (inductionHypothesis (Nat.le_of_succ_le beforeLast)).trans ?_
      cases present : entries[position]? with
      | none =>
          rw [stateAt_succ_of_none present]
          exact .refl _
      | some entry =>
          have unchanged := StepRun.no_event_between (fenceLevel block)
            (fun state entry =>
              ¬ SameReferences block state
                (stepEntry bindingKey state entry))
            (fun _ _ found => fenceLevel_le_step increasing found block)
            (fun _ _ found => fenceLevel_lt_step increasing found block)
            afterFirst beforeLast present level
          rw [stateAt_succ present]
          exact not_not.mp unchanged

/-- The same without an order of the two states, as after a restart. -/
theorem sameReferences_of_fence
    (increasing : IncreasingIndices entries)
    {first position last : Nat}
    (afterOne : min first last ≤ position)
    (beforeOther : position ≤ max first last)
    (foundFirst :
      (stateAt bindingKey {} entries first).blockFences[block]? = some fence)
    (foundLast :
      (stateAt bindingKey {} entries last).blockFences[block]? =
        some fence) :
    SameReferences block (stateAt bindingKey {} entries last)
      (stateAt bindingKey {} entries position) := by
  rcases le_total first last with ordered | ordered
  · rw [min_eq_left ordered] at afterOne
    rw [max_eq_right ordered] at beforeOther
    exact (sameReferences_of_ordered increasing ordered le_rfl foundFirst
      foundLast).symm.trans
        (sameReferences_of_ordered increasing afterOne beforeOther foundFirst
          foundLast)
  · rw [min_eq_right ordered] at afterOne
    rw [max_eq_left ordered] at beforeOther
    exact sameReferences_of_ordered increasing afterOne beforeOther foundLast
      foundFirst

end Between

section Journal

variable {blake3 : Bytes → BlockId} {events : List Retention.Event}

/-- Records are only ever added. -/
theorem records_prefix
    {first last : Nat}
    (ordered : first ≤ last) :
    (historyBefore blake3 events first).records <+:
      (historyBefore blake3 events last).records :=
  StepRun.related_before
    (fun earlier later : History => earlier.records <+: later.records)
    (fun _ => List.prefix_rfl) (fun _ _ _ => List.IsPrefix.trans)
    (fun _ _ _ => List.prefix_append _ _) ordered

/--
A generation seen at two moments, at the second one by a healthy process, is
older than every record completed in between.
-/
theorem no_record_between
    {first last generation : Nat}
    (ordered : first ≤ last)
    {earlier later : Retention.Process}
    {block : BlockId}
    (wasProcess :
      (historyBefore blake3 events first).host.process = some earlier)
    (isProcess :
      (historyBefore blake3 events last).host.process = some later)
    (seenFirst : earlier.state.ids[block]? = some generation)
    (seenLast : later.state.ids[block]? = some generation)
    (healthy : later.state.failed = false) :
    ∃ between,
      (historyBefore blake3 events last).records =
          (historyBefore blake3 events first).records ++ between ∧
        ∀ record ∈ between, block ∉ record := by
  obtain ⟨_, _, before⟩ := Retention.recorded_before blake3 events first
  obtain ⟨state, _, recorded⟩ := Retention.recorded_before blake3 events last
  have grew : (historyBefore blake3 events first).records <+:
      (historyBefore blake3 events last).records := records_prefix ordered
  obtain ⟨between, grown⟩ := grew
  refine ⟨between, grown.symm, ?_⟩
  have known := before.observed earlier wasProcess block generation seenFirst
  obtain ⟨-, sameIds, -⟩ := recorded.running later isProcess healthy
  rw [sameIds, recorded.journal.generation_iff] at seenLast
  obtain ⟨front, newest, rest, split, -, rfl, unnamed⟩ := seenLast
  obtain ⟨skipped, count⟩ := Nat.exists_eq_add_of_le known
  have tail : between = rest.drop skipped := by
    have dropped := congrArg
      (List.drop (historyBefore blake3 events first).records.length)
      (grown.trans split)
    rw [List.drop_left, count, List.append_cons,
      show front.length + 1 = (front ++ [newest]).length by simp,
      List.drop_length_add_append] at dropped
    exact dropped
  intro record member
  rw [tail] at member
  exact unnamed record (List.mem_of_mem_drop member)

/-- An acknowledged batch adds a record that names its blocks. -/
theorem records_of_acknowledged
    {position : Nat}
    {process : Retention.Process}
    {ids guard : List BlockId}
    {order : Retention.SetOrder}
    {write : Retention.JournalWrite}
    (present :
      events[position]? = some (.call (.protect ids order write)))
    (isProcess :
      (historyBefore blake3 events position).host.process = some process)
    (acknowledged :
      (Retention.protect blake3 order write process.state
        (historyBefore blake3 events position).host.file ids).1 =
          .ok guard)
    {block : BlockId}
    (named : block ∈ ids) :
    ∃ record,
      (historyBefore blake3 events (position + 1)).records =
          (historyBefore blake3 events position).records ++ [record] ∧
        block ∈ record := by
  obtain ⟨_, _, recorded⟩ := Retention.recorded_before blake3 events position
  obtain ⟨members, written, -⟩ := recorded.acknowledged isProcess acknowledged
  refine ⟨guard, ?_, (members block).mpr named⟩
  have stepped : historyBefore blake3 events (position + 1) =
      Retention.step blake3 (historyBefore blake3 events position)
        (.call (.protect ids order write)) :=
    StepRun.before_succ present
  rw [stepped, Retention.step, written (List.ne_nil_of_mem named)]
  rfl

end Journal

/-- When a node looks: how many entries it has applied and where its journal
stands, each on its own. -/
structure Moment where
  applied : Nat
  journal : Nat
  storageGeneration : List Char
  payloadPresent : Bool

section Runs

variable (bindingKey : CacheKey → String) (entries : List Entry)
  (blake3 : Bytes → BlockId) (events : List Retention.Event)

def observe (moment : Moment) (process : Retention.Process) : Observed where
  metadata := stateAt bindingKey {} entries moment.applied
  retention := process.state
  storageGeneration := moment.storageGeneration
  payloadPresent := moment.payloadPresent

/-- What a node with a running journal reports at a moment. -/
def observedAt (moment : Moment) : Option Observed :=
  (historyBefore blake3 events moment.journal).host.process.map
    (observe bindingKey entries moment)

/-- The reply of the dry run of a block at a moment. -/
def dryRun
    (expected : ExpectedFences)
    (block : BlockId)
    (moment : Moment) : Option Json :=
  (observedAt bindingKey entries blake3 events moment).map fun observed =>
    validate expected (reclamationObservation observed block)

/-- A run whose binds keep all counts below the width of the counter. -/
def CountsFitAlong : Prop :=
  ∀ position entry agent links,
    entries[position]? = some entry →
    appliedLinks bindingKey (stateAt bindingKey {} entries position)
        entry = some (agent, links) →
    ∀ taken, taken <+: links →
      CountsFit
        (bindAll bindingKey (stateAt bindingKey {} entries position)
          agent taken)

variable {bindingKey entries blake3 events} {state : MetadataState}
  {block : BlockId}

/-- Exact counts report a block as unbound only if no binding names it. -/
theorem occurrences_of_unreferenced
    (refsExact : RefsExact state)
    (unreferenced : Unreferenced state block) :
    occurrences state block = 0 := by
  obtain ⟨fits, count⟩ := refsExact block
  have reported := unreferenced.bindings
  rw [count] at reported
  by_contra bound
  rw [if_neg bound, Option.getD_some] at reported
  have number := congrArg UInt32.toNat reported
  rw [UInt32.toNat_ofNat_of_lt' fits] at number
  exact bound number

/-- Requirements are never zero, so a report of none means there is none. -/
theorem requirement_of_unreferenced
    (consistent : state.Consistent bindingKey)
    (unreferenced : Unreferenced state block) :
    state.replicaRequirements[block]? = none := by
  cases found : state.replicaRequirements[block]? with
  | none =>
      rfl
  | some replicas =>
      have range := (consistent.requirementRange block replicas found).1
      have reported := unreferenced.requirement
      rw [found, Option.getD_some] at reported
      rw [reported] at range
      exact absurd range (by decide)

/-- A matching dry run was answered by a process that saw the fences. -/
theorem matches_of_dryRun
    {expected : ExpectedFences}
    {moment : Moment}
    (matched :
      (dryRun bindingKey entries blake3 events expected block moment).any
        fencesMatch = true) :
    ∃ process,
      (historyBefore blake3 events moment.journal).host.process =
          some process ∧
        Matches expected (observe bindingKey entries moment process)
          block := by
  cases running : (historyBefore blake3 events moment.journal).host.process with
  | none =>
      simp [dryRun, observedAt, running] at matched
  | some process =>
      refine ⟨process, rfl, fencesMatch_iff.mp ?_⟩
      simpa [dryRun, observedAt, running] using matched

/-- A report without pending leases leaves no pending lease on the block. -/
theorem not_pending_of_unreferenced
    (consistent : state.Consistent bindingKey)
    {lease : BlockId}
    (unreferenced : Unreferenced state block)
    (reserves : Reserves state lease block) :
    ¬ state.leases.InPhase lease .pending := by
  obtain ⟨record, found, named⟩ := reserves
  have counted := reclamationEvidence_of state block .pending
  have zero : (reclamationEvidence state block).leases.of .pending = 0 :=
    unreferenced.pending
  rw [zero, LeaseState.countPhase] at counted
  have unselected := List.countP_eq_zero.mp counted.symm (lease, record)
    (ExtTreeMap.mem_toList_iff_getElem?_eq_some.mpr found)
  rw [LeaseState.inPhase_iff_classifyLease consistent.leases found]
  intro pending
  exact unselected (by simp [named, pending])

end Runs

/--
Two dry runs of a block that match the same expected fences enclose no change.
The storage generation is the same.  At every position of the log between the
two the references to the block are the same, whichever came first.  If the
second one finds its journal healthy, no record completed between them names
the block, and no batch acknowledged between them does.  If the second one
leaves only what always stands against a release, nothing is bound to the
block or requires replicas of it at any position between the two, and no
pending lease reserves it at the second.
-/
theorem matching_dry_runs_enclose_no_change
    (bindingKey : CacheKey → String)
    (entries : List Entry)
    (increasing : IncreasingIndices entries)
    (blake3 : Bytes → BlockId)
    (events : List Retention.Event)
    (expected : ExpectedFences)
    (block : BlockId)
    (first second : Moment)
    (firstMatches :
      (dryRun bindingKey entries blake3 events expected block first).any
        fencesMatch = true)
    (secondMatches :
      (dryRun bindingKey entries blake3 events expected block second).any
        fencesMatch = true) :
    let state := stateAt bindingKey {} entries
    let between := fun position =>
      min first.applied second.applied ≤ position ∧
        position ≤ max first.applied second.applied
    first.storageGeneration = second.storageGeneration ∧
    (∀ position, between position →
      SameReferences block (state second.applied) (state position)) ∧
    ((dryRun bindingKey entries blake3 events expected block second).any
        journalHealthy = true →
      first.journal ≤ second.journal →
      (∃ later,
        (historyBefore blake3 events second.journal).records =
            (historyBefore blake3 events first.journal).records ++ later ∧
          ∀ record ∈ later, block ∉ record) ∧
      ∀ position process ids order write guard,
        first.journal ≤ position → position < second.journal →
        events[position]? = some (.call (.protect ids order write)) →
        (historyBefore blake3 events position).host.process =
          some process →
        (Retention.protect blake3 order write process.state
          (historyBefore blake3 events position).host.file ids).1 =
            .ok guard →
        block ∉ ids) ∧
    ((dryRun bindingKey entries blake3 events expected block second).any
        onlyStanding = true →
      CountsFitAlong bindingKey entries →
      (∀ position, between position →
        occurrences (state position) block = 0 ∧
          (state position).replicaRequirements[block]? = none) ∧
      ∀ lease, Reserves (state second.applied) lease block →
        ¬ (state second.applied).leases.InPhase lease .pending) := by
  intro state between
  obtain ⟨earlier, wasProcess, sawFirst⟩ := matches_of_dryRun firstMatches
  obtain ⟨later, isProcess, sawSecond⟩ := matches_of_dryRun secondMatches
  have same : ∀ position, between position →
      SameReferences block (state second.applied) (state position) := by
    rintro position ⟨afterOne, beforeOther⟩
    exact sameReferences_of_fence increasing afterOne beforeOther
      sawFirst.fence sawSecond.fence
  refine ⟨sawFirst.storage.trans sawSecond.storage.symm, same, ?_, ?_⟩
  · intro healthyReply ordered
    have healthy : later.state.failed = false := by
      simpa [dryRun, observedAt, observe, isProcess, journalHealthy_iff]
        using healthyReply
    obtain ⟨records, grown, unnamed⟩ := no_record_between ordered wasProcess
      isProcess sawFirst.generation sawSecond.generation healthy
    refine ⟨⟨records, grown, unnamed⟩, ?_⟩
    intro position process ids order write guard afterFirst beforeSecond
      present running acknowledged named
    obtain ⟨record, added, inRecord⟩ :=
      records_of_acknowledged present running acknowledged named
    obtain ⟨front, started⟩ : (historyBefore blake3 events
        first.journal).records <+: (historyBefore blake3 events
          position).records := records_prefix afterFirst
    obtain ⟨rest, ended⟩ : (historyBefore blake3 events
        (position + 1)).records <+: (historyBefore blake3 events
          second.journal).records := records_prefix beforeSecond
    refine unnamed record ?_ inRecord
    rw [← ended, added, ← started, List.append_assoc, List.append_assoc,
      List.append_cancel_left_eq] at grown
    rw [← grown]
    simp
  · intro standing fits
    have quiet : Unreferenced (state second.applied) block := by
      have seen := standing
      simp only [dryRun, observedAt, isProcess, Option.map_some,
        Option.any_some, onlyStanding_iff] at seen
      exact seen.2.2
    have consistent : (state second.applied).Consistent bindingKey :=
      stateAt_consistent .empty second.applied
    refine ⟨?_, fun lease reserves =>
      not_pending_of_unreferenced consistent quiet reserves⟩
    intro position inside
    have kept := same position inside
    rw [kept.occurrences, kept.requirement]
    exact ⟨occurrences_of_unreferenced (stateAt_refsExact fits _) quiet,
      requirement_of_unreferenced consistent quiet⟩

/-- A key under the name of its model, which is all the sample needs. -/
def modelKey (key : CacheKey) : String := key.fingerprint.modelId

/-- A key bound, then bound anew without its block, and a blank entry. -/
def releasedLog : List Entry :=
  let key : CacheKey := ⟨⟨"m", "t", "l"⟩, .filled 7⟩
  [⟨⟨⟨1, 1⟩, 1⟩, .normal (.bindPrefix (.filled 1) key [.filled 2] none)⟩,
    ⟨⟨⟨1, 1⟩, 2⟩, .normal (.bindPrefix (.filled 1) key [.filled 3] none)⟩,
    ⟨⟨⟨1, 1⟩, 3⟩, .blank⟩]

/-- A block is written, then another one. -/
def writtenEvents : List Retention.Event :=
  [.reopen, .call (.protect [.filled 2] Retention.listedOrder .succeeds),
    .call (.dropGuard 0),
    .call (.protect [.filled 4] Retention.listedOrder .succeeds),
    .call (.dropGuard 0)]

def releasedFences : ExpectedFences := ⟨['g'], 1, 2⟩

theorem releasedLog_countsFit :
    CountsFitAlong modelKey releasedLog := by
  have small :
      ∀ position < 3, ∀ entry ∈ releasedLog[position]?,
        ∀ bound ∈ appliedLinks modelKey
            (stateAt modelKey {} releasedLog position) entry,
        ∀ taken ∈ bound.2.inits,
          FiniteMap.total
            (fun _ (record : BindingRecord) => record.blocks.length)
            (bindAll modelKey
              (stateAt modelKey {} releasedLog position) bound.1
              taken).bindings < 2 ^ 32 := by
    decide +kernel
  intro position entry agent links present applied taken extending block
  have within : position < 3 := (List.getElem?_eq_some_iff.mp present).1
  exact lt_of_le_of_lt (occurrences_le_total _ block)
    (small position within entry present (agent, links) applied taken
      ((List.mem_inits taken links).mpr extending))

/-- The block that is no longer bound is reported so, before and after
another one is written. -/
theorem matching_dry_runs_enclose_no_change_released :
    let first : Moment := ⟨2, 3, ['g'], true⟩
    let second : Moment := ⟨3, 5, ['g'], true⟩
    SameReferences (.filled 2)
        (stateAt modelKey {} releasedLog second.applied)
        (stateAt modelKey {} releasedLog first.applied) ∧
      (∃ later,
        (historyBefore Retention.journalBlake3 writtenEvents
            second.journal).records =
          (historyBefore Retention.journalBlake3 writtenEvents
            first.journal).records ++ later ∧
        later ≠ [] ∧ ∀ record ∈ later, .filled 2 ∉ record) ∧
      occurrences (stateAt modelKey {} releasedLog first.applied)
        (.filled 2) = 0 := by
  intro first second
  have increasing : IncreasingIndices releasedLog := by
    unfold IncreasingIndices
    decide
  obtain ⟨-, same, journal, unbound⟩ :=
    matching_dry_runs_enclose_no_change modelKey releasedLog
      increasing Retention.journalBlake3 writtenEvents releasedFences
      (.filled 2) first second (by decide +kernel) (by decide +kernel)
  have inside : min first.applied second.applied ≤ first.applied ∧
      first.applied ≤ max first.applied second.applied :=
    ⟨min_le_left _ _, le_max_left _ _⟩
  obtain ⟨⟨later, grown, unnamed⟩, -⟩ :=
    journal (by decide +kernel) (by decide)
  refine ⟨same first.applied inside, ⟨later, grown, ?_, unnamed⟩,
    ((unbound (by decide +kernel) releasedLog_countsFit).1 first.applied
      inside).1⟩
  rintro rfl
  have lengths := congrArg List.length grown
  revert lengths
  decide +kernel

end KalpakDb.Reclamation
