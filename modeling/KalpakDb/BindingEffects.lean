import KalpakDb.MetadataTransition

namespace KalpakDb

/-!
# Effects of binding requests

Binding a chain touches the bindings, the reference counts, the prefix tree
and, once leases are active, the revision fences of exactly the bound keys.
Everything else is unchanged.
-/

open Std (ExtTreeMap)
open MachineWord

/-- Every revision keeps its entry and never decreases. -/
def RevisionsGrow (earlier later : LeaseState) : Prop :=
  ∀ key,
    earlier.revisions[key]?.getD 0 ≤ later.revisions[key]?.getD 0 ∧
      (key ∈ earlier.revisions → key ∈ later.revisions)

namespace RevisionsGrow

theorem refl (leases : LeaseState) : RevisionsGrow leases leases :=
  fun _ => ⟨UInt64.le_refl _, id⟩

theorem trans
    {first middle last : LeaseState}
    (early : RevisionsGrow first middle)
    (late : RevisionsGrow middle last) :
    RevisionsGrow first last :=
  fun key =>
    ⟨UInt64.le_trans (early key).1 (late key).1,
      fun member => (late key).2 ((early key).2 member)⟩

end RevisionsGrow

namespace LeaseState

theorem bumpRevision_of_inactive
    {leases : LeaseState}
    (inactive : leases.initialized = false)
    (key : String) :
    leases.bumpRevision key = leases := by
  simp [bumpRevision, inactive]

/-- Raising a revision changes nothing but the revisions. -/
theorem bumpRevision_frame (leases : LeaseState) (key : String) :
    leases.bumpRevision key =
      { leases with revisions := (leases.bumpRevision key).revisions } := by
  unfold bumpRevision
  split <;> rfl

theorem bumpRevision_self
    {leases : LeaseState}
    (active : leases.initialized = true)
    (key : String) :
    (leases.bumpRevision key).revisions[key]? =
      some (saturatingAdd (leases.revisions[key]?.getD 0) 1) := by
  simp [bumpRevision, active]

theorem bumpRevision_other
    (leases : LeaseState)
    {key other : String}
    (different : key ≠ other) :
    (leases.bumpRevision key).revisions[other]? =
      leases.revisions[other]? := by
  unfold bumpRevision
  split
  · simp [ExtTreeMap.getElem?_insert, different]
  · rfl

theorem bumpRevision_grows (leases : LeaseState) (key : String) :
    RevisionsGrow leases (leases.bumpRevision key) := by
  intro other
  by_cases different : key = other
  · subst other
    cases active : leases.initialized with
    | false =>
        rw [bumpRevision_of_inactive active]
        exact ⟨UInt64.le_refl _, id⟩
    | true =>
        constructor
        · rw [bumpRevision_self active]
          exact le_saturatingAdd_one _
        · intro _
          simp [bumpRevision, active]
  · constructor
    · rw [bumpRevision_other leases different]
      exact UInt64.le_refl _
    · intro member
      unfold bumpRevision
      split
      · simp [member]
      · exact member

/-- Raise the revisions of several keys, one after the other. -/
def bumpRevisions (leases : LeaseState) (keys : List String) : LeaseState :=
  keys.foldl bumpRevision leases

theorem bumpRevisions_frame (leases : LeaseState) (keys : List String) :
    leases.bumpRevisions keys =
      { leases with revisions := (leases.bumpRevisions keys).revisions } := by
  induction keys generalizing leases with
  | nil =>
      rfl
  | cons key rest inductionHypothesis =>
      have tail := inductionHypothesis (leases.bumpRevision key)
      have head := bumpRevision_frame leases key
      simp only [bumpRevisions, List.foldl_cons] at tail ⊢
      rw [tail, head]

theorem bumpRevisions_of_inactive
    {leases : LeaseState}
    (inactive : leases.initialized = false)
    (keys : List String) :
    leases.bumpRevisions keys = leases := by
  induction keys with
  | nil =>
      rfl
  | cons key rest inductionHypothesis =>
      simp only [bumpRevisions, List.foldl_cons,
        bumpRevision_of_inactive inactive] at inductionHypothesis ⊢
      exact inductionHypothesis

theorem bumpRevisions_grows (leases : LeaseState) (keys : List String) :
    RevisionsGrow leases (leases.bumpRevisions keys) := by
  induction keys generalizing leases with
  | nil =>
      exact RevisionsGrow.refl leases
  | cons key rest inductionHypothesis =>
      exact (bumpRevision_grows leases key).trans
        (inductionHypothesis (leases.bumpRevision key))

theorem bumpRevisions_initialized (leases : LeaseState) (keys : List String) :
    (leases.bumpRevisions keys).initialized = leases.initialized := by
  rw [bumpRevisions_frame]

/-- A key outside the list keeps its revision. -/
theorem bumpRevisions_other
    (leases : LeaseState)
    {keys : List String}
    {other : String}
    (absent : other ∉ keys) :
    (leases.bumpRevisions keys).revisions[other]? =
      leases.revisions[other]? := by
  induction keys generalizing leases with
  | nil =>
      rfl
  | cons key rest inductionHypothesis =>
      simp only [List.mem_cons, not_or] at absent
      have tail := inductionHypothesis (leases.bumpRevision key) absent.2
      simp only [bumpRevisions, List.foldl_cons] at tail ⊢
      rw [tail, bumpRevision_other leases (Ne.symm absent.1)]

/-- Below saturation, a listed key's revision is raised strictly. -/
theorem lt_bumpRevisions
    {leases : LeaseState}
    (active : leases.initialized = true)
    {keys : List String}
    {key : String}
    (listed : key ∈ keys)
    (unsaturated : leases.revisions[key]?.getD 0 ≠ maxWord) :
    leases.revisions[key]?.getD 0 <
      (leases.bumpRevisions keys).revisions[key]?.getD 0 := by
  induction keys generalizing leases with
  | nil =>
      simp at listed
  | cons first rest inductionHypothesis =>
      have grows := bumpRevisions_grows (leases.bumpRevision first) rest key
      by_cases same : first = key
      · subst first
        have raised := lt_saturatingAdd_one unsaturated
        rw [bumpRevision_self active key] at grows
        exact UInt64.lt_of_lt_of_le raised grows.1
      · have inRest : key ∈ rest :=
          (List.mem_cons.mp listed).resolve_left (Ne.symm same)
        have stillActive :
            (leases.bumpRevision first).initialized = true := by
          rw [bumpRevision_frame]
          exact active
        have kept := bumpRevision_other leases same
        have tail := inductionHypothesis stillActive inRest
          (by rw [kept]; exact unsaturated)
        rw [kept] at tail
        exact tail

/-- Raising revisions of an active state gives every listed key an entry. -/
theorem mem_bumpRevisions_of_mem
    {leases : LeaseState}
    (active : leases.initialized = true)
    {keys : List String}
    {key : String}
    (listed : key ∈ keys) :
    key ∈ (leases.bumpRevisions keys).revisions := by
  induction keys generalizing leases with
  | nil =>
      simp at listed
  | cons first rest inductionHypothesis =>
      rcases List.mem_cons.mp listed with isFirst | inRest
      · subst first
        have entered : key ∈ (leases.bumpRevision key).revisions := by
          simp [bumpRevision, active]
        exact (bumpRevisions_grows (leases.bumpRevision key) rest key).2
          entered
      · have stillActive :
            (leases.bumpRevision first).initialized = true := by
          rw [bumpRevision_frame]
          exact active
        exact inductionHypothesis stillActive inRest

/-- Only listed keys gain an entry. -/
theorem mem_of_mem_bumpRevisions
    {leases : LeaseState}
    {keys : List String}
    {key : String}
    (member : key ∈ (leases.bumpRevisions keys).revisions) :
    key ∈ leases.revisions ∨ key ∈ keys := by
  by_cases listed : key ∈ keys
  · exact Or.inr listed
  · have kept := bumpRevisions_other leases listed
    refine Or.inl ?_
    rw [ExtTreeMap.mem_iff_isSome_getElem?] at member ⊢
    rwa [kept] at member

end LeaseState

section Binding

variable (bindingKey : CacheKey → String)

/-- The serialized keys a chain binds, in order. -/
def linkKeys (links : List ChainBinding) : List String :=
  links.map fun link => bindingKey link.key

theorem bindAll_cons
    (state : MetadataState)
    (agent : AgentId)
    (link : ChainBinding)
    (rest : List ChainBinding) :
    bindAll bindingKey state agent (link :: rest) =
      bindAll bindingKey
        (bindOne bindingKey state agent link.key link.blocks link.parent)
        agent rest := rfl

/-- A chain changes four components of the state and leaves the others. -/
theorem bindAll_frame
    (state : MetadataState)
    (agent : AgentId)
    (links : List ChainBinding) :
    bindAll bindingKey state agent links =
      { state with
        leases := state.leases.bumpRevisions (linkKeys bindingKey links)
        blockRefs := (bindAll bindingKey state agent links).blockRefs
        bindings := (bindAll bindingKey state agent links).bindings
        children := (bindAll bindingKey state agent links).children } := by
  induction links generalizing state with
  | nil =>
      rfl
  | cons link rest inductionHypothesis =>
      rw [bindAll_cons]
      have tail := inductionHypothesis
        (bindOne bindingKey state agent link.key link.blocks link.parent)
      rw [tail]
      rfl

/-- The binding a chain leaves under a key is that of its last such link. -/
theorem bindAll_binding
    (state : MetadataState)
    (agent : AgentId)
    (links : List ChainBinding)
    (key : String) :
    (bindAll bindingKey state agent links).bindings[key]? =
      match links.reverse.find? fun link => bindingKey link.key = key with
      | some link => some { agent := agent, blocks := link.blocks }
      | none => state.bindings[key]? := by
  induction links generalizing state with
  | nil =>
      rfl
  | cons link rest inductionHypothesis =>
      rw [bindAll_cons, inductionHypothesis, List.reverse_cons,
        List.find?_append]
      cases later : rest.reverse.find? fun link =>
          bindingKey link.key = key with
      | some found =>
          rfl
      | none =>
          by_cases same : bindingKey link.key = key
          · simp [bindOne, same]
          · simp [bindOne, same, ExtTreeMap.getElem?_insert]

/-- Keys outside the chain keep their binding. -/
theorem bindAll_binding_other
    (state : MetadataState)
    (agent : AgentId)
    {links : List ChainBinding}
    {key : String}
    (absent : key ∉ linkKeys bindingKey links) :
    (bindAll bindingKey state agent links).bindings[key]? =
      state.bindings[key]? := by
  have noLink :
      (links.reverse.find? fun link => bindingKey link.key = key) = none := by
    rw [List.find?_eq_none]
    intro link member
    have linkMember : link ∈ links := List.mem_reverse.mp member
    have different : bindingKey link.key ≠ key := by
      intro same
      exact absent (List.mem_map.mpr ⟨link, linkMember, same⟩)
    simpa using different
  rw [bindAll_binding, noLink]

/-- Bound keys have a binding, and no binding is ever removed. -/
theorem mem_bindAll_bindings
    (state : MetadataState)
    (agent : AgentId)
    {links : List ChainBinding}
    {key : String}
    (member : key ∈ state.bindings ∨ key ∈ linkKeys bindingKey links) :
    key ∈ (bindAll bindingKey state agent links).bindings := by
  rw [ExtTreeMap.mem_iff_isSome_getElem?, bindAll_binding]
  cases found : links.reverse.find? fun link =>
      bindingKey link.key = key with
  | some link =>
      rfl
  | none =>
      rcases member with bound | listed
      · exact ExtTreeMap.mem_iff_isSome_getElem?.mp bound
      · obtain ⟨link, linkMember, same⟩ := List.mem_map.mp listed
        rw [List.find?_eq_none] at found
        exact absurd (by simpa using same)
          (found link (List.mem_reverse.mpr linkMember))

/-! ## Which links an entry binds -/

/-- The owner and the links a request binds once it is accepted. -/
def boundLinks
    (state : MetadataState) :
    Request → Option (AgentId × List ChainBinding)
  | .bindPrefix agent key blocks parent =>
      some (agent, [⟨key, blocks, parent⟩])
  | .bindChain agent links => some (agent, links)
  | .commitUploadLease lease agent binding expectedRevision =>
      match validateCommit bindingKey state lease agent binding
          expectedRevision with
      | .ok true => some (agent, [binding])
      | _ => none
  | _ => none

/-- The owner and the links an entry does bind in this state. -/
def appliedLinks
    (state : MetadataState)
    (entry : Entry) : Option (AgentId × List ChainBinding) :=
  match entry.payload with
  | .normal request =>
      if (applyEntry bindingKey state entry).2.isRejected then none
      else boundLinks bindingKey state request
  | _ => none

/-- The state with the given links bound, or unchanged without any. -/
def bindLinks
    (state : MetadataState) :
    Option (AgentId × List ChainBinding) → MetadataState
  | none => state
  | some (agent, links) => bindAll bindingKey state agent links

/-- Two states that agree on everything a bind can change. -/
structure SameBindings (left right : MetadataState) : Prop where
  bindings : left.bindings = right.bindings
  blockRefs : left.blockRefs = right.blockRefs
  children : left.children = right.children
  revisions : left.leases.revisions = right.leases.revisions

/-- Requests that bind nothing leave the bindings alone. -/
theorem transition_sameBindings
    {state next : MetadataState}
    {request : Request}
    {response : Response}
    (dormant : state.leases.Dormant)
    (step : Transition bindingKey state request next response)
    (unbinding : boundLinks bindingKey state request = none) :
    SameBindings next state := by
  cases step with
  | reserved =>
      rw [activateLeases_of_dormant dormant]
      exact ⟨rfl, rfl, rfl, rfl⟩
  | committed guards =>
      have validated :=
        (validateCommit_eq_ok_true_iff bindingKey state).mpr ⟨_, guards⟩
      simp [boundLinks, validated] at unbinding
  | chained agent links =>
      simp [boundLinks] at unbinding
  | bound agent link =>
      simp [boundLinks] at unbinding
  | _ =>
      exact ⟨rfl, rfl, rfl, rfl⟩

/-- Before fencing, a request binds exactly its links. -/
theorem applyUnfenced_sameBindings
    (state : MetadataState)
    (dormant : state.leases.Dormant)
    (request : Request) :
    SameBindings (applyUnfenced bindingKey state request).1
      (bindLinks bindingKey state (boundLinks bindingKey state request)) := by
  cases bound : boundLinks bindingKey state request with
  | none =>
      exact transition_sameBindings bindingKey dormant
        (applyUnfenced_transition bindingKey state dormant request) bound
  | some agentLinks =>
      cases request with
      | bindPrefix agent key blocks parent =>
          cases bound
          exact ⟨rfl, rfl, rfl, rfl⟩
      | bindChain agent links =>
          cases bound
          exact ⟨rfl, rfl, rfl, rfl⟩
      | commitUploadLease lease agent binding expectedRevision =>
          unfold boundLinks at bound
          unfold applyUnfenced
          simp only at bound ⊢
          split at bound
          · cases bound
            rename_i validated
            rw [validated]
            exact ⟨rfl, rfl, rfl, rfl⟩
          · cases bound
      | _ =>
          simp [boundLinks] at bound

/-- Binding neither reads nor writes the applied position. -/
theorem bindAll_stamped
    (state : MetadataState)
    (position : Option LogId)
    (agent : AgentId)
    (links : List ChainBinding) :
    bindAll bindingKey { state with lastApplied := position } agent links =
      { bindAll bindingKey state agent links with
        lastApplied := position } := by
  induction links generalizing state with
  | nil =>
      rfl
  | cons link rest inductionHypothesis =>
      rw [bindAll_cons, bindAll_cons, ← inductionHypothesis]
      rfl

theorem bindLinks_stamped
    (state : MetadataState)
    (position : Option LogId)
    (bound : Option (AgentId × List ChainBinding)) :
    SameBindings
      (bindLinks bindingKey { state with lastApplied := position } bound)
      (bindLinks bindingKey state bound) := by
  cases bound with
  | none =>
      exact ⟨rfl, rfl, rfl, rfl⟩
  | some agentLinks =>
      unfold bindLinks
      simp only [bindAll_stamped]
      exact ⟨rfl, rfl, rfl, rfl⟩

theorem SameBindings.trans
    {first middle last : MetadataState}
    (early : SameBindings first middle)
    (late : SameBindings middle last) :
    SameBindings first last :=
  ⟨early.bindings.trans late.bindings,
    early.blockRefs.trans late.blockRefs,
    early.children.trans late.children,
    early.revisions.trans late.revisions⟩

/-- Applying an entry binds exactly its applied links. -/
theorem applyEntry_sameBindings
    {state : MetadataState}
    (dormant : state.leases.Dormant)
    (entry : Entry) :
    SameBindings (applyEntry bindingKey state entry).1
      (bindLinks bindingKey state (appliedLinks bindingKey state entry)) := by
  unfold appliedLinks
  cases payload : entry.payload with
  | blank =>
      simp only [applyEntry, payload]
      exact ⟨rfl, rfl, rfl, rfl⟩
  | membership membership =>
      simp only [applyEntry, payload]
      exact ⟨rfl, rfl, rfl, rfl⟩
  | normal request =>
      have applied :
          applyEntry bindingKey state entry =
            applyOne bindingKey { state with lastApplied := some entry.logId }
              request := by
        simp only [applyEntry, payload]
      simp only [applied]
      cases rejected :
          (applyOne bindingKey { state with lastApplied := some entry.logId }
            request).2.isRejected with
      | true =>
          rw [applyOne_of_rejected bindingKey
            { state with lastApplied := some entry.logId } dormant rejected]
          exact ⟨rfl, rfl, rfl, rfl⟩
      | false =>
          obtain ⟨-, -, fenced⟩ := applyOne_of_accepted bindingKey _ rejected
          rw [fenced]
          have unfenced := applyUnfenced_sameBindings bindingKey
            { state with lastApplied := some entry.logId } dormant request
          have stamped := bindLinks_stamped bindingKey state
            (some entry.logId) (boundLinks bindingKey state request)
          have joined := unfenced.trans stamped
          exact ⟨joined.bindings, joined.blockRefs, joined.children,
            joined.revisions⟩

end Binding

end KalpakDb
