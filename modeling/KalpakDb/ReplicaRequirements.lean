import KalpakDb.ControlRecovery
import KalpakDb.ReplicaAcks

namespace KalpakDb.ControlNode

/-!
# Acknowledged replica requirements

A node asks for replicas of blocks through the log, except if it leads and its
own state already requires as many; then it only makes sure that it still
leads.  No request lowers a requirement.  So an acknowledgement, on either
way, stands in every later state of the log, on whichever member and after
whatever restart.
-/

open Std (ExtTreeMap)
open Replicas (ControlError requiresAtLeast requireReplicas)

/-! ## Requirements only grow -/

/-- What one state requires, another one requires too. -/
def RequirementsKept (earlier later : MetadataState) : Prop :=
  ∀ replicas block,
    requiresAtLeast earlier replicas block = true →
      requiresAtLeast later replicas block = true

theorem RequirementsKept.refl (state : MetadataState) :
    RequirementsKept state state :=
  fun _ _ required => required

theorem RequirementsKept.trans
    {first middle last : MetadataState}
    (early : RequirementsKept first middle)
    (late : RequirementsKept middle last) :
    RequirementsKept first last :=
  fun replicas block required =>
    late replicas block (early replicas block required)

theorem requiresAtLeast_iff
    {state : MetadataState}
    {replicas : UInt64}
    {block : BlockId} :
    requiresAtLeast state replicas block = true ↔
      ∃ wanted, state.replicaRequirements[block]? = some wanted ∧
        replicas ≤ wanted := by
  unfold requiresAtLeast
  cases state.replicaRequirements[block]? with
  | none =>
      simp
  | some wanted =>
      simp

section Raising

variable {requirements : ExtTreeMap BlockId UInt64} {replicas : UInt64}

/-- Raising for one block keeps what was required of any block. -/
theorem raiseOne_le
    {block other : BlockId}
    {wanted : UInt64}
    (found : requirements[other]? = some wanted) :
    ∃ raised,
      (requirements.insert block
        (if requirements[block]?.getD replicas < replicas then replicas
          else requirements[block]?.getD replicas))[other]? = some raised ∧
      wanted ≤ raised := by
  rw [ExtTreeMap.getElem?_insert]
  split
  · next same =>
      have isOther : block = other := by simpa using same
      subst isOther
      refine ⟨_, rfl, ?_⟩
      rw [found, Option.getD_some]
      split
      · next below =>
          exact UInt64.le_of_lt below
      · exact UInt64.le_refl _
  · exact ⟨wanted, found, UInt64.le_refl _⟩

theorem raiseRequirements_le
    {other : BlockId}
    {wanted : UInt64}
    (blocks : List BlockId)
    (found : requirements[other]? = some wanted) :
    ∃ raised,
      (raiseRequirements requirements blocks replicas)[other]? =
          some raised ∧
        wanted ≤ raised := by
  induction blocks generalizing requirements wanted with
  | nil =>
      exact ⟨wanted, found, UInt64.le_refl _⟩
  | cons block rest inductionHypothesis =>
      obtain ⟨middle, isMiddle, below⟩ := raiseOne_le found
      obtain ⟨raised, isRaised, above⟩ := inductionHypothesis isMiddle
      exact ⟨raised, isRaised, UInt64.le_trans below above⟩

/-- Every listed block is afterwards required as often as asked for. -/
theorem raiseRequirements_listed
    {blocks : List BlockId}
    {block : BlockId}
    (listed : block ∈ blocks) :
    ∃ raised,
      (raiseRequirements requirements blocks replicas)[block]? =
          some raised ∧
        replicas ≤ raised := by
  induction blocks generalizing requirements with
  | nil =>
      cases listed
  | cons first rest inductionHypothesis =>
      rcases List.mem_cons.mp listed with rfl | later
      · have raised : replicas ≤
            if requirements[block]?.getD replicas < replicas then replicas
              else requirements[block]?.getD replicas := by
          split
          · exact UInt64.le_refl _
          · next above =>
              exact UInt64.not_lt.mp above
        obtain ⟨last, isLast, above⟩ := raiseRequirements_le rest
          (ExtTreeMap.getElem?_insert_self)
        exact ⟨last, isLast, UInt64.le_trans raised above⟩
      · exact inductionHypothesis later

end Raising

section Steps

variable {bindingKey : CacheKey → String} {state : MetadataState}

/-- An accepted request only raises requirements. -/
theorem transition_requirements
    {next : MetadataState}
    {request : Request}
    {response : Response}
    (transition : Transition bindingKey state request next response) :
    RequirementsKept state next := by
  cases transition with
  | required inRange fits =>
      intro replicas block required
      obtain ⟨wanted, found, enough⟩ := requiresAtLeast_iff.mp required
      obtain ⟨raised, isRaised, above⟩ := raiseRequirements_le _ found
      exact requiresAtLeast_iff.mpr
        ⟨raised, isRaised, UInt64.le_trans enough above⟩
  | chained agent bindings =>
      intro replicas block required
      rw [bindAll_frame]
      exact required
  | reserved =>
      obtain ⟨revisions, activated⟩ := activateLeases_frame state
      rw [activated]
      exact .refl _
  | _ =>
      exact .refl _

theorem stepEntry_requirements
    (consistent : state.Consistent bindingKey)
    (entry : Entry) :
    RequirementsKept state (stepEntry bindingKey state entry) := by
  refine applyEntry_preserves bindingKey state (RequirementsKept state) ?_
    consistent.leases.dormant ?_ ?_
  · exact .refl _
  · intro membership
    exact .refl _
  · intro request next response _ _ step _
    have kept := transition_requirements step
    exact kept

/-- An entry that is answered so requires what it asks for. -/
theorem stepEntry_required
    {entry : Entry}
    {blocks : List BlockId}
    {replicas : UInt64}
    (payload : entry.payload = .normal (.requireReplicas blocks replicas))
    (answered : replyEntry bindingKey state entry = .replicasRequired) :
    ∀ block ∈ blocks,
      requiresAtLeast (stepEntry bindingKey state entry) replicas block =
        true := by
  simp only [replyEntry, stepEntry, applyEntry, payload] at answered ⊢
  have accepted := applyOne_of_accepted bindingKey
    { state with lastApplied := some entry.logId }
    (congrArg Response.isRejected answered)
  rw [accepted.2.2] at answered ⊢
  simp only [applyUnfenced] at answered ⊢
  split at answered
  · cases answered
  · next valid =>
      rw [if_neg valid]
      split at answered
      · cases answered
      · next fits =>
          rw [if_neg fits]
          intro block listed
          exact requiresAtLeast_iff.mpr (raiseRequirements_listed listed)

/-- What a state of the log requires, its later states require. -/
theorem agreedState_requirements
    (setting : Setting)
    {count later : Nat}
    (ordered : count ≤ later) :
    RequirementsKept (setting.agreedState count) (setting.agreedState later) :=
  StepRun.related_before RequirementsKept .refl
    (fun _ _ _ early late => early.trans late)
    (fun position entry _ =>
      stepEntry_requirements (stateAt_consistent .empty position) entry)
    ordered

end Steps

/-- How a write that was answered ended: as an entry of the log. -/
def WrittenAs
    (setting : Setting)
    (request : Request)
    (reached : Nat)
    (response : Response) : Prop :=
  ∃ position < reached, ∃ entry,
    setting.agreed[position]? = some entry ∧
      entry.payload = .normal request ∧
      response =
        replyEntry setting.bindingKey (setting.agreedState position) entry

/--
An acknowledged request, with `reached` entries of the log behind it: what the
node reads are earlier states of the log, and a write is answered as an entry.
-/
structure Acknowledged
    (setting : Setting)
    (reached : Nat)
    (blocks : List BlockId)
    (replicas : UInt64) where
  leads : Bool
  seen : BlockId → MetadataState
  linearizable : Except String Unit
  write : Except ControlError Response
  read :
    ∀ block ∈ blocks, ∃ count ≤ reached,
      seen block = setting.agreedState count
  written :
    ∀ response, write = .ok response →
      WrittenAs setting (.requireReplicas blocks replicas) reached response
  accepted :
    requireReplicas leads seen linearizable write blocks replicas = .ok ()

/-- An acknowledgement is true of the entries that stand behind it. -/
theorem Acknowledged.required
    {setting : Setting}
    {reached : Nat}
    {blocks : List BlockId}
    {replicas : UInt64}
    (request : Acknowledged setting reached blocks replicas) :
    ∀ block ∈ blocks,
      requiresAtLeast (setting.agreedState reached) replicas block = true := by
  obtain ⟨leads, seen, linearizable, write, read, written, acknowledged⟩ :=
    request
  intro block listed
  unfold requireReplicas at acknowledged
  split at acknowledged
  · cases acknowledged
  split at acknowledged
  · next fast =>
      obtain ⟨count, covered, same⟩ := read block listed
      have known := List.all_eq_true.mp (Bool.and_eq_true_iff.mp fast).2
        block listed
      rw [same] at known
      exact agreedState_requirements setting covered replicas block known
  · split at acknowledged
    · cases acknowledged
    · obtain ⟨position, before, entry, present, payload, answered⟩ :=
        written _ rfl
      refine agreedState_requirements setting
        (Nat.succ_le_of_lt before) replicas block ?_
      rw [Setting.agreedState, stateAt_succ present]
      exact stepEntry_required payload answered.symm block listed
    · cases acknowledged
    · cases acknowledged

/--
An acknowledged replica requirement stands.  It is acknowledged either because
the log has answered so, or because the node leads and its own state, which it
may read at a different moment for each block, requires as much already.  From
the number of entries behind the acknowledgement on, every state of the log
requires as many replicas; so does every member of the cluster that covers as
many entries, at whatever moment of any history, and every restart of a
member's files that does.
-/
theorem acknowledged_requirements_stand
    (setting : Setting)
    (events : List ClusterEvent)
    (permitted : Permitted setting events)
    (reached : Nat)
    (blocks : List BlockId)
    (replicas : UInt64)
    (request : Acknowledged setting reached blocks replicas) :
    ∀ block ∈ blocks,
      (∀ later ≥ reached,
        requiresAtLeast (setting.agreedState later) replicas block = true) ∧
      ∀ position id,
        let node :=
          ((clusterBefore setting.toCodecs events position).members id).node
        (∀ plane, node.running = some plane →
          reached ≤ covered plane.machine.state.lastApplied →
          requiresAtLeast plane.machine.state replicas block = true) ∧
        ∃ files plane,
          startNode setting.toCodecs node.files = (files, .ok plane) ∧
          (reached ≤ covered plane.machine.state.lastApplied →
            requiresAtLeast plane.machine.state replicas block = true) := by
  intro block listed
  have stands : ∀ later ≥ reached,
      requiresAtLeast (setting.agreedState later) replicas block = true := by
    intro later ordered
    exact agreedState_requirements setting ordered replicas block
      (request.required block listed)
  refine ⟨stands, ?_⟩
  intro position id node
  have cluster := clusterSound_before permitted position
  constructor
  · intro plane running covers
    rw [(cluster.state_eq running).2]
    exact stands _ covers
  · obtain ⟨inner, saved, sound⟩ := cluster.members id
    obtain ⟨disk, machine, started, -, follows⟩ := sound.startNode
    refine ⟨_, _, started, ?_⟩
    intro covers
    rw [follows.covered sound.savedAgreed] at covers
    rw [follows.state]
    exact stands saved covers

/-- The second entry of the sample log, as its writer was answered. -/
def sampleRequest : Acknowledged sample 2 [.filled 2] 3 where
  leads := false
  seen := fun _ => sample.agreedState 0
  linearizable := .ok ()
  write := .ok .replicasRequired
  read := fun _ _ => ⟨0, Nat.zero_le 2, rfl⟩
  written := by
    intro response isResponse
    cases isResponse
    exact ⟨1, Nat.one_lt_two, _, rfl, rfl, by decide +kernel⟩
  accepted := rfl

/-- The member that installed a snapshot requires what the one that was killed
requires when it starts again. -/
theorem acknowledged_requirements_stand_restarted :
    ((sampleNode 10 2).running.any fun plane =>
        requiresAtLeast plane.machine.state 3 (.filled 2)) = true ∧
      ∃ files plane,
        startNode sample.toCodecs (sampleNode 11 1).files =
            (files, .ok plane) ∧
          requiresAtLeast plane.machine.state 3 (.filled 2) = true := by
  have stands := acknowledged_requirements_stand sample sampleHistory
    sampleHistory_permitted 2 [.filled 2] 3 sampleRequest (.filled 2)
    (List.mem_singleton.mpr rfl)
  constructor
  · have installed : ((sampleNode 10 2).running.any fun plane =>
        2 ≤ covered plane.machine.state.lastApplied) = true := by
      decide +kernel
    obtain ⟨plane, running, covers⟩ := (Option.any_eq_true _ _).mp installed
    rw [running, Option.any_some]
    exact (stands.2 10 2).1 plane running (of_decide_eq_true covers)
  · obtain ⟨files, plane, restarted, required⟩ := (stands.2 11 1).2
    refine ⟨files, plane, restarted, required ?_⟩
    have count : (startNode sample.toCodecs
        (sampleNode 11 1).files).2.toOption.any (fun plane =>
          2 ≤ covered plane.machine.state.lastApplied) = true := by
      decide +kernel
    rw [sampleNode, restarted] at count
    exact of_decide_eq_true count

end KalpakDb.ControlNode
