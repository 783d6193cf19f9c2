import KalpakDb.BincodeLayout
import KalpakDb.JsonValue
import KalpakDb.StoreCalls
import KalpakDb.TieredStore
import KalpakDb.Utf8

namespace KalpakDb.Replicas

/-!
# Replica acknowledgements

An upload that asks for several replicas commits the requirement, verifies the
local cold copies, and then asks one peer after the other.  A peer counts if
it proves that it has the blocks already, or else if it accepts the upload and
acknowledges it.  Whatever the peers answer, an acknowledgement counts peers
that are different nodes at different addresses.
-/

open Std (ExtTreeMap)
open Contract
open BincodeLayout (hexDecode?)

/-! ## Requiring replicas -/

inductive ControlError where
  | notLeader (leaderAddr : Option String)
  | other (text : String)

/-- A state that requires at least a number of replicas of a block. -/
def requiresAtLeast
    (state : MetadataState)
    (replicas : UInt64)
    (block : BlockId) : Bool :=
  state.replicaRequirements[block]?.any fun wanted => replicas ≤ wanted

/--
Require replicas of blocks.  The own state is read anew for each block;
`linearizable` is how the check that the node still leads ends, and `write`
how the write ends.
-/
def requireReplicas
    (leads : Bool)
    (seen : BlockId → MetadataState)
    (linearizable : Except String Unit)
    (write : Except ControlError KalpakDb.Response)
    (blocks : List BlockId)
    (replicas : UInt64) : Except ControlError Unit :=
  if ¬ (2 ≤ replicas ∧ replicas ≤ 16) ∨ blocks.length > 4096 then
    .error (.other "raft write: invalid replica requirements")
  else if leads && blocks.all fun id =>
      requiresAtLeast (seen id) replicas id then
    linearizable.mapError fun text => .other ("raft write: " ++ text)
  else
    match write with
    | .error error => .error error
    | .ok .replicasRequired => .ok ()
    | .ok (.rejected message) => .error (.other ("raft write: " ++ message))
    | .ok _ => .error (.other "raft write: unexpected replica response")

/-! ## The cluster -/

/-- What comes back from a peer, its body bounded and parsed. -/
structure Response where
  success : Bool
  body : Option Json

/-- The value of a successful answer; there may be no answer at all. -/
def answer (response : Option Response) : Option Json :=
  match response with
  | none => none
  | some response => if response.success then response.body else none

/-- The moments at which an upload notes where its blocks are. -/
inductive Observation where
  | verified
  | probed (address : String) (position : Nat)
  | present (address : String)
  | absent (address : String)
  | uploaded (address : String)

/--
What the rest of the system does while an upload is acknowledged: the control
plane of this node and the leader it may name, the notes of the repair log,
and the peers.  A peer is asked about each block at most once, so its answers
depend on its address and the position of the block.
-/
structure World where
  leads : Bool
  seen : BlockId → MetadataState
  linearizable : Except String Unit
  write : Except ControlError KalpakDb.Response
  leaderAccepts : Option Bool
  commitInTime : Bool
  observe : Observation → Except String Unit
  known : List Nat
  probe : String → Nat → Option Response
  upload : String → Option Response
  inTime : Bool

inductive Error where
  | invalidId
  | invalidIds
  | control (text : String)
  | noLeaderReply
  | leaderRejected
  | commitDeadline
  | verification (failure : Failure)
  | observation (text : String)
  | tooFewNodes (required nodes : Nat)
  | tooFewReplicas (required acknowledged : Nat)
  | deadline
  deriving DecidableEq

/-- The members of the cluster except this node. -/
def peerNodes (self : Nat) (membership : ExtTreeMap Nat String) :
    List (Nat × String) :=
  membership.toList.filter fun peer => peer.1 ≠ self

/-! ## Identifiers as text -/

def idText (id : BlockId) : List Char := hexEncode id.bytes

def parseId (text : List Char) : Option BlockId :=
  (hexDecode? (Utf8.encode text)).bind BlockId.ofBytes?

def parseIds : List Json → Option (List BlockId)
  | [] => some []
  | .string text :: rest => do
      let id ← parseId text
      let ids ← parseIds rest
      pure (id :: ids)
  | _ :: _ => none

/-- The blocks of an upload, from the fields that its acknowledgements have. -/
def expectedIds (expected : List (String × Json)) :
    Except Error (List BlockId) :=
  match (Json.object expected).get? "id" with
  | some (.string text) =>
      match parseId text with
      | some id => .ok [id]
      | none => .error .invalidId
  | _ =>
      match (Json.object expected).field "ids" with
      | .array items =>
          match parseIds items with
          | some ids => .ok ids
          | none => .error .invalidIds
      | _ => .error .invalidIds

/-- A storage generation is the text of 32 bytes. -/
def validGeneration (text : List Char) : Bool :=
  text.length = 64 && text.all fun char =>
    ('0' ≤ char && char ≤ '9') || ('a' ≤ char && char ≤ 'f') ||
      ('A' ≤ char && char ≤ 'F')

/-! ## Acknowledging -/

/-- What the control plane of this node says to a requirement. -/
def World.requireReplicas
    (world : World)
    (blocks : List BlockId)
    (replicas : Nat) : Except ControlError Unit :=
  Replicas.requireReplicas world.leads world.seen world.linearizable
    world.write blocks (.ofNat replicas)

/-- Commit the requirement, or have the leader commit it. -/
def commitRequirements
    (world : World)
    (blocks : List BlockId)
    (replicas : Nat) : Except Error Unit :=
  if world.commitInTime then
    match world.requireReplicas blocks replicas with
    | .ok () => .ok ()
    | .error (.notLeader (some _)) =>
        match world.leaderAccepts with
        | none => .error .noLeaderReply
        | some true => .ok ()
        | some false => .error .leaderRejected
    | .error (.notLeader none) => .error (.control "not the leader; leader is None")
    | .error (.other text) => .error (.control text)
  else
    .error .commitDeadline

/-- What a peer says about a block names the node, the block and its state. -/
def confirms
    (value : Json)
    (node : Nat)
    (id : BlockId)
    (generation : List Char) : Bool :=
  (value.field "node_id").asU64? = some node &&
    (value.field "id").asStr? = some (idText id) &&
    validGeneration generation

def holdsBlock (value : Json) : Bool :=
  (value.field "present").asBool? = some true &&
    (value.field "cold_verified").asBool? = some true &&
    (value.field "retained").asBool? = some true

/-- Ask a peer about the blocks from a position on. -/
def probeFrom
    (world : World)
    (node : Nat)
    (address : String) :
    Nat → List BlockId → Option (List Char) → Option (List Char)
  | _, [], incarnation => incarnation
  | position, id :: rest, incarnation =>
      match answer (world.probe address position) with
      | none => none
      | some value =>
          match (value.field "storage_generation").asStr? with
          | none => none
          | some generation =>
              if confirms value node id generation then
                match world.observe (.probed address position) with
                | .error _ => none
                | .ok () =>
                    if holdsBlock value then
                      if incarnation.all (· = generation) then
                        probeFrom world node address (position + 1) rest
                          (some generation)
                      else
                        none
                    else
                      none
              else
                none

def probePeer
    (world : World)
    (node : Nat)
    (address : String)
    (ids : List BlockId) : Option (List Char) :=
  probeFrom world node address 0 ids none

/-- An acknowledgement of the upload by the node that was asked. -/
def acknowledges
    (value : Json)
    (node : Nat)
    (expected : List (String × Json)) : Bool :=
  (value.field "node_id").asU64? = some node &&
    (value.field "retained").asBool? = some true &&
    (value.field "cold_verified").asBool? = some true &&
    ((value.field "storage_generation").asStr?.any validGeneration) &&
    expected.all fun entry => value.get? entry.1 = some entry.2

/-- Ask the peers in turn until enough of them count. -/
def askPeers
    (world : World)
    (expected : List (String × Json))
    (ids : List BlockId)
    (required : Nat) :
    List (Nat × String) → List String → Nat → Except Error Unit
  | [], _, acknowledged => .error (.tooFewReplicas required acknowledged)
  | (node, address) :: rest, endpoints, acknowledged =>
      if address ∈ endpoints then
        askPeers world expected ids required rest endpoints acknowledged
      else
        let endpoints := address :: endpoints
        match probePeer world node address ids with
        | some _ =>
            match world.observe (.present address) with
            | .error text => .error (.observation text)
            | .ok () =>
                if required ≤ acknowledged + 1 then
                  .ok ()
                else
                  askPeers world expected ids required rest endpoints
                    (acknowledged + 1)
        | none =>
            match world.observe (.absent address) with
            | .error text => .error (.observation text)
            | .ok () =>
                match answer (world.upload address) with
                | none =>
                    askPeers world expected ids required rest endpoints
                      acknowledged
                | some value =>
                    if acknowledges value node expected then
                      match world.observe (.uploaded address) with
                      | .error text => .error (.observation text)
                      | .ok () =>
                          if required ≤ acknowledged + 1 then
                            .ok ()
                          else
                            askPeers world expected ids required rest
                              endpoints (acknowledged + 1)
                    else
                      askPeers world expected ids required rest endpoints
                        acknowledged

/-- Peers that are known to have the blocks come first. -/
def askedBefore (known : List Nat) (first second : Nat × String) : Bool :=
  if first.1 ∈ known then
    second.1 ∉ known || first.1 ≤ second.1
  else
    second.1 ∉ known && first.1 ≤ second.1

def sortPeers (known : List Nat) (peers : List (Nat × String)) :
    List (Nat × String) :=
  peers.insertionSort fun first second => askedBefore known first second

section Hash

variable (blake3 : Bytes → BlockId)

/-- Verify the cold copies of all blocks. -/
def verifyLocal : List BlockId → TieredM Unit
  | [] => pure ()
  | id :: rest => do
      TieredStore.verifyCold blake3 id
      verifyLocal rest

/-- `acknowledge_replicas` of a node with its store and its membership. -/
def acknowledgeReplicas
    (world : World)
    (self : Nat)
    (membership : ExtTreeMap Nat String)
    (store : TieredNode)
    (expected : List (String × Json))
    (required : Nat) : Except Error Unit :=
  if required = 1 then
    .ok ()
  else
    match expectedIds expected with
    | .error error => .error error
    | .ok ids =>
        match commitRequirements world ids required with
        | .error error => .error error
        | .ok () =>
            match (execute (verifyLocal blake3 ids) store).1 with
            | .error failure => .error (.verification failure)
            | .ok () =>
                match world.observe .verified with
                | .error text => .error (.observation text)
                | .ok () =>
                    let known := if ids = [] then [] else world.known
                    let peers := sortPeers known (peerNodes self membership)
                    if peers.length + 1 < required then
                      .error (.tooFewNodes required (peers.length + 1))
                    else if world.inTime then
                      askPeers world expected ids required peers [] 1
                    else
                      .error .deadline

end Hash

/-! ## What an acknowledgement proves -/

/--
A requirement was accepted in time.  Either this node's control plane accepts
it, because the write is answered so, or because the node leads, requires as
much already and still leads; or it names a leader, which accepts it.
-/
def Committed
    (world : World)
    (blocks : List BlockId)
    (replicas : Nat) : Prop :=
  world.commitInTime = true ∧
    (world.requireReplicas blocks replicas = .ok () ∧
        (world.write = .ok .replicasRequired ∨
          world.leads = true ∧
            (∀ id ∈ blocks,
              requiresAtLeast (world.seen id) (.ofNat replicas) id = true) ∧
            world.linearizable = .ok ()) ∨
      (∃ address,
        world.requireReplicas blocks replicas =
          .error (.notLeader (some address))) ∧
        world.leaderAccepts = some true)

/--
A peer has answered for every block, under one generation, that it is the node
asked for and has a retained and verified copy.
-/
def Probed
    (world : World)
    (ids : List BlockId)
    (peer : Nat × String) : Prop :=
  ids ≠ [] ∧
    ∃ generation,
      validGeneration generation = true ∧
        ∀ position id,
          ids[position]? = some id →
          ∃ value,
            answer (world.probe peer.2 position) = some value ∧
              (value.field "node_id").asU64? = some peer.1 ∧
              (value.field "id").asStr? = some (idText id) ∧
              (value.field "storage_generation").asStr? = some generation ∧
              (value.field "present").asBool? = some true ∧
              (value.field "cold_verified").asBool? = some true ∧
              (value.field "retained").asBool? = some true

/-- A peer has acknowledged the upload with every expected field. -/
def Uploaded
    (world : World)
    (expected : List (String × Json))
    (peer : Nat × String) : Prop :=
  ∃ value,
    answer (world.upload peer.2) = some value ∧
      (value.field "node_id").asU64? = some peer.1 ∧
      (value.field "retained").asBool? = some true ∧
      (value.field "cold_verified").asBool? = some true ∧
      (∃ generation,
        (value.field "storage_generation").asStr? = some generation ∧
          validGeneration generation = true) ∧
      ∀ name content,
        (name, content) ∈ expected → value.get? name = some content

section Proofs

variable {world : World} {expected : List (String × Json)}
  {ids : List BlockId} {required : Nat} {node : Nat} {address : String}

/-- What stands behind an acceptance by this node's control plane. -/
theorem accepted_of_requireReplicas
    (accepted : world.requireReplicas ids required = .ok ()) :
    world.write = .ok .replicasRequired ∨
      world.leads = true ∧
        (∀ id ∈ ids,
          requiresAtLeast (world.seen id) (.ofNat required) id = true) ∧
        world.linearizable = .ok () := by
  unfold World.requireReplicas requireReplicas at accepted
  split at accepted
  · cases accepted
  · split at accepted
    · rename_i known
      obtain ⟨leads, enough⟩ := Bool.and_eq_true_iff.mp known
      refine Or.inr ⟨leads, List.all_eq_true.mp enough, ?_⟩
      cases confirmed : world.linearizable with
      | error text =>
          rw [confirmed] at accepted
          cases accepted
      | ok =>
          rfl
    · split at accepted
      · cases accepted
      · rename_i written
        exact Or.inl written
      · cases accepted
      · cases accepted

/-- A commit that succeeds was accepted by this node or by the leader. -/
theorem committed_of_ok
    (succeeded : commitRequirements world ids required = .ok ()) :
    Committed world ids required := by
  unfold commitRequirements at succeeded
  split at succeeded
  · rename_i inTime
    refine ⟨inTime, ?_⟩
    split at succeeded
    · rename_i accepted
      exact Or.inl ⟨accepted, accepted_of_requireReplicas accepted⟩
    · rename_i address named
      split at succeeded
      · cases succeeded
      · rename_i forwarded
        exact Or.inr ⟨⟨address, named⟩, forwarded⟩
      · cases succeeded
    · cases succeeded
    · cases succeeded
  · cases succeeded

/-- The answers of a successful round of questions agree. -/
theorem probed_of_probeFrom
    {position : Nat}
    {incarnation : Option (List Char)}
    {generation : List Char}
    (probed :
      probeFrom world node address position ids incarnation =
        some generation) :
    (∀ old, incarnation = some old → old = generation) ∧
      ∀ index id,
        ids[index]? = some id →
        ∃ value,
          answer (world.probe address (position + index)) = some value ∧
            (value.field "storage_generation").asStr? = some generation ∧
            confirms value node id generation = true ∧
            holdsBlock value = true := by
  induction ids generalizing position incarnation with
  | nil =>
      rw [probeFrom] at probed
      subst probed
      exact ⟨fun old same => (Option.some.inj same).symm, by simp⟩
  | cons id rest inductionHypothesis =>
      rw [probeFrom] at probed
      split at probed
      · cases probed
      · rename_i value answered
        split at probed
        · cases probed
        · rename_i current isCurrent
          split at probed
          · rename_i confirmed
            split at probed
            · cases probed
            · split_ifs at probed with held same
              obtain ⟨kept, later⟩ := inductionHypothesis probed
              have isGeneration := kept current rfl
              subst isGeneration
              refine ⟨?_, ?_⟩
              · rintro old rfl
                simpa using same
              · intro index other present
                cases index with
                | zero =>
                    cases present
                    exact ⟨value, answered, isCurrent, confirmed, held⟩
                | succ index =>
                    obtain ⟨found, isFound⟩ := later index other present
                    rw [Nat.add_assoc, Nat.add_comm 1] at isFound
                    exact ⟨found, isFound⟩
          · cases probed

theorem probed_of_probePeer
    {generation : List Char}
    (probed : probePeer world node address ids = some generation) :
    Probed world ids (node, address) := by
  obtain ⟨-, answers⟩ := probed_of_probeFrom probed
  cases ids with
  | nil =>
      cases probed
  | cons first rest =>
      refine ⟨List.cons_ne_nil _ _, generation, ?_, ?_⟩
      · obtain ⟨value, -, -, confirmed, -⟩ := answers 0 first rfl
        simp only [confirms, Bool.and_eq_true] at confirmed
        exact confirmed.2
      · intro position id present
        obtain ⟨value, answered, isGeneration, confirmed, held⟩ :=
          answers position id present
        simp only [confirms, holdsBlock, Bool.and_eq_true,
          decide_eq_true_eq] at confirmed held
        rw [Nat.zero_add] at answered
        exact ⟨value, answered, confirmed.1.1, confirmed.1.2, isGeneration,
          held.1.1, held.1.2, held.2⟩

theorem uploaded_of_acknowledges
    {value : Json}
    (answered : answer (world.upload address) = some value)
    (accepted : acknowledges value node expected = true) :
    Uploaded world expected (node, address) := by
  simp only [acknowledges, Bool.and_eq_true, decide_eq_true_eq,
    List.all_eq_true] at accepted
  obtain ⟨⟨⟨⟨sameNode, retained⟩, verified⟩, valid⟩, fields⟩ := accepted
  refine ⟨value, answered, sameNode, retained, verified, ?_, ?_⟩
  · simpa [Option.any_eq_true] using valid
  · exact fun name content listed => fields (name, content) listed

/--
The peers that count, of those still to be asked: they are at different
addresses, none asked before.
-/
structure Counted
    (world : World)
    (expected : List (String × Json))
    (ids : List BlockId)
    (peers : List (Nat × String))
    (endpoints : List String)
    (counted : List (Nat × String)) : Prop where
  listed : counted.Sublist peers
  distinct : (counted.map Prod.snd).Nodup
  fresh : ∀ peer ∈ counted, peer.2 ∉ endpoints
  vouch :
    ∀ peer ∈ counted, Probed world ids peer ∨ Uploaded world expected peer

namespace Counted

variable {peer : Nat × String} {rest counted : List (Nat × String)}
  {endpoints : List String}

theorem nil (peers : List (Nat × String)) :
    Counted world expected ids peers endpoints [] where
  listed := List.nil_sublist _
  distinct := List.nodup_nil
  fresh := by simp
  vouch := by simp

/-- One more peer that does not count. -/
theorem skip
    (tail : Counted world expected ids rest endpoints counted)
    (peer : Nat × String) :
    Counted world expected ids (peer :: rest) endpoints counted :=
  { tail with listed := tail.listed.cons peer }

theorem weaken
    {address : String}
    (tail : Counted world expected ids rest (address :: endpoints) counted) :
    Counted world expected ids rest endpoints counted :=
  { tail with
    fresh := fun peer member asked =>
      tail.fresh peer member (List.mem_cons_of_mem _ asked) }

/-- One more peer that counts. -/
theorem cons
    (tail : Counted world expected ids rest (peer.2 :: endpoints) counted)
    (unasked : peer.2 ∉ endpoints)
    (vouches : Probed world ids peer ∨ Uploaded world expected peer) :
    Counted world expected ids (peer :: rest) endpoints
      (peer :: counted) where
  listed := tail.listed.cons_cons peer
  distinct := by
    rw [List.map_cons, List.nodup_cons]
    refine ⟨?_, tail.distinct⟩
    intro repeated
    obtain ⟨other, member, same⟩ := List.mem_map.mp repeated
    exact tail.fresh other member (same ▸ List.mem_cons_self)
  fresh := by
    intro other member
    rcases List.mem_cons.mp member with rfl | later
    · exact unasked
    · exact tail.weaken.fresh other later
  vouch := by
    intro other member
    rcases List.mem_cons.mp member with rfl | later
    · exact vouches
    · exact tail.vouch other later

end Counted

/-- Asking the peers ends well only when enough of them count. -/
theorem counted_of_askPeers
    {peers : List (Nat × String)}
    {endpoints : List String}
    {acknowledged : Nat}
    (asked :
      askPeers world expected ids required peers endpoints acknowledged =
        .ok ()) :
    ∃ counted,
      Counted world expected ids peers endpoints counted ∧
        required ≤ acknowledged + counted.length := by
  induction peers generalizing endpoints acknowledged with
  | nil =>
      cases asked
  | cons peer rest inductionHypothesis =>
      obtain ⟨node, address⟩ := peer
      have counts
          (unasked : address ∉ endpoints)
          (vouches :
            Probed world ids (node, address) ∨
              Uploaded world expected (node, address))
          (continued :
            (if required ≤ acknowledged + 1 then .ok ()
            else askPeers world expected ids required rest
              (address :: endpoints) (acknowledged + 1)) = .ok ()) :
          ∃ counted,
            Counted world expected ids ((node, address) :: rest) endpoints
                counted ∧
              required ≤ acknowledged + counted.length := by
        split_ifs at continued with enough
        · exact ⟨[(node, address)], (Counted.nil rest).cons unasked vouches,
            enough⟩
        · obtain ⟨counted, tail, bound⟩ := inductionHypothesis continued
          refine ⟨(node, address) :: counted, tail.cons unasked vouches, ?_⟩
          rw [List.length_cons]
          omega
      have passes
          (continued :
            askPeers world expected ids required rest
              (address :: endpoints) acknowledged = .ok ()) :
          ∃ counted,
            Counted world expected ids ((node, address) :: rest) endpoints
                counted ∧
              required ≤ acknowledged + counted.length := by
        obtain ⟨counted, tail, bound⟩ := inductionHypothesis continued
        exact ⟨counted, tail.weaken.skip _, bound⟩
      rw [askPeers] at asked
      split at asked
      · obtain ⟨counted, tail, bound⟩ := inductionHypothesis asked
        exact ⟨counted, tail.skip _, bound⟩
      · rename_i repeated
        dsimp only at asked
        split at asked
        · rename_i generation probed
          split at asked
          · cases asked
          · exact counts repeated (Or.inl (probed_of_probePeer probed)) asked
        · split at asked
          · cases asked
          · split at asked
            · exact passes asked
            · rename_i value answered
              split at asked
              · rename_i accepted
                split at asked
                · cases asked
                · exact counts repeated
                    (Or.inr (uploaded_of_acknowledges answered accepted))
                    asked
              · exact passes asked

/-- The cold copy of a block can be read and has the right digest. -/
def ReadsCold
    (blake3 : Bytes → BlockId)
    (store : TieredNode)
    (id : BlockId) : Prop :=
  ∃ fault bytes,
    (execute (getBlock blake3 id) { store.cold with fault := fault }).1 =
        .ok bytes ∧
      blake3 bytes = id

/-- Verifying changes only the tiers above the cold store. -/
theorem ends_verifyLocal
    (blake3 : Bytes → BlockId)
    (ids : List BlockId)
    (store : TieredNode) :
    Ends (verifyLocal blake3 ids) store
      (fun _ _ => ∀ id ∈ ids, ReadsCold blake3 store id)
      (fun _ _ => True) := by
  induction ids generalizing store with
  | nil =>
      exact fun id member => absurd member List.not_mem_nil
  | cons id rest inductionHypothesis =>
      simp only [verifyLocal, TieredStore.verifyCold, onCold, ends_bind,
        ends_observe, ends_within]
      rcases outcome : execute (getBlock blake3 id) store.cold with
        ⟨failure | bytes, final⟩
      · rw [ends_of_error outcome]
        cases failure with
        | blockNotFound missing =>
            trivial
        | corrupt damaged =>
            trivial
        | io error =>
            trivial
        | panicked =>
            trivial
        | diverged =>
            trivial
      · obtain ⟨digest, -, fault, rfl⟩ :=
          (ends_of_ok outcome).mp (ends_getBlock_any blake3 store.cold id)
        rw [ends_of_ok outcome]
        refine (inductionHypothesis _).imp ?_
        intro _ _ later other member
        rcases List.mem_cons.mp member with rfl | inRest
        · exact ⟨store.cold.fault, bytes, congrArg Prod.fst outcome, digest⟩
        · exact later other inRest

/-- The peers of a membership are other nodes, each listed once. -/
theorem nodup_peerNodes (self : Nat) (membership : ExtTreeMap Nat String) :
    ((peerNodes self membership).map Prod.fst).Nodup := by
  have distinct : (membership.toList.map Prod.fst).Nodup := by
    rw [ExtTreeMap.map_fst_toList_eq_keys]
    exact membership.nodup_keys
  exact distinct.sublist (List.filter_sublist.map Prod.fst)

theorem mem_peerNodes
    {self node : Nat}
    {membership : ExtTreeMap Nat String}
    {address : String} :
    (node, address) ∈ peerNodes self membership ↔
      node ≠ self ∧ membership[node]? = some address := by
  rw [peerNodes, List.mem_filter, FiniteMap.mem_toList, decide_eq_true_eq,
    and_comm]

theorem sortPeers_perm (known : List Nat) (peers : List (Nat × String)) :
    (sortPeers known peers).Perm peers :=
  List.perm_insertionSort _ peers

/--
If an upload is acknowledged, its requirement was committed in time by this
node or by the leader, the local cold copies can be read, and for all replicas but this node's own there are peers,
different from this node, in different nodes and at different addresses, each
of which answered for all blocks.
-/
theorem acknowledged_replicas_real
    (blake3 : Bytes → BlockId)
    (world : World)
    (self : Nat)
    (membership : ExtTreeMap Nat String)
    (store : TieredNode)
    (expected : List (String × Json))
    (required : Nat)
    (several : 2 ≤ required)
    (acknowledged :
      acknowledgeReplicas blake3 world self membership store expected
        required = .ok ()) :
    ∃ (ids : List BlockId) (peers : List (Nat × String)),
      expectedIds expected = .ok ids ∧
        commitRequirements world ids required = .ok () ∧
        Committed world ids required ∧
        (∀ id ∈ ids, ReadsCold blake3 store id) ∧
        required - 1 ≤ peers.length ∧
        (peers.map Prod.fst).Nodup ∧
        (peers.map Prod.snd).Nodup ∧
        ∀ node address,
          (node, address) ∈ peers →
          node ≠ self ∧
            membership[node]? = some address ∧
            (Probed world ids (node, address) ∨
              Uploaded world expected (node, address)) := by
  unfold acknowledgeReplicas at acknowledged
  rw [if_neg (by omega)] at acknowledged
  split at acknowledged
  · cases acknowledged
  · rename_i ids isIds
    split at acknowledged
    · cases acknowledged
    · rename_i committed
      split at acknowledged
      · cases acknowledged
      · rename_i verified
        split at acknowledged
        · cases acknowledged
        · dsimp only at acknowledged
          generalize (if ids = [] then [] else world.known) = known
            at acknowledged
          split at acknowledged
          · cases acknowledged
          · split at acknowledged
            · obtain ⟨peers, counted, enough⟩ :=
                counted_of_askPeers acknowledged
              have sorted := sortPeers_perm known (peerNodes self membership)
              have reads : ∀ id ∈ ids, ReadsCold blake3 store id := by
                have ends := ends_verifyLocal blake3 ids store
                rw [Ends] at ends
                split at ends
                · exact ends
                · rename_i failed
                  rw [failed] at verified
                  cases verified
              refine ⟨ids, peers, isIds, committed,
                committed_of_ok committed, reads, by omega, ?_,
                counted.distinct, ?_⟩
              · refine List.Nodup.sublist (counted.listed.map Prod.fst) ?_
                exact (sorted.map Prod.fst).nodup_iff.mpr
                  (nodup_peerNodes self membership)
              · intro node address member
                obtain ⟨other, isMember⟩ := mem_peerNodes.mp
                  (sorted.mem_iff.mp (counted.listed.subset member))
                exact ⟨other, isMember, counted.vouch _ member⟩
            · cases acknowledged

end Proofs

/-! ## A sample upload -/

/-- The digest of the single byte one. -/
def sampleId : BlockId := .ofOneByte

/-- BLAKE3 on the payload of the sample block. -/
def sampleBlake3 (bytes : Bytes) : BlockId :=
  if bytes = [1] then sampleId else BlockId.filled 0

/-- A store with the sample block in its only segment. -/
def sampleStore : TieredNode where
  tiers := .new 0
  cold :=
    { disk :=
        { objects := [⟨encodeRecord sampleId [1], by decide +kernel⟩]
          segments := (∅ : ExtTreeMap Nat Nat).insert 0 0 }
      store :=
        { index := (∅ : ExtTreeMap BlockId Location).insert sampleId
            { segment := 0, offset := 0, payloadLen := 1 }
          files := [0]
          tail := 4096 } }

def sampleGeneration : List Char := List.replicate 64 '7'

/-- What an honest peer with the block says about it. -/
def presence (node : Nat) : Json :=
  .object
    [("id", .string (idText sampleId)),
      ("node_id", .integer node),
      ("storage_generation", .string sampleGeneration),
      ("present", .bool true),
      ("cold_verified", .bool true),
      ("retained", .bool true)]

/-- What an honest peer says when it has stored the block. -/
def stored (node : Nat) : Json :=
  .object
    [("id", .string (idText sampleId)),
      ("bytes", .integer 1),
      ("node_id", .integer node),
      ("storage_generation", .string sampleGeneration),
      ("cold_verified", .bool true),
      ("retained", .bool true)]

/-- The second node has the block, the fourth one stores it. -/
def sampleWorld : World where
  leads := false
  seen := fun _ => {}
  linearizable := .ok ()
  write := .error (.notLeader (some "node-4:7070"))
  leaderAccepts := some true
  commitInTime := true
  observe := fun _ => .ok ()
  known := []
  probe := fun address _ =>
    if address = "node-2:7070" then some ⟨true, some (presence 2)⟩ else none
  upload := fun address =>
    if address = "node-4:7070" then some ⟨true, some (stored 4)⟩ else none
  inTime := true

/-- The third node is listed with the address of the second. -/
def sampleMembership : ExtTreeMap Nat String :=
  .ofList [(1, "node-1:7070"), (2, "node-2:7070"), (3, "node-2:7070"),
    (4, "node-4:7070")]

theorem acknowledged_replicas_real_three :
    ∃ (ids : List BlockId) (peers : List (Nat × String)),
      expectedIds [("id", .string (idText sampleId))] = .ok ids ∧
        Committed sampleWorld ids 3 ∧
        2 ≤ peers.length ∧
        (peers.map Prod.fst).Nodup ∧
        (peers.map Prod.snd).Nodup := by
  obtain ⟨ids, peers, isIds, -, committed, -, enough, nodes, addresses, -⟩ :=
    acknowledged_replicas_real sampleBlake3 sampleWorld 1 sampleMembership
      sampleStore [("id", .string (idText sampleId))] 3 (by decide)
      (by decide +kernel)
  exact ⟨ids, peers, isIds, committed, enough, nodes, addresses⟩

end KalpakDb.Replicas
