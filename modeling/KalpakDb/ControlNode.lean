import KalpakDb.RaftLogPurge
import KalpakDb.Snapshot

namespace KalpakDb.ControlNode

/-!
# A control-plane node

A node keeps its Raft log and the last snapshot of its state machine in one
directory.  Starting it opens both, and refuses a directory whose log was
purged beyond its snapshot.  A snapshot is serialized under the publication
lock and published by one rename; entries can be applied between the two.  A
storage error is fatal to the Raft core, so a failed call leaves the files to
the next start just as the end of the process does.

The nodes of a cluster pass snapshots to each other.  What the Raft core may
ask of a node is stated against the agreed log: it decides what is appended,
truncated, purged, applied and installed, and the node only has to survive it.
-/

/-- The contents of `raft-snapshot.json`. -/
structure DurableSnapshot where
  version : Nat
  metadata : SnapshotMeta
  data : Bytes

/-- How keys are written, and a node's files written and read back. -/
structure Codecs where
  bindingKey : CacheKey → String
  log : RaftLog.Codec EntryPayload
  snapshots : SnapshotCodecs
  writeSaved : DurableSnapshot → Bytes
  readSaved : Bytes → Option DurableSnapshot
  readMeta_writeMeta :
    ∀ metadata, log.readMeta (log.writeMeta metadata) = some metadata
  readSaved_writeSaved :
    ∀ saved, readSaved (writeSaved saved) = some saved

/-- The files of a node. -/
structure Files where
  log : RaftLog.Disk := {}
  snapshot : Option Bytes := none

/-- The state machine; a snapshot that is being published holds the lock. -/
structure StateMachineStore where
  state : MetadataState := {}
  snapshot : Option (SnapshotMeta × Bytes) := none
  snapshotIdx : Nat := 0
  publication : Option (SnapshotMeta × Bytes) := none

/-- A started node. -/
structure ControlPlane where
  log : RaftLog.Inner EntryPayload
  machine : StateMachineStore

structure Node where
  files : Files := {}
  running : Option ControlPlane := none

inductive StartError where
  | logRecovery (error : RaftLog.OpenError)
  | snapshotRecovery (error : SnapshotError)
  | init (message : String)
  deriving DecidableEq

/-! ## Entries in the log -/

/-- An entry as the log store keeps it. -/
def logged (entry : Entry) : RaftLog.Entry EntryPayload where
  logId :=
    ⟨entry.logId.leaderId.term.toNat, entry.logId.leaderId.nodeId.toNat,
      entry.logId.index.toNat⟩
  payload := entry.payload

/-- An entry as the state machine is given it. -/
def unlogged (entry : RaftLog.Entry EntryPayload) : Entry where
  logId :=
    ⟨⟨.ofNat entry.logId.term, .ofNat entry.logId.nodeId⟩,
      .ofNat entry.logId.index⟩
  payload := entry.payload

@[simp] theorem unlogged_logged (entry : Entry) :
    unlogged (logged entry) = entry := by
  simp [unlogged, logged]

/-- How many entries lie at or before a position. -/
def covered (position : Option LogId) : Nat :=
  position.elim 0 fun id => id.index.toNat + 1

/-! ## Starting a node -/

section Operations

variable (codecs : Codecs)

/-- `StateMachineStore::open`. -/
def openMachine (file : Option Bytes) :
    Except SnapshotError StateMachineStore :=
  match file with
  | none => .ok {}
  | some bytes =>
      match codecs.readSaved bytes with
      | none => .error .undecodable
      | some saved =>
          if saved.version ≠ 1 then
            .error (.rejected "unsupported snapshot version")
          else
            match decodeSnapshot codecs.bindingKey codecs.snapshots
                saved.metadata saved.data with
            | .error error => .error error
            | .ok state =>
                .ok {
                  state := state
                  snapshot := some (saved.metadata, saved.data) }

def purgedMessage : String :=
  "purged Raft logs require a durable snapshot; recover from a healthy " ++
    "peer or verified backup"

/--
`start_node_with_mesh`: the recovered node or the reason to refuse, and the
files with a torn log line cut off.
-/
def startNode (files : Files) : Files × Except StartError ControlPlane :=
  match RaftLog.openStore codecs.log files.log with
  | .error error => (files, .error (.logRecovery error))
  | .ok (log, disk) =>
      ({ files with log := disk },
        match openMachine codecs files.snapshot with
        | .error error => .error (.snapshotRecovery error)
        | .ok machine =>
            match log.getLogState.lastPurgedLogId with
            | none => .ok ⟨log, machine⟩
            | some purged =>
                if machine.state.lastApplied.any
                    fun id => purged.index ≤ id.index.toNat then
                  .ok ⟨log, machine⟩
                else
                  .error (.init purgedMessage))

/-! ## The steps of a node -/

/-- How replacing a file ends: done, or stopped around its rename. -/
inductive Replacement where
  | completed
  | stopped (renamed : Bool)
  deriving DecidableEq

/-- What happens to a node. -/
inductive Event where
  | start
  | stop
  | log (call : RaftLog.Call EntryPayload)
  | apply (entries : List Entry)
  | serializeSnapshot
  | publishSnapshot (ending : Replacement)
  | installSnapshot
      (snapshot : SnapshotMeta × Bytes)
      (ending : Replacement)

def persistSnapshot
    (snapshot : SnapshotMeta × Bytes)
    (files : Files) : Files :=
  { files with
    snapshot := some (codecs.writeSaved ⟨1, snapshot.1, snapshot.2⟩) }

/-- Persist a snapshot; the memory follows when that has succeeded. -/
def replaceSnapshot
    (files : Files)
    (plane : ControlPlane)
    (snapshot : SnapshotMeta × Bytes)
    (state : MetadataState) : Replacement → Node
  | .completed =>
      ⟨persistSnapshot codecs snapshot files,
        some { plane with
          machine := { plane.machine with
            state := state
            snapshot := some snapshot
            publication := none } }⟩
  | .stopped renamed =>
      ⟨if renamed then persistSnapshot codecs snapshot files else files,
        none⟩

/-- A step of a started node. -/
def stepRunning (files : Files) (plane : ControlPlane) : Event → Node
  | .start => ⟨files, some plane⟩
  | .stop => ⟨files, none⟩
  | .log call =>
      let host := RaftLog.stepCall codecs.log files.log plane.log call
      ⟨{ files with log := host.disk },
        host.store.map fun log => { plane with log := log }⟩
  | .apply entries =>
      ⟨files,
        some { plane with
          machine := { plane.machine with
            state :=
              (apply codecs.bindingKey plane.machine.state entries).1 } }⟩
  | .serializeSnapshot =>
      match plane.machine.publication with
      | some _ => ⟨files, some plane⟩
      | none =>
          let index := plane.machine.snapshotIdx + 1
          ⟨files,
            some { plane with
              machine := { plane.machine with
                snapshotIdx := index
                publication :=
                  some (buildSnapshot codecs.snapshots plane.machine.state
                    index) } }⟩
  | .publishSnapshot ending =>
      match plane.machine.publication with
      | none => ⟨files, some plane⟩
      | some snapshot =>
          replaceSnapshot codecs files plane snapshot plane.machine.state
            ending
  | .installSnapshot snapshot ending =>
      match plane.machine.publication with
      | some _ => ⟨files, some plane⟩
      | none =>
          match decodeSnapshot codecs.bindingKey codecs.snapshots
              snapshot.1 snapshot.2 with
          | .error _ => ⟨files, none⟩
          | .ok state =>
              replaceSnapshot codecs files plane snapshot state ending

/-- A step of a node; one that is not started can only be started. -/
def stepNode (node : Node) (event : Event) : Node :=
  match node.running, event with
  | some plane, event => stepRunning codecs node.files plane event
  | none, .start =>
      let (files, started) := startNode codecs node.files
      ⟨files, started.toOption⟩
  | none, _ => node

/-- How many entries the state of a started node covers. -/
def Node.position (node : Node) : Nat :=
  node.running.elim 0 fun plane => covered plane.machine.state.lastApplied

/-- `get_current_snapshot`. -/
def Node.currentSnapshot (node : Node) : Option (SnapshotMeta × Bytes) :=
  node.running.bind fun plane => plane.machine.snapshot

/-- How many entries the snapshot that a node reports covers. -/
def Node.reported (node : Node) : Nat :=
  node.currentSnapshot.elim 0 fun snapshot => covered snapshot.1.lastLogId

/-! ## A cluster -/

/-- A node, and how many entries its state has ever covered. -/
structure Member where
  node : Node := {}
  reached : Nat := 0

def Member.moved (member : Member) (node : Node) : Member :=
  ⟨node, max member.reached node.position⟩

def stepMember (member : Member) (event : Event) : Member :=
  member.moved (stepNode codecs member.node event)

/-- The members by their identifiers, and the snapshots sent so far. -/
structure Cluster where
  members : Nat → Member := fun _ => {}
  sent : List (SnapshotMeta × Bytes) := []

inductive ClusterEvent where
  | member (id : Nat) (event : Event)
  | send (id : Nat)

def stepCluster (cluster : Cluster) : ClusterEvent → Cluster
  | .member id event =>
      { cluster with
        members :=
          Function.update cluster.members id
            (stepMember codecs (cluster.members id) event) }
  | .send id =>
      { cluster with
        sent :=
          cluster.sent ++ (cluster.members id).node.currentSnapshot.toList }

/-- The cluster before an event of a history. -/
def clusterBefore (events : List ClusterEvent) (position : Nat) : Cluster :=
  StepRun.before (stepCluster codecs) {} events position

end Operations

/-! ## What the Raft core asks of a node -/

/-- A log that a cluster agrees on; its entries are numbered by their place. -/
structure Setting extends Codecs where
  agreed : List Entry
  numbered :
    ∀ (index : Nat) (entry : Entry),
      agreed[index]? = some entry → entry.logId.index.toNat = index

/--
What a log call may do: nothing that a member has applied is replaced by
another entry or truncated, and what is purged is covered by the snapshot the
member reports.
-/
@[reducible] def CallPermitted
    (setting : Setting)
    (member : Member) : RaftLog.Call EntryPayload → Prop
  | .append entries | .crashAppend entries _ =>
      ∀ entry ∈ entries,
        setting.log.RoundTrips entry ∧
          (entry.logId.index < member.reached →
            setting.agreed[entry.logId.index]?.map logged = some entry)
  | .truncate id | .crashTruncate id _ => member.reached ≤ id.index
  | .purge id | .crashPurge id _ => id.index < member.node.reported
  | .saveVote _ | .saveCommitted _ => True

/--
What may happen to a started node: the next agreed entries are applied once
they are in its log, and a snapshot is installed that another node has sent
and that is not behind the state.
-/
@[reducible] def EventPermitted
    (setting : Setting)
    (cluster : Cluster)
    (id : Nat) : Event → Prop
  | .log call => CallPermitted setting (cluster.members id) call
  | .apply entries =>
      entries =
          (setting.agreed.drop (cluster.members id).node.position).take
            entries.length ∧
        ∀ entry ∈ entries,
          ((cluster.members id).node.running.bind fun plane =>
            plane.log.log[entry.logId.index.toNat]?) = some (logged entry)
  | .installSnapshot snapshot _ =>
      snapshot ∈ cluster.sent ∧
        (cluster.members id).node.position ≤ covered snapshot.1.lastLogId
  | .start | .stop | .serializeSnapshot | .publishSnapshot _ => True

/-- A node that is not started is asked for nothing. -/
@[reducible] def ClusterEventPermitted
    (setting : Setting)
    (cluster : Cluster) : ClusterEvent → Prop
  | .member id event =>
      (cluster.members id).node.running.isSome = true →
        EventPermitted setting cluster id event
  | .send _ => True

/-- Every event of a history is one the Raft core may ask for. -/
def Permitted
    (setting : Setting)
    (events : List ClusterEvent) : Prop :=
  ∀ (position : Nat) (event : ClusterEvent),
    events[position]? = some event →
    ClusterEventPermitted setting
      (clusterBefore setting.toCodecs events position) event

/-! ## Checking a history -/

section Decidable

variable (setting : Setting)

instance (member : Member) (call : RaftLog.Call EntryPayload) :
    Decidable (CallPermitted setting member call) :=
  match call with
  | .append _ | .crashAppend _ _ | .truncate _ | .crashTruncate _ _
  | .purge _ | .crashPurge _ _ | .saveVote _ | .saveCommitted _ =>
      inferInstance

instance (cluster : Cluster) (id : Nat) (event : Event) :
    Decidable (EventPermitted setting cluster id event) :=
  match event with
  | .start | .stop | .log _ | .apply _ | .serializeSnapshot
  | .publishSnapshot _ | .installSnapshot _ _ => inferInstance

instance (cluster : Cluster) (event : ClusterEvent) :
    Decidable (ClusterEventPermitted setting cluster event) :=
  match event with
  | .member _ _ | .send _ => inferInstance

instance (events : List ClusterEvent) :
    Decidable (Permitted setting events) :=
  decidable_of_iff
    (∀ position < events.length, ∀ event ∈ events[position]?,
      ClusterEventPermitted setting
        (clusterBefore setting.toCodecs events position) event)
    ⟨fun every position event present =>
        every position (List.getElem?_eq_some_iff.mp present).1 event present,
      fun every position _ event present => every position event present⟩

end Decidable

end KalpakDb.ControlNode
