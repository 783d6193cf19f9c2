import KalpakDb.BincodeLayout
import KalpakDb.ControlNode

namespace KalpakDb.ControlNode

/-!
# Restarting the nodes of a cluster

Every snapshot in a cluster, on disk, in memory or on its way, is one of a
state of the agreed log.  A node's files hold a snapshot and every agreed
entry from there to the furthest one its state has ever covered.  So a node
can be stopped between any two steps, and inside its file replacements: it
starts again, and applying what its log returns leads back to where it was.
-/

open Std (ExtTreeMap)
open RaftLog (Represents)

/-! ## The states of the agreed log -/

/-- The state after the first agreed entries. -/
def Setting.agreedState (setting : Setting) (count : Nat) : MetadataState :=
  stateAt setting.bindingKey {} setting.agreed count

section Agreed

variable {setting : Setting}

theorem Setting.increasing (setting : Setting) :
    IncreasingIndices setting.agreed := by
  refine List.pairwise_iff_getElem.mpr ?_
  intro earlier later earlierBound laterBound ordered
  have first := setting.numbered earlier setting.agreed[earlier] (by simp)
  have second := setting.numbered later setting.agreed[later] (by simp)
  exact UInt64.lt_iff_toNat_lt.mpr (by omega)

theorem agreedState_restorable (count : Nat) :
    (setting.agreedState count).Restorable setting.bindingKey := by
  refine .of_positioned (stateAt_consistent .empty count)
    (stateAt_positioned .empty .empty setting.increasing ?_ count)
  intro entry _
  exact UInt64.zero_le

theorem covered_agreedState
    {count : Nat}
    (within : count ≤ setting.agreed.length) :
    covered (setting.agreedState count).lastApplied = count := by
  cases count with
  | zero =>
      rfl
  | succ last =>
      have present : setting.agreed[last]? = some setting.agreed[last] := by
        simp
      have consistent : (setting.agreedState last).Consistent
          setting.bindingKey := stateAt_consistent .empty last
      unfold Setting.agreedState at consistent ⊢
      rw [covered, stateAt_succ present,
        stepEntry_lastApplied _ consistent.leases.dormant]
      simpa using setting.numbered last setting.agreed[last] present

/-- Applying the next agreed entries leads to the next agreed state. -/
theorem apply_agreedState (count more : Nat) :
    (apply setting.bindingKey (setting.agreedState count)
        ((setting.agreed.drop count).take more)).1 =
      setting.agreedState (count + more) := by
  rw [apply_eq_run]
  unfold runFrom Setting.agreedState stateAt StepRun.before
  rw [← StepRun.after_append, List.take_add]

end Agreed

/-! ## What a member's files and memory hold -/

section Invariant

variable (setting : Setting) {count : Nat} {snapshot : SnapshotMeta × Bytes}

/-- A snapshot of the state after some agreed entries. -/
def SnapshotOf (count : Nat) (snapshot : SnapshotMeta × Bytes) : Prop :=
  ∃ index,
    snapshot =
      buildSnapshot setting.snapshots (setting.agreedState count) index

/-- The memory of a started node whose file covers `saved` entries. -/
structure Follows
    (saved applied : Nat)
    (machine : StateMachineStore) : Prop where
  state : machine.state = setting.agreedState applied
  savedApplied : saved ≤ applied
  snapshot :
    ∀ snapshot, machine.snapshot = some snapshot →
      ∃ count ≤ saved, SnapshotOf setting count snapshot
  publication :
    ∀ snapshot, machine.publication = some snapshot →
      ∃ count, saved ≤ count ∧ count ≤ applied ∧
        SnapshotOf setting count snapshot

/--
What a restart needs: the snapshot file covers `saved` entries, and the log
holds the agreed ones from there to the furthest one ever covered.
-/
structure Recoverable
    (file : Option Bytes)
    (reached : Nat)
    (inner : RaftLog.Inner EntryPayload)
    (saved : Nat) : Prop where
  durable :
    (file = none ∧ saved = 0) ∨
      ∃ snapshot,
        file = some (setting.writeSaved ⟨1, snapshot.1, snapshot.2⟩) ∧
          SnapshotOf setting saved snapshot
  purged : ∀ id, inner.lastPurged = some id → id.index < saved
  kept :
    ∀ index, saved ≤ index → index < reached →
      inner.log[index]? = setting.agreed[index]?.map logged
  savedAgreed : saved ≤ setting.agreed.length
  reachedAgreed : reached ≤ setting.agreed.length

/-- A member with log `inner`, whose snapshot file covers `saved` entries. -/
structure Sound
    (member : Member)
    (inner : RaftLog.Inner EntryPayload)
    (saved : Nat) : Prop
    extends Recoverable setting member.node.files.snapshot
      member.reached inner saved where
  represents :
    Represents setting.log
      ⟨member.node.files.log, member.node.running.map ControlPlane.log⟩
      ⟨inner, member.node.running.isSome⟩
  running :
    ∀ plane, member.node.running = some plane →
      ∃ applied ≤ member.reached, Follows setting saved applied plane.machine

variable {setting} {member : Member}
  {inner : RaftLog.Inner EntryPayload} {saved : Nat}

theorem SnapshotOf.decode
    (taken : SnapshotOf setting count snapshot) :
    decodeSnapshot setting.bindingKey setting.snapshots snapshot.1 snapshot.2 =
      .ok (setting.agreedState count) := by
  obtain ⟨index, rfl⟩ := taken
  exact decodeSnapshot_buildSnapshot setting.snapshots
    (agreedState_restorable count) index

theorem SnapshotOf.covered
    (taken : SnapshotOf setting count snapshot)
    (within : count ≤ setting.agreed.length) :
    ControlNode.covered snapshot.1.lastLogId = count := by
  obtain ⟨index, rfl⟩ := taken
  exact covered_agreedState within

theorem Follows.covered
    {applied : Nat}
    {machine : StateMachineStore}
    (follows : Follows setting saved applied machine)
    (within : applied ≤ setting.agreed.length) :
    ControlNode.covered machine.state.lastApplied = applied := by
  rw [follows.state]
  exact covered_agreedState within

theorem Sound.start : Sound setting {} {} 0 where
  represents := Represents.start setting.log
  durable := .inl ⟨rfl, rfl⟩
  purged := by simp
  kept := fun _ _ below => absurd below (Nat.not_lt_zero _)
  savedAgreed := Nat.zero_le _
  reachedAgreed := Nat.zero_le _
  running := by simp

/-! ## Starting again -/

/-- Opening the snapshot file recovers the state it covers. -/
theorem Sound.openMachine
    (sound : Sound setting member inner saved) :
    ∃ machine,
      ControlNode.openMachine setting.toCodecs
          member.node.files.snapshot = .ok machine ∧
        Follows setting saved saved machine := by
  obtain ⟨absent, rfl⟩ | ⟨snapshot, present, taken⟩ := sound.durable
  · rw [absent]
    refine ⟨{}, rfl, ⟨?_, Nat.le_refl 0, by simp, by simp⟩⟩
    unfold Setting.agreedState
    rw [stateAt_zero]
  · rw [present]
    refine ⟨⟨setting.agreedState saved, some snapshot, 0, none⟩,
      ?_, ⟨rfl, Nat.le_refl saved, ?_, by simp⟩⟩
    · unfold ControlNode.openMachine
      simp [setting.readSaved_writeSaved, taken.decode]
    · intro other same
      cases same
      exact ⟨saved, Nat.le_refl saved, taken⟩

/-- A member's files always start, from the snapshot they hold. -/
theorem Sound.startNode
    (sound : Sound setting member inner saved) :
    ∃ disk machine,
      ControlNode.startNode setting.toCodecs member.node.files =
          ({ member.node.files with log := disk }, .ok ⟨inner, machine⟩) ∧
        Represents setting.log ⟨disk, some inner⟩ ⟨inner, true⟩ ∧
        Follows setting saved saved machine := by
  obtain ⟨disk, opened, represents⟩ := sound.represents.openStore_eq
  obtain ⟨machine, recovered, follows⟩ := sound.openMachine
  refine ⟨disk, machine, ?_, represents, follows⟩
  unfold ControlNode.startNode
  rw [opened, recovered]
  cases purged : inner.lastPurged with
  | none =>
      simp [RaftLog.Inner.getLogState, purged]
  | some id =>
      have below := sound.purged id purged
      have reached := follows.covered sound.savedAgreed
      have applied : (machine.state.lastApplied.any
          fun position => id.index ≤ position.index.toNat) = true := by
        cases last : machine.state.lastApplied with
        | none =>
            simp [ControlNode.covered, last] at reached
            omega
        | some position =>
            simp [ControlNode.covered, last] at reached
            simp
            omega
      simp [RaftLog.Inner.getLogState, purged, applied]

/-! ## The steps of a started member -/

variable {plane : ControlPlane} {applied : Nat}

theorem Sound.represents_running
    (sound : Sound setting member inner saved)
    (running : member.node.running = some plane) :
    plane.log = inner ∧
      Represents setting.log ⟨member.node.files.log, some inner⟩
        ⟨inner, true⟩ := by
  have represents := sound.represents
  have same := represents.store
  rw [running] at represents same
  simp only [Option.map_some, Option.isSome_some, if_true,
    Option.some.injEq] at represents same
  rw [same] at represents
  exact ⟨same, represents⟩

theorem position_of_running
    {node : Node}
    (running : node.running = some plane) :
    node.position = covered plane.machine.state.lastApplied := by
  rw [Node.position, running, Option.elim_some]

theorem moved_stopped (files : Files) :
    member.moved ⟨files, none⟩ = ⟨⟨files, none⟩, member.reached⟩ := by
  simp [Member.moved, Node.position]

/-- A process may end between any two steps. -/
theorem Sound.stop
    (sound : Sound setting member inner saved)
    (running : member.node.running = some plane) :
    Sound setting ⟨⟨member.node.files, none⟩, member.reached⟩ inner
      saved where
  toRecoverable := sound.toRecoverable
  represents := (sound.represents_running running).2.stopped
  running := by simp

variable {files : Files} {reached : Nat}

/-- A process goes on from its files, with a memory that agrees with them. -/
theorem Sound.resume
    (sound : Sound setting ⟨⟨files, none⟩, reached⟩ inner saved)
    (represents :
      Represents setting.log ⟨files.log, some inner⟩ ⟨inner, true⟩)
    (machine : StateMachineStore)
    (follows : Follows setting saved applied machine)
    (within : applied ≤ setting.agreed.length)
    (kept :
      ∀ index, saved ≤ index → reached ≤ index → index < applied →
        inner.log[index]? = setting.agreed[index]?.map logged) :
    Sound setting
      (Member.moved ⟨⟨files, none⟩, reached⟩
        ⟨files, some ⟨inner, machine⟩⟩) inner saved := by
  rw [Member.moved, position_of_running rfl, follows.covered within]
  refine ⟨⟨sound.durable, sound.purged, ?_, sound.savedAgreed,
    max_le sound.reachedAgreed within⟩, represents, ?_⟩
  · intro index above below
    by_cases old : index < reached
    · exact sound.kept index above old
    · exact kept index above (Nat.le_of_not_lt old)
        ((lt_max_iff.mp below).resolve_left old)
  · intro other present
    cases present
    exact ⟨applied, le_max_right _ _, follows⟩

/-- A snapshot that is not behind the file replaces it. -/
theorem Sound.persistSnapshot
    (sound : Sound setting ⟨⟨files, none⟩, reached⟩ inner saved)
    (taken : SnapshotOf setting count snapshot)
    (ahead : saved ≤ count)
    (within : count ≤ setting.agreed.length) :
    Sound setting
      ⟨⟨ControlNode.persistSnapshot setting.toCodecs snapshot files, none⟩,
        reached⟩
      inner count where
  represents := sound.represents
  durable := .inr ⟨snapshot, rfl, taken⟩
  purged := fun id present => (sound.purged id present).trans_le ahead
  kept := fun index above => sound.kept index (ahead.trans above)
  savedAgreed := within
  reachedAgreed := sound.reachedAgreed
  running := by simp

/-- Replacing the snapshot ends with it in place, or with the old one. -/
theorem Sound.replaceSnapshot
    (sound : Sound setting member inner saved)
    (running : member.node.running = some plane)
    (taken : SnapshotOf setting count snapshot)
    (ahead : saved ≤ count)
    (behind : count ≤ applied)
    (within : applied ≤ setting.agreed.length)
    (fresh : applied ≤ max member.reached count)
    (ending : Replacement) :
    ∃ saved',
      Sound setting
        (member.moved (ControlNode.replaceSnapshot setting.toCodecs
          member.node.files plane snapshot (setting.agreedState applied)
          ending)) inner saved' := by
  obtain ⟨same, represents⟩ := sound.represents_running running
  have stopped := sound.stop running
  have persisted := stopped.persistSnapshot taken ahead (behind.trans within)
  cases ending with
  | completed =>
      refine ⟨count, ?_⟩
      have resumed := persisted.resume represents
        { plane.machine with
          state := setting.agreedState applied
          snapshot := some snapshot
          publication := none }
        ⟨rfl, behind, ?_, by simp⟩ within ?_
      · rw [← same] at resumed ⊢
        exact resumed
      · intro other present
        cases present
        exact ⟨count, Nat.le_refl count, taken⟩
      · intro index above old below
        omega
  | stopped renamed =>
      cases renamed with
      | false =>
          exact ⟨saved, by
            simpa [ControlNode.replaceSnapshot, moved_stopped] using stopped⟩
      | true =>
          exact ⟨count, by
            simpa [ControlNode.replaceSnapshot, moved_stopped] using
              persisted⟩

/-! ## Log calls -/

/-- Entries that agree with what is stored leave it as it is. -/
theorem getElem?_storeEntries_of_agrees
    {log : ExtTreeMap Nat (RaftLog.Entry EntryPayload)}
    {entries : List (RaftLog.Entry EntryPayload)}
    {index : Nat}
    (agrees :
      ∀ entry ∈ entries, entry.logId.index = index →
        log[index]? = some entry) :
    (RaftLog.storeEntries log entries)[index]? = log[index]? := by
  induction entries generalizing log with
  | nil =>
      rfl
  | cons entry entries inductionHypothesis =>
      have first : (log.insert entry.logId.index entry)[index]? =
          log[index]? := by
        rw [ExtTreeMap.getElem?_insert]
        split
        next same =>
          exact (agrees entry (List.mem_cons_self ..)
            (Std.LawfulEqOrd.eq_of_compare same)).symm
        next => rfl
      refine (inductionHypothesis ?_).trans first
      intro other listed same
      rw [first]
      exact agrees other (List.mem_cons_of_mem _ listed) same

variable {call : RaftLog.Call EntryPayload}

/-- A permitted call leaves the entries a restart needs. -/
theorem Sound.getElem?_expectCall
    (sound : Sound setting member inner saved)
    (current : member.node.reported ≤ saved)
    (permitted : CallPermitted setting member call)
    {index : Nat}
    (above : saved ≤ index)
    (below : index < member.reached) :
    (RaftLog.expectCall setting.log inner call).inner.log[index]? =
      inner.log[index]? := by
  have stored
      {entries : List (RaftLog.Entry EntryPayload)}
      (agrees :
        ∀ entry ∈ entries,
          entry.logId.index < member.reached →
          setting.agreed[entry.logId.index]?.map logged = some entry) :
      (RaftLog.storeEntries inner.log entries)[index]? =
        inner.log[index]? := by
    refine getElem?_storeEntries_of_agrees fun entry listed same => ?_
    subst same
    rw [sound.kept _ above below]
    exact agrees entry listed below
  have untouched
      (other : ¬ (RaftLog.Event.call call).Touches index) :
      (RaftLog.expectCall setting.log inner call).inner.log[index]? =
        inner.log[index]? := by
    have same := @RaftLog.getElem?_expect EntryPayload setting.log index
      ⟨inner, true⟩ (.call call) other
    simpa [RaftLog.expect] using same
  cases call with
  | append entries =>
      exact stored fun entry listed => (permitted entry listed).2
  | crashAppend entries written =>
      exact stored fun entry listed => (permitted entry
        ((ByteFile.whole_isPrefix _ _ _).subset listed)).2
  | truncate id =>
      exact untouched (not_le.mpr (below.trans_le permitted))
  | crashTruncate id renamed =>
      exact untouched (not_le.mpr (below.trans_le permitted))
  | purge id =>
      exact untouched (not_le.mpr
        (permitted.trans_le (current.trans above)))
  | crashPurge id point =>
      exact untouched (not_le.mpr
        (permitted.trans_le (current.trans above)))
  | saveVote vote =>
      rfl
  | saveCommitted committed =>
      rfl

/-- A permitted call purges only what the snapshot file covers. -/
theorem Sound.lastPurged_expectCall
    (sound : Sound setting member inner saved)
    (current : member.node.reported ≤ saved)
    (permitted : CallPermitted setting member call)
    {id : RaftLog.LogId}
    (purged :
      (RaftLog.expectCall setting.log inner call).inner.lastPurged =
        some id) :
    id.index < saved := by
  cases call with
  | append entries => exact sound.purged id purged
  | crashAppend entries written => exact sound.purged id purged
  | truncate other => exact sound.purged id purged
  | crashTruncate other renamed =>
      cases renamed <;> exact sound.purged id purged
  | purge other =>
      cases purged
      exact permitted.trans_le current
  | crashPurge other point =>
      cases point with
      | beforeMeta => exact sound.purged id purged
      | betweenFiles =>
          cases purged
          exact permitted.trans_le current
      | afterLog =>
          cases purged
          exact permitted.trans_le current
  | saveVote vote => exact sound.purged id purged
  | saveCommitted committed => exact sound.purged id purged

/-- The reported snapshot is never ahead of the file. -/
theorem Sound.reported_le
    (sound : Sound setting member inner saved) :
    member.node.reported ≤ saved := by
  unfold Node.reported Node.currentSnapshot
  cases running : member.node.running with
  | none =>
      exact Nat.zero_le _
  | some plane =>
      obtain ⟨applied, -, follows⟩ := sound.running plane running
      cases present : plane.machine.snapshot with
      | none =>
          simp [present]
      | some snapshot =>
          obtain ⟨count, below, taken⟩ := follows.snapshot snapshot present
          have same := taken.covered (below.trans sound.savedAgreed)
          simp [present, same, below]

theorem stepMember_of_running
    (running : member.node.running = some plane)
    (event : Event) :
    stepMember setting.toCodecs member event =
      member.moved
        (stepRunning setting.toCodecs member.node.files plane event) := by
  unfold stepMember stepNode
  rw [running]

/-- A permitted log call, complete or not, keeps what a restart needs. -/
theorem Sound.logCall
    (sound : Sound setting member inner saved)
    (running : member.node.running = some plane)
    (permitted : CallPermitted setting member call) :
    ∃ inner',
      Sound setting
        (member.moved (stepRunning setting.toCodecs member.node.files plane
          (.log call))) inner' saved := by
  obtain ⟨same, represents⟩ := sound.represents_running running
  obtain ⟨applied, reached, follows⟩ := sound.running plane running
  have current := sound.reported_le
  have lawful : ∀ entry ∈ (RaftLog.Event.call call).entries,
      setting.log.RoundTrips entry := by
    intro entry listed
    cases call with
    | append entries => exact (permitted entry listed).1
    | crashAppend entries written => exact (permitted entry listed).1
    | _ => exact absurd listed List.not_mem_nil
  have next := represents.call lawful (setting.readMeta_writeMeta _)
  have purged (id : RaftLog.LogId) :=
    @Sound.lastPurged_expectCall _ _ _ _ _ sound current permitted id
  have kept (index : Nat) :=
    @Sound.getElem?_expectCall _ _ _ _ _ sound current permitted index
  simp only [stepRunning, same]
  generalize RaftLog.stepCall setting.log member.node.files.log inner call =
    host at next ⊢
  generalize RaftLog.expectCall setting.log inner call = expected at *
  obtain ⟨disk, store⟩ := host
  obtain ⟨inner', running'⟩ := expected
  have rest (represents : Represents setting.log ⟨disk, none⟩
      ⟨inner', false⟩) : Sound setting
      ⟨⟨{ member.node.files with log := disk }, none⟩, member.reached⟩
      inner' saved := by
    refine ⟨⟨sound.durable, purged, ?_, sound.savedAgreed,
      sound.reachedAgreed⟩, represents, by simp⟩
    intro index above below
    rw [kept index above below]
    exact sound.kept index above below
  have stored := next.store
  refine ⟨inner', ?_⟩
  cases running' with
  | false =>
      cases stored
      have stopped := rest next
      rw [← moved_stopped] at stopped
      exact stopped
  | true =>
      cases stored
      exact (rest next.stopped).resume next plane.machine follows
        (reached.trans sound.reachedAgreed)
        (fun index _ old below => absurd (below.trans_le reached)
          (Nat.not_lt.mpr old))

/-! ## Every event -/

/-- A node that is not started can be started, and nothing else happens. -/
theorem Sound.step_stopped
    (sound : Sound setting member inner saved)
    (stopped : member.node.running = none)
    (event : Event) :
    Sound setting (stepMember setting.toCodecs member event) inner saved := by
  obtain ⟨⟨files, running⟩, reached⟩ := member
  cases stopped
  cases event with
  | start =>
      obtain ⟨disk, machine, started, represents, follows⟩ := sound.startNode
      have opened : Sound setting
          ⟨⟨{ files with log := disk }, none⟩, reached⟩ inner saved :=
        ⟨sound.toRecoverable, represents.stopped, by simp⟩
      have resumed := opened.resume represents machine follows
        sound.savedAgreed
        (fun index above _ below => absurd below (Nat.not_lt.mpr above))
      unfold stepMember stepNode
      rw [started]
      exact resumed
  | _ => simpa [stepMember, stepNode, moved_stopped] using sound

variable {cluster : Cluster} {id : Nat}

/-- Whatever the Raft core may ask of a started node keeps it sound. -/
theorem Sound.step_running
    (sent :
      ∀ snapshot ∈ cluster.sent, ∃ count ≤ setting.agreed.length,
        SnapshotOf setting count snapshot)
    (sound : Sound setting (cluster.members id) inner saved)
    (running : (cluster.members id).node.running = some plane)
    {event : Event}
    (permitted : EventPermitted setting cluster id event) :
    ∃ inner' saved',
      Sound setting (stepMember setting.toCodecs (cluster.members id) event)
        inner' saved' := by
  obtain ⟨rfl, represents⟩ := sound.represents_running running
  obtain ⟨applied, reached, follows⟩ := sound.running plane running
  have within := reached.trans sound.reachedAgreed
  have stopped := sound.stop running
  have position :=
    (position_of_running running).trans (follows.covered within)
  have old (index : Nat)
      (_ : saved ≤ index)
      (above : (cluster.members id).reached ≤ index)
      (below : index < applied) :
      plane.log.log[index]? = setting.agreed[index]?.map logged :=
    absurd (below.trans_le reached) (Nat.not_lt.mpr above)
  have unchanged : Sound setting
      ((cluster.members id).moved
        ⟨(cluster.members id).node.files, some plane⟩) plane.log saved :=
    stopped.resume represents plane.machine follows within old
  rw [stepMember_of_running running]
  cases event with
  | log call =>
      obtain ⟨inner', next⟩ := sound.logCall running permitted
      exact ⟨inner', saved, next⟩
  | start =>
      exact ⟨plane.log, saved, unchanged⟩
  | stop =>
      rw [← moved_stopped] at stopped
      exact ⟨plane.log, saved, stopped⟩
  | apply entries =>
      obtain ⟨next, read⟩ := permitted
      rw [position] at next
      have fits : applied + entries.length ≤ setting.agreed.length := by
        have length := congrArg List.length next
        simp only [List.length_take, List.length_drop] at length
        omega
      have later : (apply setting.bindingKey plane.machine.state entries).1 =
          setting.agreedState (applied + entries.length) := by
        rw [follows.state, ← apply_agreedState applied entries.length,
          ← next]
      refine ⟨plane.log, saved, ?_⟩
      refine stopped.resume represents
        { plane.machine with
          state := (apply setting.bindingKey plane.machine.state entries).1 }
        ⟨later, follows.savedApplied.trans (Nat.le_add_right ..),
          follows.snapshot, ?_⟩ fits ?_
      · intro snapshot present
        obtain ⟨count, above, below, taken⟩ :=
          follows.publication snapshot present
        exact ⟨count, above, below.trans (Nat.le_add_right ..), taken⟩
      · intro index _ above below
        have inside : index < setting.agreed.length := below.trans_le fits
        have present : setting.agreed[index]? =
            some setting.agreed[index] := by simp
        have listed : setting.agreed[index] ∈ entries := by
          rw [next]
          refine List.mem_iff_getElem?.mpr ⟨index - applied, ?_⟩
          rw [List.getElem?_take_of_lt (by omega), List.getElem?_drop,
            Nat.add_sub_cancel' (reached.trans above), present]
        have stored := read setting.agreed[index] listed
        rw [setting.numbered index _ present, running] at stored
        rw [present]
        exact stored
  | serializeSnapshot =>
      unfold stepRunning
      cases publication : plane.machine.publication with
      | some snapshot =>
          exact ⟨plane.log, saved, unchanged⟩
      | none =>
          refine ⟨plane.log, saved, ?_⟩
          refine stopped.resume represents _
            ⟨follows.state, follows.savedApplied, follows.snapshot, ?_⟩
            within old
          intro snapshot present
          cases present
          refine ⟨applied, follows.savedApplied, Nat.le_refl _,
            plane.machine.snapshotIdx + 1, ?_⟩
          rw [follows.state]
  | publishSnapshot ending =>
      unfold stepRunning
      cases publication : plane.machine.publication with
      | none =>
          exact ⟨plane.log, saved, unchanged⟩
      | some snapshot =>
          obtain ⟨count, above, below, taken⟩ :=
            follows.publication snapshot publication
          obtain ⟨saved', next⟩ := sound.replaceSnapshot running taken above
            below within (reached.trans (le_max_left _ _)) ending
          rw [← follows.state] at next
          exact ⟨plane.log, saved', next⟩
  | installSnapshot snapshot ending =>
      unfold stepRunning
      cases publication : plane.machine.publication with
      | some other =>
          exact ⟨plane.log, saved, unchanged⟩
      | none =>
          obtain ⟨listed, ahead⟩ := permitted
          obtain ⟨count, bounded, taken⟩ := sent snapshot listed
          rw [position, taken.covered bounded] at ahead
          obtain ⟨saved', next⟩ := sound.replaceSnapshot running taken
            (follows.savedApplied.trans ahead) (Nat.le_refl count) bounded
            (le_max_right _ _) ending
          simp only [taken.decode]
          exact ⟨plane.log, saved', next⟩

/-! ## Whole histories -/

/-- Every member of a cluster is sound, and so is every snapshot on its way. -/
structure ClusterSound (setting : Setting) (cluster : Cluster) : Prop where
  members :
    ∀ id, ∃ inner saved, Sound setting (cluster.members id) inner saved
  sent :
    ∀ snapshot ∈ cluster.sent, ∃ count ≤ setting.agreed.length,
      SnapshotOf setting count snapshot

theorem ClusterSound.step
    (sound : ClusterSound setting cluster)
    {event : ClusterEvent}
    (permitted : ClusterEventPermitted setting cluster event) :
    ClusterSound setting (stepCluster setting.toCodecs cluster event) := by
  cases event with
  | member id asked =>
      refine ⟨?_, sound.sent⟩
      intro other
      by_cases same : other = id
      · subst same
        obtain ⟨inner, saved, before⟩ := sound.members other
        simp only [stepCluster, Function.update_self]
        cases running : (cluster.members other).node.running with
        | none =>
            exact ⟨inner, saved, before.step_stopped running asked⟩
        | some plane =>
            exact before.step_running sound.sent running
              (permitted (by rw [running]; rfl))
      · simp only [stepCluster, Function.update_of_ne same]
        exact sound.members other
  | send id =>
      refine ⟨sound.members, ?_⟩
      intro snapshot listed
      obtain earlier | current := List.mem_append.mp listed
      · exact sound.sent snapshot earlier
      · rw [Option.mem_toList] at current
        obtain ⟨inner, saved, member⟩ := sound.members id
        obtain ⟨plane, running, present⟩ := Option.bind_eq_some_iff.mp current
        obtain ⟨applied, -, follows⟩ := member.running plane running
        obtain ⟨count, below, taken⟩ := follows.snapshot snapshot present
        exact ⟨count, below.trans member.savedAgreed, taken⟩

theorem clusterSound_before
    {events : List ClusterEvent}
    (permitted : Permitted setting events)
    (position : Nat) :
    ClusterSound setting
      (clusterBefore setting.toCodecs events position) := by
  refine StepRun.holds_before (ClusterSound setting)
    ⟨fun _ => ⟨{}, 0, Sound.start⟩, by simp⟩ ?_ position
  intro position event present sound
  exact sound.step (permitted position event present)

/-- A started node is in the agreed state of what it covers. -/
theorem ClusterSound.state_eq
    (sound : ClusterSound setting cluster)
    (running : (cluster.members id).node.running = some plane) :
    covered plane.machine.state.lastApplied ≤ (cluster.members id).reached ∧
      plane.machine.state =
        setting.agreedState (covered plane.machine.state.lastApplied) := by
  obtain ⟨inner, saved, member⟩ := sound.members id
  obtain ⟨applied, reached, follows⟩ := member.running plane running
  rw [follows.covered (reached.trans member.reachedAgreed)]
  exact ⟨reached, follows.state⟩

/-! ## Reading the log back -/

/-- A range in which the log agrees returns the agreed entries. -/
theorem tryGetLogEntries_of_agreed
    {low high : Nat}
    (held :
      ∀ index, low ≤ index → index < high →
        inner.log[index]? = setting.agreed[index]?.map logged) :
    (inner.tryGetLogEntries (.included low) (.excluded high)).map unlogged =
      (setting.agreed.drop low).take (high - low) := by
  have ascending : (inner.log.toList.filter fun pair =>
      RaftLog.inRange (.included low) (.excluded high) pair.1).Pairwise
        fun first second => first.1 < second.1 :=
    (inner.log.ordered_keys_toList.imp fun ordered =>
      Nat.compare_eq_lt.mp ordered).filter _
  have expected : (((setting.agreed.drop low).take (high - low)).map
      fun entry => (entry.logId.index.toNat, logged entry)).Pairwise
        fun first second => first.1 < second.1 :=
    List.pairwise_map.mpr ((setting.increasing.sublist
      ((List.take_sublist _ _).trans (List.drop_sublist _ _))).imp
        UInt64.lt_iff_toNat_lt.mp)
  -- Both ascend by index, so they are equal if they have the same members.
  have pairs := List.Perm.eq_of_pairwise
    (fun _ _ _ _ forward backward =>
      absurd forward (Nat.lt_asymm backward)) ascending expected
    ((List.perm_ext_iff_of_nodup
      (ascending.imp fun less same => less.ne (congrArg Prod.fst same))
      (expected.imp fun less same => less.ne (congrArg Prod.fst same))).mpr
        ?_)
  · unfold RaftLog.Inner.tryGetLogEntries
    rw [pairs]
    simp [Function.comp_def]
  · rintro ⟨index, stored⟩
    simp only [List.mem_filter, FiniteMap.mem_toList, RaftLog.inRange,
      Bool.and_eq_true, decide_eq_true_eq, List.mem_map, Prod.mk.injEq]
    constructor
    · rintro ⟨found, above, below⟩
      rw [held index above below] at found
      obtain ⟨entry, present, rfl⟩ := Option.map_eq_some_iff.mp found
      refine ⟨entry, List.mem_iff_getElem?.mpr ⟨index - low, ?_⟩,
        setting.numbered index entry present, rfl⟩
      rw [List.getElem?_take_of_lt (by omega), List.getElem?_drop,
        Nat.add_sub_cancel' above, present]
    · rintro ⟨entry, listed, rfl, rfl⟩
      obtain ⟨offset, taken⟩ := List.mem_iff_getElem?.mp listed
      rw [List.getElem?_take] at taken
      obtain ⟨inside, present⟩ := Option.ite_none_right_eq_some.mp taken
      rw [List.getElem?_drop] at present
      rw [setting.numbered _ entry present, held _ (by omega) (by omega),
        present]
      exact ⟨rfl, by omega, by omega⟩

end Invariant

/-! ## A sample cluster -/

section Samples

open BincodeLayout
open ByteCodec (StreamCodec)
open ByteCodec.StreamCodec

def positionLayout : StreamCodec RaftLog.LogId :=
  fields (pair (pair varint varint) varint)
    (fun value => ((value.term, value.nodeId), value.index))
    (fun stored => ⟨stored.1.1, stored.1.2, stored.2⟩)
    (fun _ => rfl)

def voteLayout : StreamCodec RaftLog.Vote :=
  fields (pair (pair varint varint) bool)
    (fun value => ((value.term, value.nodeId), value.committed))
    (fun stored => ⟨stored.1.1, stored.1.2, stored.2⟩)
    (fun _ => rfl)

def metaLayout : StreamCodec RaftLog.Meta :=
  fields
    (pair (option voteLayout)
      (pair (option positionLayout) (option positionLayout)))
    (fun value => (value.vote, value.lastPurged, value.committed))
    (fun stored => ⟨stored.1, stored.2.1, stored.2.2⟩)
    (fun _ => rfl)

def savedLayout : StreamCodec DurableSnapshot :=
  fields
    (pair varint
      (pair (option logId)
        (pair storedMembership (pair text (list varint byte)))))
    (fun value =>
      (value.version, value.metadata.lastLogId,
        value.metadata.lastMembership, value.metadata.snapshotId, value.data))
    (fun stored =>
      ⟨stored.1, ⟨stored.2.1, stored.2.2.1, stored.2.2.2.1⟩,
        stored.2.2.2.2⟩)
    (fun _ => rfl)

theorem read_encode_nil
    {α : Type}
    (codec : StreamCodec α)
    (value : α) :
    (codec.read (codec.encode value)).map Prod.fst = some value := by
  have read := codec.read_encode value []
  rw [List.append_nil] at read
  rw [read]
  rfl

/-- The second entry requires three replicas of a block. -/
def sampleEntries : List Entry :=
  [⟨⟨⟨1, 1⟩, 0⟩, .blank⟩,
    ⟨⟨⟨1, 1⟩, 1⟩, .normal (.requireReplicas [.filled 2] 3)⟩,
    ⟨⟨⟨1, 1⟩, 2⟩, .blank⟩]

def sampleLine (entry : RaftLog.Entry EntryPayload) : List UInt8 :=
  RaftLog.writeBlank ⟨entry.logId, ()⟩

/-- The log lines of the sample files are those of the sample entries. -/
def sample : Setting where
  bindingKey := serdeBindingKey
  log :=
    { writeEntry := sampleLine
      readEntry := fun line =>
        (sampleEntries.map logged).find? fun entry =>
          LineLog.terminate (sampleLine entry) = line
      writeMeta := metaLayout.encode
      readMeta := fun bytes => (metaLayout.read bytes).map Prod.fst }
  snapshots := bincode
  writeSaved := savedLayout.encode
  readSaved := fun bytes => (savedLayout.read bytes).map Prod.fst
  readMeta_writeMeta := read_encode_nil metaLayout
  readSaved_writeSaved := read_encode_nil savedLayout
  agreed := sampleEntries
  numbered := by
    intro index entry present
    obtain ⟨inside, rfl⟩ := List.getElem?_eq_some_iff.mp present
    have small : index < 3 := inside
    interval_cases index <;> rfl

/--
The first member publishes a snapshot while it goes on applying, purges its
log, sends the snapshot and is killed; the second one installs it.
-/
def sampleHistory : List ClusterEvent :=
  [.member 1 .start,
    .member 1 (.log (.append (sampleEntries.map logged))),
    .member 1 (.apply (sampleEntries.take 2)),
    .member 1 .serializeSnapshot,
    .member 1 (.apply (sampleEntries.drop 2)),
    .member 1 (.publishSnapshot .completed),
    .member 1 (.log (.purge ⟨1, 1, 0⟩)),
    .send 1,
    .member 2 .start,
    .member 2
      (.installSnapshot
        (buildSnapshot bincode (sample.agreedState 2) 1) .completed),
    .member 1 .stop]

theorem sampleHistory_permitted : Permitted sample sampleHistory := by
  decide +kernel

def sampleNode (position id : Nat) : Node :=
  ((clusterBefore sample.toCodecs sampleHistory position).members id).node

end Samples

/-! ## Restarts lose nothing -/

/--
A node can be killed at any moment of any history of its cluster.  Its files
then start again, from a state of the agreed log; what its log returns behind
that state, given to the state machine, leads to the state of every entry the
node had ever applied.  Whatever the node held when it was killed lies on that
way.
-/
theorem restart_recovers_applied_entries
    (setting : Setting)
    (events : List ClusterEvent)
    (permitted : Permitted setting events)
    (position id : Nat) :
    let member :=
      (clusterBefore setting.toCodecs events position).members id
    (∃ files plane,
      startNode setting.toCodecs member.node.files = (files, .ok plane) ∧
      let count := covered plane.machine.state.lastApplied
      count ≤ setting.agreed.length ∧
      plane.machine.state = setting.agreedState count ∧
      (apply setting.bindingKey plane.machine.state
          ((plane.log.tryGetLogEntries (.included count)
            (.excluded member.reached)).map unlogged)).1 =
        setting.agreedState (max count member.reached)) ∧
    ∀ plane, member.node.running = some plane →
      covered plane.machine.state.lastApplied ≤ member.reached ∧
      plane.machine.state =
        setting.agreedState (covered plane.machine.state.lastApplied) := by
  intro member
  have cluster := clusterSound_before permitted position
  obtain ⟨inner, saved, sound⟩ := cluster.members id
  refine ⟨?_, fun plane running => cluster.state_eq running⟩
  obtain ⟨disk, machine, started, -, follows⟩ := sound.startNode
  refine ⟨_, _, started, ?_⟩
  simp only [follows.covered sound.savedAgreed]
  refine ⟨sound.savedAgreed, follows.state, ?_⟩
  rw [tryGetLogEntries_of_agreed sound.kept, follows.state,
    apply_agreedState]
  have furthest : saved + (member.reached - saved) =
      max saved member.reached := by omega
  exact congrArg _ furthest

theorem restart_recovers_applied_entries_killed :
    ∃ files plane,
      startNode sample.toCodecs (sampleNode 11 1).files =
          (files, .ok plane) ∧
        plane.machine.state =
          sample.agreedState (covered plane.machine.state.lastApplied) := by
  obtain ⟨⟨files, plane, started, -, state, -⟩, -⟩ :=
    restart_recovers_applied_entries sample sampleHistory
      sampleHistory_permitted 11 1
  exact ⟨files, plane, started, state⟩

/-! ## Agreement -/

/-- The reply to an entry of the agreed log. -/
def Setting.agreedReply
    (setting : Setting)
    (index : Nat) : Option Response :=
  setting.agreed[index]?.map
    (replyEntry setting.bindingKey (setting.agreedState index))

/-- Replies to the next agreed entries are the agreed ones. -/
theorem getElem?_apply_agreedState
    {setting : Setting}
    (count : Nat)
    {more offset : Nat}
    (inside : offset < more) :
    (apply setting.bindingKey (setting.agreedState count)
        ((setting.agreed.drop count).take more)).2[offset]? =
      setting.agreedReply (count + offset) := by
  have state : StepRun.before (stepEntry setting.bindingKey)
      (setting.agreedState count)
      ((setting.agreed.drop count).take more) offset =
      setting.agreedState (count + offset) := by
    unfold Setting.agreedState stateAt StepRun.before
    rw [← StepRun.after_append, List.take_take, Nat.min_eq_left inside.le,
      List.take_add]
  rw [apply_eq_run, StepRun.getElem?_outputs, state,
    List.getElem?_take_of_lt inside, List.getElem?_drop]
  rfl

/--
Members agree, whether a state was reached by applying the log, by installing
a snapshot of another member or by a restart: two started nodes that cover the
same number of entries, at whatever moments, hold the same state.  And every
reply a node computes, the first time or when it replays its log, is the reply
of the agreed log to that entry.
-/
theorem members_agree
    (setting : Setting)
    (events : List ClusterEvent)
    (permitted : Permitted setting events)
    (position id : Nat)
    (plane : ControlPlane)
    (running :
      ((clusterBefore setting.toCodecs events position).members
        id).node.running = some plane) :
    (∀ (moment peer : Nat) (other : ControlPlane),
      ((clusterBefore setting.toCodecs events moment).members
          peer).node.running = some other →
      covered other.machine.state.lastApplied =
        covered plane.machine.state.lastApplied →
      other.machine.state = plane.machine.state) ∧
    ∀ entries,
      events[position]? = some (.member id (.apply entries)) →
      ∀ offset < entries.length,
        (apply setting.bindingKey plane.machine.state entries).2[offset]? =
          setting.agreedReply
            (covered plane.machine.state.lastApplied + offset) := by
  have state := ((clusterSound_before permitted position).state_eq running).2
  refine ⟨?_, ?_⟩
  · intro moment peer other present same
    have otherState :=
      ((clusterSound_before permitted moment).state_eq present).2
    rw [otherState, same, ← state]
  · intro entries present offset inside
    have asked := (permitted position _ present (by rw [running]; rfl)).1
    rw [position_of_running running] at asked
    rw [← getElem?_apply_agreedState _ inside, ← asked, ← state]

theorem members_agree_installed :
    ∃ plane,
      (sampleNode 10 2).running = some plane ∧
        ∀ (moment peer : Nat) (other : ControlPlane),
          (sampleNode moment peer).running = some other →
          covered other.machine.state.lastApplied =
            covered plane.machine.state.lastApplied →
          other.machine.state = plane.machine.state := by
  have started : (sampleNode 10 2).running.isSome = true := by
    decide +kernel
  obtain ⟨plane, running⟩ := Option.isSome_iff_exists.mp started
  exact ⟨plane, running,
    (members_agree sample sampleHistory sampleHistory_permitted 10 2 plane
      running).1⟩

end KalpakDb.ControlNode
