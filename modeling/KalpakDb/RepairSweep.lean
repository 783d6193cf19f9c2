import KalpakDb.OrderedPages
import KalpakDb.RepairLog

namespace KalpakDb.Repair

/-!
# The repair sweep

The leader walks through all blocks that need several replicas, in the order
of their identifiers.  A tick reads a page of the requirements in the local
log and a page of the replicated ones, behind a cursor, and queues the first
few blocks of both; a turn handles the next block of the queue.  The cursor is
moved to a block before an upload is admitted for it, so a block that is
refused is not tried again before the next sweep.
-/

open Std (ExtTreeMap)
open Contract (execute)
open OrderedPages

/-! ## The loop -/

/-- A block is past the cursor. -/
def behind (cursor : Option BlockId) (id : BlockId) : Bool :=
  cursor.all fun after => decide (Precedes after id)

/-- A page of the counts above one in the local log. -/
def RepairLog.batch
    (log : RepairLog)
    (after : Option BlockId) : List (BlockId × Nat) :=
  page 16 (fun entry => 1 < entry.2 && behind after entry.1)
    log.requirements.blocks

/-- What a peer sent for a block, and whether it can be stored. -/
structure PeerAnswer where
  payload : Payload
  guarded : Bool
  fault : Option Fault

/-- What happens around the loop while it handles one block. -/
structure Turn where
  admitted : Bool
  publishFault : Option WriteFault
  readFault : Option Fault
  answers : List PeerAnswer
  committed : Bool
  verifyFault : Option Fault
  observations : List (Nat × Option Generation × Option WriteFault)

/--
The state of the loop: its cursors, the rest of the batch it is working on,
and the blocks with their counts whose pin was recorded and whose cold copy
was then checked.
-/
structure Sweep where
  log : RepairLog
  files : Files
  replicated : ExtTreeMap BlockId Nat
  store : TieredNode
  migrationCursor : Option BlockId := none
  cursor : Option BlockId := none
  queue : List (BlockId × Nat) := []
  attempts : List (BlockId × Nat) := []

inductive SweepEvent where
  | tick (commits : BlockId → Bool) (leads : Bool)
  | turn (turn : Turn)

namespace Sweep

/-- The next blocks behind the cursor, with the larger of both counts. -/
def candidates (sweep : Sweep) : List (BlockId × Nat) :=
  (raiseAll (ExtTreeMap.ofList (sweep.log.batch sweep.cursor))
    (page 16 (fun entry => behind sweep.cursor entry.1)
      sweep.replicated)).toList.take 16

/-- Commit a local requirement that is not replicated yet. -/
def promote
    (known : ExtTreeMap BlockId Nat)
    (commits : BlockId → Bool)
    (sweep : Sweep)
    (intent : BlockId × Nat) : Sweep :=
  { sweep with
    migrationCursor := some intent.1
    replicated :=
      if known[intent.1]?.any (intent.2 ≤ ·) then
        sweep.replicated
      else if commits intent.1 then
        raise sweep.replicated [intent.1] intent.2
      else
        sweep.replicated }

/-- Commit a page of the local requirements. -/
def migrate (sweep : Sweep) (commits : BlockId → Bool) : Sweep :=
  let intents := sweep.log.batch sweep.migrationCursor
  intents.foldl (promote sweep.replicated commits)
    { sweep with
      migrationCursor :=
        if intents = [] then none else sweep.migrationCursor }

section Hash

variable (codec : Codec) (blake3 : Bytes → BlockId)

/-- Store the first answer that has the right digest and can be stored. -/
def fetchBlock (id : BlockId) : List PeerAnswer → TieredNode → Bool × TieredNode
  | [], store => (false, store)
  | answer :: rest, store =>
      if blake3 answer.payload.bytes = id && answer.guarded then
        let saved := execute (TieredStore.repair blake3 id answer.payload)
          (store.withFault answer.fault)
        match saved.1 with
        | .ok _ => (true, saved.2)
        | .error _ => fetchBlock id rest saved.2
      else
        fetchBlock id rest store

/-- Note where a block was seen. -/
def note
    (id : BlockId)
    (sweep : Sweep)
    (observation : Nat × Option Generation × Option WriteFault) : Sweep :=
  let noted := sweep.log.observe codec sweep.files [id] observation.1
    observation.2.1 observation.2.2
  { sweep with log := noted.2.1, files := noted.2.2 }

/-- The changes that `acknowledge_replicas` makes on this node. -/
def acknowledge
    (sweep : Sweep)
    (turn : Turn)
    (id : BlockId)
    (replicas : Nat) : Sweep :=
  if replicas = 1 || !turn.committed then
    sweep
  else
    let verified := execute (TieredStore.verifyCold blake3 id)
      (sweep.store.withFault turn.verifyFault)
    let committed := { sweep with
      replicated := raise sweep.replicated [id] replicas
      store := verified.2 }
    match verified.1 with
    | .error _ => committed
    | .ok () => turn.observations.foldl (note codec id) committed

/-- Record the pin, check the cold copy, and replicate what was found. -/
def repairBlock
    (sweep : Sweep)
    (turn : Turn)
    (id : BlockId)
    (replicas : Nat) : Sweep :=
  match sweep.log.record codec sweep.files [id] replicas
      turn.publishFault with
  | (.error _, log, files) => { sweep with log := log, files := files }
  | (.ok (), log, files) =>
      let read := execute
        (do
          TieredStore.verifyCold blake3 id
          TieredStore.getBlock blake3 id)
        (sweep.store.withFault turn.readFault)
      let checked := { sweep with
        log := log
        files := files
        store := read.2
        attempts := sweep.attempts ++ [(id, replicas)] }
      match read.1 with
      | .ok _ => checked.acknowledge codec blake3 turn id replicas
      | .error .panicked => checked
      | .error _ =>
          let fetched := fetchBlock blake3 id turn.answers checked.store
          if fetched.1 then
            { checked with store := fetched.2 }.acknowledge codec blake3 turn
              id replicas
          else
            { checked with store := fetched.2 }

/-- A tick waits for the end of the batch; a refused upload ends it. -/
def step (sweep : Sweep) : SweepEvent → Sweep
  | .tick commits leads =>
      if sweep.queue ≠ [] then
        sweep
      else
        let migrated := sweep.migrate commits
        if leads then
          if migrated.candidates = [] then
            { migrated with cursor := none }
          else
            { migrated with queue := migrated.candidates }
        else
          migrated
  | .turn turn =>
      match sweep.queue with
      | [] => sweep
      | (id, replicas) :: rest =>
          if turn.admitted then
            { sweep with cursor := some id, queue := rest }.repairBlock
              codec blake3 turn id replicas
          else
            { sweep with cursor := some id, queue := [] }

end Hash

/-- The tick that finds nothing behind the cursor ends the sweep. -/
def closes (sweep : Sweep) : SweepEvent → Bool
  | .tick commits leads =>
      sweep.queue = [] && leads && (sweep.migrate commits).candidates = []
  | .turn _ => false

end Sweep

/-! ## Required counts -/

/-- The larger of the counts of a block; a missing one is zero. -/
def required
    (blocks replicated : ExtTreeMap BlockId Nat)
    (id : BlockId) : Nat :=
  max (blocks[id]?.getD 0) (replicated[id]?.getD 0)

theorem required_comm
    (blocks replicated : ExtTreeMap BlockId Nat)
    (id : BlockId) :
    required blocks replicated id = required replicated blocks id :=
  Nat.max_comm _ _

/-- Entering a count that is required anyway changes no requirement. -/
theorem required_raise
    {blocks replicated : ExtTreeMap BlockId Nat}
    {id : BlockId}
    {replicas : Nat}
    (enough : replicas ≤ required blocks replicated id)
    (other : BlockId) :
    required (raise blocks [id] replicas) replicated other =
      required blocks replicated other := by
  unfold required at enough ⊢
  rw [getElem?_raise]
  split
  · rename_i isId
    rw [List.mem_singleton.mp isId]
    cases found : blocks[id]? with
    | none =>
        simp only [found, Option.getD_none, Option.getD_some] at enough ⊢
        omega
    | some count =>
        simp only [found, Option.getD_some] at enough ⊢
        omega
  · rfl

theorem required_raise_replicated
    {blocks replicated : ExtTreeMap BlockId Nat}
    {id : BlockId}
    {replicas : Nat}
    (enough : replicas ≤ required blocks replicated id)
    (other : BlockId) :
    required blocks (raise replicated [id] replicas) other =
      required blocks replicated other := by
  rw [required_comm] at enough ⊢
  rw [required_raise enough, required_comm]

theorem le_required
    {blocks replicated : ExtTreeMap BlockId Nat}
    {id : BlockId}
    {count : Nat}
    (found : blocks[id]? = some count) :
    count ≤ required blocks replicated id := by
  unfold required
  rw [found]
  exact Nat.le_max_left _ _

def Sweep.required (sweep : Sweep) (id : BlockId) : Nat :=
  Repair.required sweep.log.requirements.blocks sweep.replicated id

/-! ## What the log keeps -/

section Log

variable {codec : Codec} {log : RepairLog} {files : Files}

/-- A replacement keeps the counts or enters the new ones. -/
theorem blocks_replace
    (next : Requirements)
    (fault : Option WriteFault) :
    (log.replace codec files next fault).2.1.requirements.blocks =
      if (log.replace codec files next fault).1 = .ok () then
        next.blocks
      else
        log.requirements.blocks := by
  unfold RepairLog.replace
  split
  · rw [if_pos rfl]
  · rw [if_neg nofun]

theorem blocks_record
    (ids : List BlockId)
    (replicas : Nat)
    (fault : Option WriteFault) :
    (log.record codec files ids replicas fault).2.1.requirements.blocks =
      if (log.record codec files ids replicas fault).1 = .ok () then
        raise log.requirements.blocks ids replicas
      else
        log.requirements.blocks := by
  unfold RepairLog.record
  split
  · rw [if_neg nofun]
  · dsimp only
    split
    · rename_i unchanged
      rw [if_pos rfl, unchanged]
    · split
      · rw [if_neg nofun]
      · exact blocks_replace _ fault

theorem blocks_observe
    (ids : List BlockId)
    (node : Nat)
    (generation : Option Generation)
    (fault : Option WriteFault) :
    (log.observe codec files ids node generation
        fault).2.1.requirements.blocks =
      log.requirements.blocks := by
  unfold RepairLog.observe
  split
  · rfl
  · dsimp only
    split
    · rfl
    · rw [blocks_replace]
      split
      · rfl
      · rfl

end Log

/-! ## Ticks -/

section Ticks

variable {sweep : Sweep}

/-- Local counts that become replicated change no requirement. -/
theorem required_migrate (commits : BlockId → Bool) (id : BlockId) :
    (sweep.migrate commits).required id = sweep.required id := by
  suffices kept : ∀ (intents : List (BlockId × Nat)) (current : Sweep),
      current.log = sweep.log →
      (∀ intent ∈ intents,
        sweep.log.requirements.blocks[intent.1]? = some intent.2) →
      (intents.foldl (Sweep.promote sweep.replicated commits)
        current).required id = current.required id by
    have listed :
        ∀ intent ∈ sweep.log.batch sweep.migrationCursor,
          sweep.log.requirements.blocks[intent.1]? = some intent.2 :=
      fun intent member => (mem_page member).1
    exact kept (sweep.log.batch sweep.migrationCursor)
      { sweep with
        migrationCursor :=
          if sweep.log.batch sweep.migrationCursor = [] then none
          else sweep.migrationCursor } rfl listed
  intro intents current sameLog listed
  induction intents generalizing current with
  | nil =>
      rfl
  | cons intent rest inductionHypothesis =>
      rw [List.foldl_cons,
        inductionHypothesis
          (Sweep.promote sweep.replicated commits current intent) sameLog
          fun intent member => listed intent (List.mem_cons_of_mem _ member)]
      unfold Sweep.required Sweep.promote
      dsimp only
      split
      · rfl
      · split
        · refine required_raise_replicated (le_required ?_) id
          rw [sameLog]
          exact listed intent List.mem_cons_self
        · rfl

/-- The sweep is where it was, and requires what it did. -/
structure Sweep.Continues (sweep next : Sweep) : Prop where
  cursor : next.cursor = sweep.cursor
  queue : next.queue = sweep.queue
  attempts : next.attempts = sweep.attempts
  required : ∀ id, next.required id = sweep.required id

theorem Sweep.Continues.refl (sweep : Sweep) : sweep.Continues sweep :=
  ⟨rfl, rfl, rfl, fun _ => rfl⟩

theorem Sweep.Continues.trans
    {middle next : Sweep}
    (before : sweep.Continues middle)
    (after : middle.Continues next) :
    sweep.Continues next where
  cursor := after.cursor.trans before.cursor
  queue := after.queue.trans before.queue
  attempts := after.attempts.trans before.attempts
  required id := (after.required id).trans (before.required id)

theorem continues_migrate (commits : BlockId → Bool) :
    sweep.Continues (sweep.migrate commits) := by
  suffices kept : ∀ (intents : List (BlockId × Nat)) (current : Sweep),
      (intents.foldl (Sweep.promote sweep.replicated commits)
          current).cursor = current.cursor ∧
        (intents.foldl (Sweep.promote sweep.replicated commits)
          current).queue = current.queue ∧
        (intents.foldl (Sweep.promote sweep.replicated commits)
          current).attempts = current.attempts by
    obtain ⟨cursor, queue, attempts⟩ :=
      kept (sweep.log.batch sweep.migrationCursor)
        { sweep with
          migrationCursor :=
            if sweep.log.batch sweep.migrationCursor = [] then none
            else sweep.migrationCursor }
    exact ⟨cursor, queue, attempts, required_migrate commits⟩
  intro intents
  induction intents with
  | nil =>
      exact fun current => ⟨rfl, rfl, rfl⟩
  | cons intent rest inductionHypothesis =>
      exact fun current => inductionHypothesis
        (Sweep.promote sweep.replicated commits current intent)

theorem candidates_eq :
    sweep.candidates =
      mergedPage 16
        (fun entry => 1 < entry.2 && behind sweep.cursor entry.1)
        (fun entry => behind sweep.cursor entry.1)
        sweep.log.requirements.blocks sweep.replicated :=
  rfl

/-- The count under which a block is queued. -/
def Sweep.wanted (sweep : Sweep) (id : BlockId) : Option Nat :=
  larger
    (wantedValue (fun entry => 1 < entry.2 && behind sweep.cursor entry.1)
      sweep.log.requirements.blocks id)
    (wantedValue (fun entry => behind sweep.cursor entry.1)
      sweep.replicated id)

/-- A block behind the cursor is queued with what it requires. -/
theorem wanted_of_required
    {id : BlockId}
    (several : 1 < sweep.required id)
    (ahead : behind sweep.cursor id = true) :
    sweep.wanted id = some (sweep.required id) := by
  unfold Sweep.required Repair.required at several ⊢
  unfold Sweep.wanted wantedValue
  cases inLog : sweep.log.requirements.blocks[id]? with
  | none =>
      cases inState : sweep.replicated[id]? with
      | none =>
          rw [inLog, inState] at several
          exact absurd several (by decide)
      | some count =>
          simp [larger, ahead]
  | some count =>
      cases inState : sweep.replicated[id]? with
      | none =>
          simp only [inLog, inState, Option.getD_some, Option.getD_none]
            at several
          have many : 1 < count := by omega
          simp [larger, ahead, many]
      | some other =>
          simp only [inLog, inState, Option.getD_some] at several
          simp only [Option.filter_some, ahead, Bool.and_true,
            Option.getD_some, decide_eq_true_eq, if_true]
          split
          · rfl
          · rename_i single
            have most : max count other = other := by omega
            rw [most]
            rfl

/-- A queued block is behind the cursor, and its count is required. -/
theorem required_of_wanted
    {id : BlockId}
    {count : Nat}
    (queued : sweep.wanted id = some count) :
    behind sweep.cursor id = true ∧ count ≤ sweep.required id := by
  unfold Sweep.required Repair.required
  unfold Sweep.wanted at queued
  cases inLog : wantedValue
      (fun entry => 1 < entry.2 && behind sweep.cursor entry.1)
      sweep.log.requirements.blocks id with
  | none =>
      rw [inLog] at queued
      cases inState : wantedValue
          (fun entry : BlockId × Nat => behind sweep.cursor entry.1)
          sweep.replicated id with
      | none =>
          rw [inState] at queued
          cases queued
      | some other =>
          rw [inState] at queued
          cases queued
          obtain ⟨present, ahead⟩ := wantedValue_eq_some.mp inState
          rw [present]
          exact ⟨ahead, Nat.le_max_right _ _⟩
  | some own =>
      rw [inLog] at queued
      obtain ⟨present, isWanted⟩ := wantedValue_eq_some.mp inLog
      obtain ⟨-, ahead⟩ := (Bool.and_eq_true _ _).mp isWanted
      rw [present]
      refine ⟨ahead, ?_⟩
      cases inState : wantedValue
          (fun entry : BlockId × Nat => behind sweep.cursor entry.1)
          sweep.replicated id with
      | none =>
          rw [inState] at queued
          cases queued
          exact Nat.le_max_left _ _
      | some other =>
          rw [inState] at queued
          cases queued
          rw [(wantedValue_eq_some.mp inState).1]
          exact Nat.le_refl _

end Ticks

/-! ## Turns -/

section Turns

variable {codec : Codec} {blake3 : Bytes → BlockId} {sweep : Sweep}

/-- An observation changes locations only. -/
theorem continues_observations
    (id : BlockId)
    (observations : List (Nat × Option Generation × Option WriteFault)) :
    sweep.Continues
      (observations.foldl (Sweep.note codec id) sweep) := by
  induction observations generalizing sweep with
  | nil =>
      exact .refl sweep
  | cons observation rest inductionHypothesis =>
      have noted :
          sweep.Continues (Sweep.note codec id sweep observation) := by
        refine ⟨rfl, rfl, rfl, fun other => ?_⟩
        unfold Sweep.required Sweep.note
        dsimp only
        rw [blocks_observe]
      exact noted.trans inductionHypothesis

theorem continues_acknowledge
    (turn : Turn)
    {id : BlockId}
    {replicas : Nat}
    (enough : replicas ≤ sweep.required id) :
    sweep.Continues
      (sweep.acknowledge codec blake3 turn id replicas) := by
  unfold Sweep.acknowledge
  split
  · exact .refl sweep
  · have committed (store : TieredNode) :
        sweep.Continues
          { sweep with
            replicated := raise sweep.replicated [id] replicas
            store := store } :=
      ⟨rfl, rfl, rfl, required_raise_replicated enough⟩
    dsimp only
    split
    · exact committed _
    · exact (committed _).trans (continues_observations id _)

/-- The turn of a block: an attempt is made if its pin is recorded. -/
structure Sweep.Attempted
    (sweep : Sweep)
    (made : Prop)
    [Decidable made]
    (entry : BlockId × Nat)
    (next : Sweep) : Prop where
  cursor : next.cursor = sweep.cursor
  queue : next.queue = sweep.queue
  attempts :
    next.attempts =
      if made then sweep.attempts ++ [entry] else sweep.attempts
  required : ∀ id, next.required id = sweep.required id

/-- What follows an attempt does not undo it. -/
theorem Sweep.Attempted.acknowledge
    {made : Prop}
    [Decidable made]
    {entry : BlockId × Nat}
    {checked : Sweep}
    (attempted : sweep.Attempted made entry checked)
    (turn : Turn)
    (enough : entry.2 ≤ sweep.required entry.1) :
    sweep.Attempted made entry
      (checked.acknowledge codec blake3 turn entry.1 entry.2) := by
  have continues : checked.Continues
      (checked.acknowledge codec blake3 turn entry.1 entry.2) := by
    refine continues_acknowledge turn ?_
    rw [attempted.required]
    exact enough
  exact {
    cursor := continues.cursor.trans attempted.cursor
    queue := continues.queue.trans attempted.queue
    attempts := continues.attempts.trans attempted.attempts
    required := fun id =>
      (continues.required id).trans (attempted.required id) }

theorem attempted_repairBlock
    (turn : Turn)
    {id : BlockId}
    {replicas : Nat}
    (enough : replicas ≤ sweep.required id) :
    sweep.Attempted
      ((sweep.log.record codec sweep.files [id] replicas
        turn.publishFault).1 = .ok ())
      (id, replicas)
      (sweep.repairBlock codec blake3 turn id replicas) := by
  have counts :
      (sweep.log.record codec sweep.files [id] replicas
        turn.publishFault).2.1.requirements.blocks = _ :=
    blocks_record [id] replicas turn.publishFault
  unfold Sweep.repairBlock
  rcases recorded : sweep.log.record codec sweep.files [id] replicas
    turn.publishFault with ⟨error | _, log, files⟩
  · rw [recorded, if_neg nofun] at counts
    refine ⟨rfl, rfl, by rw [if_neg nofun], fun other => ?_⟩
    unfold Sweep.required
    dsimp only at counts ⊢
    rw [counts]
  · rw [recorded, if_pos rfl] at counts
    have checked (store : TieredNode) :
        sweep.Attempted ((Except.ok () : Except LogError Unit) = .ok ())
          (id, replicas)
          { sweep with
            log := log
            files := files
            store := store
            attempts := sweep.attempts ++ [(id, replicas)] } := by
      refine ⟨rfl, rfl, by rw [if_pos rfl], fun other => ?_⟩
      unfold Sweep.required
      dsimp only at counts ⊢
      rw [counts]
      exact required_raise enough other
    dsimp only
    split
    · exact (checked _).acknowledge turn enough
    · exact checked _
    · split
      · exact (checked _).acknowledge turn enough
      · exact checked _

/-- An upload is admitted for a block, and its pin is recorded. -/
def Sweep.Attempts
    (codec : Codec)
    (sweep : Sweep)
    (turn : Turn)
    (entry : BlockId × Nat) : Prop :=
  turn.admitted = true ∧
    (sweep.log.record codec sweep.files [entry.1] entry.2
      turn.publishFault).1 = .ok ()

instance (turn : Turn) (entry : BlockId × Nat) :
    Decidable (sweep.Attempts codec turn entry) :=
  inferInstanceAs (Decidable (_ ∧ _))

/-- What a turn does to the sweep. -/
structure Sweep.Turned
    (codec : Codec)
    (sweep : Sweep)
    (turn : Turn)
    (entry : BlockId × Nat)
    (rest : List (BlockId × Nat))
    (next : Sweep) : Prop where
  cursor : next.cursor = some entry.1
  queue : next.queue = rest ∨ next.queue = []
  attempts :
    next.attempts =
      if sweep.Attempts codec turn entry then
        sweep.attempts ++ [entry]
      else
        sweep.attempts
  required : ∀ id, next.required id = sweep.required id

theorem turned_step
    (turn : Turn)
    {entry : BlockId × Nat}
    {rest : List (BlockId × Nat)}
    (queued : sweep.queue = entry :: rest)
    (enough : entry.2 ≤ sweep.required entry.1) :
    sweep.Turned codec turn entry rest
      (sweep.step codec blake3 (.turn turn)) := by
  unfold Sweep.step
  rw [queued]
  dsimp only
  split
  · rename_i admitted
    have attempted : Sweep.Attempted
        { sweep with cursor := some entry.1, queue := rest } _ _
        (Sweep.repairBlock codec blake3
          { sweep with cursor := some entry.1, queue := rest }
          turn entry.1 entry.2) :=
      attempted_repairBlock turn enough
    refine ⟨attempted.cursor, Or.inl attempted.queue, ?_,
      attempted.required⟩
    rw [attempted.attempts]
    by_cases recorded :
        (sweep.log.record codec sweep.files [entry.1] entry.2
          turn.publishFault).1 = .ok ()
    · rw [if_pos recorded, if_pos ⟨admitted, recorded⟩]
    · rw [if_neg recorded, if_neg fun attempts => recorded attempts.2]
  · rename_i refused
    exact ⟨rfl, Or.inr rfl, by rw [if_neg fun attempts => refused attempts.1],
      fun _ => rfl⟩

end Turns

end KalpakDb.Repair
