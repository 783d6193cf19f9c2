import KalpakDb.RetentionJournal
import KalpakDb.SegmentWrites
import KalpakDb.TieredStore

namespace KalpakDb.Daemon

/-!
# The writing paths of the daemon

Five paths of the daemon append blocks: the single and the batched upload, the
flush of a streamed upload, a read that keeps a copy of what a peer answered,
and the repair that fetches a missing block.  Each guards its blocks in the
retention journal before it calls the store.  The paths run side by side; the
journal and the store each have a lock, so a call of either is one event, and
a crash may interrupt one call of each.
-/

open Contract (execute)
open ByteCodec (leValue leValue_lt)
open Retention (SetOrder JournalWrite)

/-! ## Requests -/

/-- A call of the tiered store that may append. -/
inductive StoreCall where
  | put (payload : Payload)
  | putMany (payloads : List Payload)
  | repair (id : BlockId) (payload : Payload)

/-- An attempt to write: what it guards, and the calls it then makes. -/
structure Attempt where
  guarded : List BlockId
  requires : Bool
  calls : List StoreCall

inductive BatchError where
  | truncatedHeader
  | tooManyBlocks
  | truncatedLength
  | truncatedPayload
  | trailingBytes
  deriving DecidableEq

/-- The first payload of a batch, its length being a word of four bytes. -/
def firstPayload (rest : Bytes) : Payload where
  bytes := (rest.drop 4).take (leValue (rest.take 4))
  length_lt := by
    have word : leValue (rest.take 4) < 256 ^ (rest.take 4).length :=
      leValue_lt _
    have four : 256 ^ (rest.take 4).length ≤ 256 ^ 4 :=
      Nat.pow_le_pow_right (by decide) (List.length_take_le 4 rest)
    have shorter := List.length_take_le (leValue (rest.take 4)) (rest.drop 4)
    omega

/-- The blocks of a batch, and nothing behind them. -/
def parseBlocks : Nat → Bytes → Except BatchError (List Payload)
  | 0, rest => if rest = [] then .ok [] else .error .trailingBytes
  | count + 1, rest =>
      if rest.length < 4 then
        .error .truncatedLength
      else
        let size := leValue (rest.take 4)
        if rest.length < 4 + size then
          .error .truncatedPayload
        else
          match parseBlocks count (rest.drop (4 + size)) with
          | .error error => .error error
          | .ok payloads => .ok (firstPayload rest :: payloads)

def parseBatch (body : Bytes) : Except BatchError (List Payload) :=
  if body.length < 4 then
    .error .truncatedHeader
  else
    let count := leValue (body.take 4)
    if 4096 < count then
      .error .tooManyBlocks
    else
      parseBlocks count (body.drop 4)

/--
A request to one of the writing paths; `retain` is the header of an internal
upload, and `answers` are the bodies that peers send for a missing block.
-/
inductive Request where
  | putBlock (payload : Payload) (replicas : Nat) (retain : Bool)
  | putBlocksBatch (body : Bytes) (replicas : Nat) (retain : Bool)
  | flush (blocks : List Payload) (replicas : Nat)
  | getBlock (id : BlockId) (answers : List Payload)
  | repairFetch (id : BlockId) (answers : List Payload)

section Hash

variable (blake3 : Bytes → BlockId)

/-- The address of a payload. -/
def addressOf (payload : Payload) : BlockId := blake3 payload.bytes

/-- Store a batch; a durable one is then verified block by block. -/
def batchAttempt (payloads : List Payload) (durable : Bool) : Attempt where
  guarded := payloads.map (addressOf blake3)
  requires := durable
  calls :=
    .putMany payloads ::
      if durable then
        payloads.map fun payload => .repair (addressOf blake3 payload) payload
      else
        []

/-- What a request does, one attempt after the other until one succeeds. -/
def Request.attempts : Request → List Attempt
  | .putBlock payload replicas retain =>
      let durable := 1 < replicas || retain
      [{ guarded := [addressOf blake3 payload]
         requires := durable
         calls :=
           [if durable then .repair (addressOf blake3 payload) payload
            else .put payload] }]
  | .putBlocksBatch body replicas retain =>
      match parseBatch body with
      | .error _ => []
      | .ok payloads => [batchAttempt blake3 payloads (1 < replicas || retain)]
  | .flush blocks replicas => [batchAttempt blake3 blocks (1 < replicas)]
  | .getBlock id answers =>
      match answers.find? fun payload => addressOf blake3 payload = id with
      | none => []
      | some payload =>
          [{ guarded := [id], requires := false, calls := [.put payload] }]
  | .repairFetch id answers =>
      (answers.filter fun payload => addressOf blake3 payload = id).map
        fun payload =>
          { guarded := [id]
            requires := false
            calls := [.repair id payload] }

def StoreCall.payloads : StoreCall → List Payload
  | .put payload => [payload]
  | .putMany payloads => payloads
  | .repair _ payload => [payload]

/-- The blocks whose records a call may append. -/
def StoreCall.ids (call : StoreCall) : List BlockId :=
  call.payloads.map (addressOf blake3)

def StoreCall.code : StoreCall → TieredM Unit
  | .put payload => do
      let _ ← TieredStore.put blake3 payload
  | .putMany payloads => do
      let _ ← TieredStore.putMany blake3 payloads
  | .repair id payload => do
      let _ ← TieredStore.repair blake3 id payload

end Hash

/-! ## The daemon -/

/-- How far an attempt has come, and the guard it holds. -/
inductive Stage where
  | waiting
  | guarded (guard : List BlockId)
  | storing (guard : List BlockId) (calls : List StoreCall)
  | failed (guard : List BlockId)

/-- A request being served: the attempt that runs, and those left. -/
structure Upload where
  attempts : List Attempt
  stage : Stage := .waiting

def Stage.guard? : Stage → Option (List BlockId)
  | .waiting => none
  | .guarded guard => some guard
  | .storing guard _ => some guard
  | .failed guard => some guard

/-- The guards that uploads hold. -/
def heldGuards (uploads : List Upload) : List (List BlockId) :=
  uploads.filterMap fun upload => upload.stage.guard?

/--
The journal, the store and the running uploads.  The ghost list has the blocks
that were handed to a call of the store.
-/
structure State where
  retention : Retention.History := {}
  store : TieredNode := ⟨.new 0, {}⟩
  uploads : List Upload := []
  handed : List BlockId := []

inductive Event where
  | arrive (request : Request)
  | protect (upload : Nat) (order : SetOrder) (write : JournalWrite)
  | record (upload : Nat) (succeeds : Bool)
  | store (upload : Nat) (fault : Option Fault)
  | finish (upload : Nat)
  | crash
      (protecting : Option Nat)
      (order : SetOrder)
      (written : Nat)
      (storing : Option Nat)
      (fault : Option Fault)
  | recover (rollBytes warmBudget : Nat) (fault : Option Fault)

section Steps

variable (blake3 : Bytes → BlockId)

/-- The disk of a store whose process is gone. -/
def remains (disk : Disk) : TieredNode := ⟨.new 0, { disk := disk }⟩

def State.running (daemon : State) : Bool :=
  daemon.retention.host.process.isSome

def State.setUpload
    (daemon : State)
    (index : Nat)
    (upload : Upload) : State :=
  { daemon with uploads := daemon.uploads.set index upload }

def State.arrive (daemon : State) (request : Request) : State :=
  if daemon.running then
    { daemon with
      uploads := daemon.uploads ++ [⟨request.attempts blake3, .waiting⟩] }
  else
    daemon

/-- Guard the blocks of an attempt; a refusal ends the attempt. -/
def State.protect
    (daemon : State)
    (index : Nat)
    (order : SetOrder)
    (write : JournalWrite) : State :=
  match daemon.retention.host.process, daemon.uploads[index]? with
  | some process, some ⟨attempt :: rest, .waiting⟩ =>
      let after :=
        { daemon with
          retention := Retention.step blake3 daemon.retention
            (.call (.protect attempt.guarded order write)) }
      match (Retention.protect blake3 order write process.state
          daemon.retention.host.file attempt.guarded).1 with
      | .error _ => after.setUpload index ⟨rest, .waiting⟩
      | .ok guard =>
          after.setUpload index ⟨attempt :: rest,
            if attempt.requires then .guarded guard
            else .storing guard attempt.calls⟩
  | _, _ => daemon

/-- Record the number of replicas that the blocks of an attempt need. -/
def State.record (daemon : State) (index : Nat) (succeeds : Bool) : State :=
  match daemon.uploads[index]? with
  | some ⟨attempt :: rest, .guarded guard⟩ =>
      daemon.setUpload index ⟨attempt :: rest,
        if succeeds then .storing guard attempt.calls else .failed guard⟩
  | _ => daemon

/-- The next call of an attempt, with the I/O failure that lies ahead of it. -/
def State.callStore
    (daemon : State)
    (index : Nat)
    (fault : Option Fault) : State :=
  match daemon.uploads[index]? with
  | some ⟨attempts, .storing guard (call :: calls)⟩ =>
      let ended := execute (call.code blake3) (daemon.store.withFault fault)
      let after :=
        { daemon with
          store := ended.2.withFault none
          handed := daemon.handed ++ call.ids blake3 }
      match ended.1 with
      | .error _ => after.setUpload index ⟨attempts, .failed guard⟩
      | .ok _ => after.setUpload index ⟨attempts, .storing guard calls⟩
  | _ => daemon

def State.dropGuard (daemon : State) (guard : List BlockId) : State :=
  match daemon.retention.host.process with
  | none => daemon
  | some process =>
      { daemon with
        retention := Retention.step blake3 daemon.retention
          (.call (.dropGuard (process.guards.idxOf guard))) }

/-- The guard of an attempt goes when its calls are done or it has failed. -/
def State.finish (daemon : State) (index : Nat) : State :=
  match daemon.uploads[index]? with
  | some ⟨_, .storing guard []⟩ =>
      (daemon.dropGuard blake3 guard).setUpload index ⟨[], .waiting⟩
  | some ⟨attempts, .failed guard⟩ =>
      (daemon.dropGuard blake3 guard).setUpload index
        ⟨attempts.drop 1, .waiting⟩
  | _ => daemon

/-- What an upload is about to guard. -/
def State.unguarded (daemon : State) (index : Option Nat) : List BlockId :=
  match index.bind fun index => daemon.uploads[index]? with
  | some ⟨attempt :: _, .waiting⟩ => attempt.guarded
  | _ => []

/-- The process stops, possibly within a call of the journal and the store. -/
def State.crash
    (daemon : State)
    (protecting : Option Nat)
    (order : SetOrder)
    (written : Nat)
    (storing : Option Nat)
    (fault : Option Fault) : State :=
  let stored :=
    match storing with
    | none => daemon
    | some index => daemon.callStore blake3 index fault
  { stored with
    retention := Retention.step blake3 daemon.retention
      (.crash (daemon.unguarded protecting) order written)
    store := remains stored.store.cold.disk
    uploads := [] }

def State.recover
    (daemon : State)
    (rollBytes warmBudget : Nat)
    (fault : Option Fault) : State :=
  if daemon.running then
    daemon
  else
    let opened := execute (openWithRoll rollBytes)
      { disk := daemon.store.cold.disk, fault := fault }
    match opened.1 with
    | .error _ => { daemon with store := remains opened.2.disk }
    | .ok _ =>
        { daemon with
          retention := Retention.step blake3 daemon.retention .reopen
          store := ⟨.new warmBudget, { opened.2 with fault := none }⟩ }

def step (daemon : State) : Event → State
  | .arrive request => daemon.arrive blake3 request
  | .protect index order write => daemon.protect blake3 index order write
  | .record index succeeds => daemon.record index succeeds
  | .store index fault => daemon.callStore blake3 index fault
  | .finish index => daemon.finish blake3 index
  | .crash protecting order written storing fault =>
      daemon.crash blake3 protecting order written storing fault
  | .recover rollBytes warmBudget fault =>
      daemon.recover blake3 rollBytes warmBudget fault

end Steps

/-! ## Every handed block is guarded -/

/-- Some record of the journal names a block. -/
def Named (records : List (List BlockId)) (id : BlockId) : Prop :=
  ∃ record ∈ records, id ∈ record

/-- The calls append only blocks that a list of identifiers names. -/
def CallsWithin
    (blake3 : Bytes → BlockId)
    (ids : List BlockId)
    (calls : List StoreCall) : Prop :=
  ∀ call ∈ calls, ∀ id ∈ call.ids blake3, id ∈ ids

/-- The guard of an upload names all that its calls may append. -/
def Stage.Within
    (blake3 : Bytes → BlockId)
    (attempts : List Attempt) : Stage → Prop
  | .guarded guard =>
      ∃ attempt rest,
        attempts = attempt :: rest ∧ CallsWithin blake3 guard attempt.calls
  | .storing guard calls => CallsWithin blake3 guard calls
  | _ => True

structure Upload.Within
    (blake3 : Bytes → BlockId)
    (upload : Upload) : Prop where
  attempts :
    ∀ attempt ∈ upload.attempts,
      CallsWithin blake3 attempt.guarded attempt.calls
  stage : upload.stage.Within blake3 upload.attempts

/-- What holds of the daemon at every moment. -/
structure Guarded (blake3 : Bytes → BlockId) (daemon : State) : Prop where
  recorded :
    ∃ state torn, Retention.Recorded blake3 daemon.retention state torn
  within : ∀ upload ∈ daemon.uploads, upload.Within blake3
  live :
    ∀ process,
      daemon.retention.host.process = some process →
      process.guards.Perm (heldGuards daemon.uploads)
  stopped : daemon.retention.host.process = none → daemon.uploads = []
  named :
    ∀ guard ∈ heldGuards daemon.uploads,
      ∀ id ∈ guard, Named daemon.retention.records id
  handed : ∀ id ∈ daemon.handed, Named daemon.retention.records id
  built : daemon.store.cold.Built (· ∈ daemon.handed)

section Requests

variable {blake3 : Bytes → BlockId}

theorem callsWithin_singleton
    {ids : List BlockId}
    {call : StoreCall}
    (within : ∀ id ∈ call.ids blake3, id ∈ ids) :
    CallsWithin blake3 ids [call] :=
  List.forall_mem_singleton.mpr within

theorem batchAttempt_within (payloads : List Payload) (durable : Bool) :
    CallsWithin blake3 (batchAttempt blake3 payloads durable).guarded
      (batchAttempt blake3 payloads durable).calls := by
  intro call member id listed
  rcases List.mem_cons.mp member with rfl | later
  · exact listed
  · cases durable with
    | false =>
        cases later
    | true =>
        obtain ⟨payload, present, rfl⟩ := List.mem_map.mp later
        rw [StoreCall.ids, StoreCall.payloads, List.map_singleton,
          List.mem_singleton] at listed
        rw [listed]
        exact List.mem_map_of_mem present

/-- Every path guards what it is about to append. -/
theorem Request.attempts_within (request : Request) :
    ∀ attempt ∈ request.attempts blake3,
      CallsWithin blake3 attempt.guarded attempt.calls := by
  intro attempt member
  cases request with
  | putBlock payload replicas retain =>
      rw [Request.attempts, List.mem_singleton] at member
      subst member
      refine callsWithin_singleton ?_
      dsimp only
      split
      · exact fun id listed => listed
      · exact fun id listed => listed
  | putBlocksBatch body replicas retain =>
      rw [Request.attempts] at member
      split at member
      · cases member
      · rw [List.mem_singleton] at member
        subst member
        exact batchAttempt_within _ _
  | flush blocks replicas =>
      rw [Request.attempts, List.mem_singleton] at member
      subst member
      exact batchAttempt_within _ _
  | getBlock id answers =>
      rw [Request.attempts] at member
      split at member
      · cases member
      · rename_i payload found
        have verified : addressOf blake3 payload = id := by
          simpa using List.find?_some found
        rw [List.mem_singleton] at member
        subst member
        subst verified
        exact callsWithin_singleton fun id listed => listed
  | repairFetch id answers =>
      obtain ⟨payload, found, rfl⟩ := List.mem_map.mp member
      have verified : addressOf blake3 payload = id := by
        simpa using (List.mem_filter.mp found).2
      subst verified
      exact callsWithin_singleton fun id listed => listed

end Requests

/-! ## Guards of uploads -/

section Uploads

variable {blake3 : Bytes → BlockId} {uploads : List Upload} {index : Nat}
  {old : Upload}

theorem heldGuards_perm_eraseIdx
    (present : uploads[index]? = some old) :
    (heldGuards uploads).Perm
      (old.stage.guard?.toList ++ heldGuards (uploads.eraseIdx index)) := by
  obtain ⟨within, rfl⟩ := List.getElem?_eq_some_iff.mp present
  have split := (List.getElem_cons_eraseIdx_perm within).symm.filterMap
    fun upload : Upload => upload.stage.guard?
  rw [List.filterMap_cons] at split
  cases isGuard : uploads[index].stage.guard? with
  | none =>
      rw [isGuard] at split
      exact split
  | some guard =>
      rw [isGuard] at split
      exact split

theorem heldGuards_set_perm
    (present : uploads[index]? = some old)
    (new : Upload) :
    (heldGuards (uploads.set index new)).Perm
      (new.stage.guard?.toList ++ heldGuards (uploads.eraseIdx index)) := by
  have within := (List.getElem?_eq_some_iff.mp present).1
  have updated : (uploads.set index new)[index]? = some new :=
    List.getElem?_set_self within
  have split := heldGuards_perm_eraseIdx updated
  rwa [List.eraseIdx_set_eq] at split

/-- Moving to another stage under the same guard. -/
theorem heldGuards_set_same
    (present : uploads[index]? = some old)
    {new : Upload}
    (same : new.stage.guard? = old.stage.guard?) :
    (heldGuards (uploads.set index new)).Perm (heldGuards uploads) := by
  have split := heldGuards_set_perm present new
  rw [same] at split
  exact split.trans (heldGuards_perm_eraseIdx present).symm

theorem mem_heldGuards
    {upload : Upload}
    {guard : List BlockId}
    (member : upload ∈ uploads)
    (isGuard : upload.stage.guard? = some guard) :
    guard ∈ heldGuards uploads :=
  List.mem_filterMap.mpr ⟨upload, member, isGuard⟩

theorem within_set
    (within : ∀ upload ∈ uploads, upload.Within blake3)
    {new : Upload}
    (newWithin : new.Within blake3) :
    ∀ upload ∈ uploads.set index new, upload.Within blake3 := by
  intro upload member
  rcases List.mem_or_eq_of_mem_set member with before | rfl
  · exact within upload before
  · exact newWithin

theorem CallsWithin.mono
    {ids more : List BlockId}
    {calls : List StoreCall}
    (within : CallsWithin blake3 ids calls)
    (larger : ∀ id ∈ ids, id ∈ more) :
    CallsWithin blake3 more calls :=
  fun call member id listed => larger id (within call member id listed)

end Uploads

/-! ## One event -/

section Events

variable {blake3 : Bytes → BlockId} {daemon : State}

theorem Guarded.setUpload
    (guarded : Guarded blake3 daemon)
    {index : Nat}
    {old new : Upload}
    (present : daemon.uploads[index]? = some old)
    (within : new.Within blake3)
    (same : new.stage.guard? = old.stage.guard?) :
    Guarded blake3 (daemon.setUpload index new) where
  recorded := guarded.recorded
  within := within_set guarded.within within
  live := by
    intro process isProcess
    exact (guarded.live process isProcess).trans
      (heldGuards_set_same present same).symm
  stopped := by
    intro isStopped
    have none := guarded.stopped isStopped
    simp [none] at present
  named := by
    intro guard held
    exact guarded.named guard
      ((heldGuards_set_same present same).mem_iff.mp held)
  handed := guarded.handed
  built := guarded.built

theorem Guarded.arrive
    (guarded : Guarded blake3 daemon)
    (request : Request) :
    Guarded blake3 (daemon.arrive blake3 request) := by
  unfold State.arrive
  split
  · rename_i running
    have held : heldGuards
        (daemon.uploads ++ [⟨request.attempts blake3, .waiting⟩]) =
          heldGuards daemon.uploads := by
      simp [heldGuards, Stage.guard?]
    refine { guarded with
      within := ?_
      live := ?_
      stopped := ?_
      named := ?_ }
    · intro upload member
      rcases List.mem_append.mp member with before | last
      · exact guarded.within upload before
      · rw [List.mem_singleton.mp last]
        exact ⟨request.attempts_within, trivial⟩
    · intro process isProcess
      rw [held]
      exact guarded.live process isProcess
    · intro isStopped
      rw [State.running, isStopped] at running
      cases running
    · rw [held]
      exact guarded.named
  · exact guarded

theorem Guarded.record
    (guarded : Guarded blake3 daemon)
    (index : Nat)
    (succeeds : Bool) :
    Guarded blake3 (daemon.record index succeeds) := by
  unfold State.record
  split
  · rename_i attempt rest guard present
    have within := guarded.within _ (List.mem_of_getElem? present)
    obtain ⟨_, _, ⟨⟩, calls⟩ := within.stage
    refine guarded.setUpload present ⟨within.attempts, ?_⟩ ?_
    · cases succeeds with
      | false =>
          trivial
      | true =>
          exact calls
    · cases succeeds with
      | false =>
          rfl
      | true =>
          rfl
  · exact guarded

/-- A store call writes parts of the records of its own blocks. -/
theorem StoreCall.keeps_built
    {begun : BlockId → Prop}
    (call : StoreCall)
    (isBegun : ∀ id ∈ call.ids blake3, begun id) :
    Contract.Keeps (fun node : TieredNode => node.cold.Built begun)
      (call.code blake3) := by
  have onCold
      {α : Type}
      {code : StorageM α}
      (keeps : Contract.Keeps (Node.Built begun) code) :
      Contract.Keeps (fun node : TieredNode => node.cold.Built begun)
        (onCold code) :=
    .within (fun _ _ => rfl) keeps
  cases call with
  | put payload =>
      refine .bind (.bind (onCold (keeps_built_put ?_)) fun id =>
        .bind (.modify fun _ built => built) fun _ => .pure _) fun _ =>
        .pure _
      exact isBegun _ (List.mem_singleton.mpr rfl)
  | putMany payloads =>
      refine .bind (.bind (onCold (keeps_built_putManyInner false ?_))
        fun ids => .bind (.modify fun _ built => built) fun _ => .pure _)
        fun _ => .pure _
      exact fun payload member => isBegun _ (List.mem_map_of_mem member)
  | repair id payload =>
      refine .bind (.bind (onCold (keeps_built_repair id ?_)) fun id =>
        .bind (.modify fun _ built => built) fun _ => .pure _) fun _ =>
        .pure _
      exact isBegun _ (List.mem_singleton.mpr rfl)

theorem Guarded.callStore
    (guarded : Guarded blake3 daemon)
    (index : Nat)
    (fault : Option Fault) :
    Guarded blake3 (daemon.callStore blake3 index fault) := by
  unfold State.callStore
  split
  · rename_i attempts guard call calls present
    have member := List.mem_of_getElem? present
    have within := guarded.within _ member
    have named := guarded.named guard (mem_heldGuards member rfl)
    have built : Node.Built (· ∈ daemon.handed ++ call.ids blake3)
        (execute (call.code blake3) (daemon.store.withFault fault)).2.cold := by
      refine (call.keeps_built ?_ (daemon.store.withFault fault) ?_).final
      · exact fun id listed => List.mem_append_right _ listed
      · exact guarded.built.mono fun id listed =>
          List.mem_append_left _ listed
    have after : Guarded blake3
        { daemon with
          store := (execute (call.code blake3)
            (daemon.store.withFault fault)).2.withFault none
          handed := daemon.handed ++ call.ids blake3 } := by
      refine { guarded with handed := ?_, built := built }
      intro id listed
      rcases List.mem_append.mp listed with before | new
      · exact guarded.handed id before
      · exact named id (within.stage call List.mem_cons_self id new)
    dsimp only
    split
    · exact after.setUpload present ⟨within.attempts, trivial⟩ rfl
    · refine after.setUpload present ⟨within.attempts, ?_⟩ rfl
      exact fun other later =>
        within.stage other (List.mem_cons_of_mem _ later)
  · exact guarded

/-- Records stay in the journal. -/
theorem Named.step
    {history : Retention.History}
    {id : BlockId}
    (named : Named history.records id)
    (event : Retention.Event) :
    Named (Retention.step blake3 history event).records id := by
  obtain ⟨record, member, listed⟩ := named
  exact ⟨record, List.mem_append_left _ member, listed⟩

/-- The blocks of an acknowledged guard are recorded. -/
theorem named_of_acknowledged
    {history : Retention.History}
    {state : Retention.State}
    {torn : Bytes}
    (recorded : Retention.Recorded blake3 history state torn)
    {process : Retention.Process}
    (isProcess : history.host.process = some process)
    {ids guard : List BlockId}
    {order : SetOrder}
    {write : JournalWrite}
    (acknowledged :
      (Retention.protect blake3 order write process.state history.host.file
        ids).1 = .ok guard)
    {id : BlockId}
    (listed : id ∈ guard) :
    Named (Retention.step blake3 history
      (.call (.protect ids order write))).records id := by
  obtain ⟨members, written, -⟩ :=
    recorded.acknowledged isProcess acknowledged
  have nonempty : ids ≠ [] := List.ne_nil_of_mem ((members id).mp listed)
  refine ⟨guard, ?_, listed⟩
  rw [Retention.step, written nonempty]
  exact List.mem_append_right _ (List.mem_singleton.mpr rfl)

theorem Guarded.protect
    (guarded : Guarded blake3 daemon)
    (index : Nat)
    (order : SetOrder)
    (write : JournalWrite) :
    Guarded blake3 (daemon.protect blake3 index order write) := by
  unfold State.protect
  split
  · rename_i process attempt rest isProcess present
    obtain ⟨state, torn, recorded⟩ := guarded.recorded
    have within := guarded.within _ (List.mem_of_getElem? present)
    have unheld := heldGuards_perm_eraseIdx present
    have later : ∀ attempt ∈ rest,
        CallsWithin blake3 attempt.guarded attempt.calls :=
      fun other member =>
        within.attempts other (List.mem_cons_of_mem _ member)
    dsimp only
    split
    · rename_i error refused
      obtain ⟨next, isNext, guards⟩ :=
        Retention.step_refused isProcess refused
      have after : Guarded blake3
          { daemon with
            retention := Retention.step blake3 daemon.retention
              (.call (.protect attempt.guarded order write)) } :=
        { guarded with
          recorded := recorded.step _
          live := by
            intro other isOther
            cases isNext.symm.trans isOther
            rw [guards]
            exact guarded.live process isProcess
          stopped := fun isStopped => by
            cases isNext.symm.trans isStopped
          named := fun guard held id listed =>
            (guarded.named guard held id listed).step _
          handed := fun id listed => (guarded.handed id listed).step _ }
      exact after.setUpload present ⟨later, trivial⟩ rfl
    · rename_i guard acknowledged
      obtain ⟨next, isNext, guards⟩ :=
        Retention.step_acknowledged isProcess acknowledged
      have members := (recorded.acknowledged isProcess acknowledged).1
      have calls : CallsWithin blake3 guard attempt.calls :=
        (within.attempts attempt List.mem_cons_self).mono
          fun id listed => (members id).mpr listed
      generalize isNew :
          (⟨attempt :: rest,
            if attempt.requires then .guarded guard
            else .storing guard attempt.calls⟩ : Upload) = new
      have newWithin : new.Within blake3 := by
        subst isNew
        refine ⟨within.attempts, ?_⟩
        dsimp only
        split
        · exact ⟨attempt, rest, rfl, calls⟩
        · exact calls
      have newGuard : new.stage.guard? = some guard := by
        subst isNew
        dsimp only
        split
        · rfl
        · rfl
      have held : (heldGuards (daemon.uploads.set index new)).Perm
          (guard :: heldGuards daemon.uploads) := by
        have split := heldGuards_set_perm present new
        rw [newGuard] at split
        exact split.trans (unheld.symm.cons guard)
      exact
        { recorded := recorded.step _
          within := within_set guarded.within newWithin
          live := by
            intro other isOther
            cases isNext.symm.trans isOther
            rw [guards]
            exact ((guarded.live process isProcess).append_right _).trans
              (List.perm_append_singleton guard _ |>.trans held.symm)
          stopped := fun isStopped => by
            cases isNext.symm.trans isStopped
          named := by
            intro other isHeld id listed
            rcases List.mem_cons.mp (held.mem_iff.mp isHeld) with rfl | before
            · exact named_of_acknowledged recorded isProcess acknowledged
                listed
            · exact (guarded.named other before id listed).step _
          handed := fun id listed => (guarded.handed id listed).step _
          built := guarded.built }
  · exact guarded

/-- The guard of an upload goes with its attempt. -/
theorem Guarded.dropGuard
    (guarded : Guarded blake3 daemon)
    {index : Nat}
    {old : Upload}
    (present : daemon.uploads[index]? = some old)
    {guard : List BlockId}
    (isGuard : old.stage.guard? = some guard)
    {attempts : List Attempt}
    (subset : ∀ attempt ∈ attempts, attempt ∈ old.attempts) :
    Guarded blake3
      ((daemon.dropGuard blake3 guard).setUpload index
        ⟨attempts, .waiting⟩) := by
  obtain ⟨state, torn, recorded⟩ := guarded.recorded
  have member := List.mem_of_getElem? present
  have within := guarded.within old member
  have held := heldGuards_perm_eraseIdx present
  rw [isGuard] at held
  have remaining := heldGuards_set_perm present ⟨attempts, .waiting⟩
  cases isProcess : daemon.retention.host.process with
  | none =>
      rw [guarded.stopped isProcess] at member
      cases member
  | some process =>
      have live := guarded.live process isProcess
      obtain ⟨next, isNext, guards⟩ := recorded.step_dropGuard isProcess
        (live.mem_iff.mpr (mem_heldGuards member isGuard))
      have smaller :
          ∀ other ∈ heldGuards
              (daemon.uploads.set index ⟨attempts, .waiting⟩),
            other ∈ heldGuards daemon.uploads := fun other isHeld =>
        held.mem_iff.mpr (List.mem_cons_of_mem _
          (remaining.mem_iff.mp isHeld))
      simp only [State.dropGuard, isProcess, State.setUpload]
      exact
        { recorded := recorded.step _
          within := within_set guarded.within
            ⟨fun attempt listed =>
              within.attempts attempt (subset attempt listed), trivial⟩
          live := by
            intro other isOther
            cases isNext.symm.trans isOther
            rw [guards]
            have erased := (live.trans held).erase guard
            rw [Option.toList_some, List.singleton_append,
              List.erase_cons_head] at erased
            exact erased.trans remaining.symm
          stopped := fun isStopped => by
            cases isNext.symm.trans isStopped
          named := fun other isHeld id listed =>
            (guarded.named other (smaller other isHeld) id listed).step _
          handed := fun id listed => (guarded.handed id listed).step _
          built := guarded.built }

theorem Guarded.finish
    (guarded : Guarded blake3 daemon)
    (index : Nat) :
    Guarded blake3 (daemon.finish blake3 index) := by
  unfold State.finish
  split
  · rename_i present
    exact guarded.dropGuard present rfl (by simp)
  · rename_i present
    exact guarded.dropGuard present rfl fun attempt listed =>
      List.mem_of_mem_drop listed
  · exact guarded

theorem callStore_retention
    (daemon : State)
    (index : Nat)
    (fault : Option Fault) :
    (daemon.callStore blake3 index fault).retention = daemon.retention := by
  unfold State.callStore
  split
  · dsimp only
    split
    · rfl
    · rfl
  · rfl

/-- A stopped daemon keeps its files. -/
theorem Guarded.stop
    (guarded : Guarded blake3 daemon)
    (ids : List BlockId)
    (order : SetOrder)
    (written : Nat) :
    Guarded blake3
      { daemon with
        retention := Retention.step blake3 daemon.retention
          (.crash ids order written)
        store := remains daemon.store.cold.disk
        uploads := [] } := by
  obtain ⟨state, torn, recorded⟩ := guarded.recorded
  have stopped : (Retention.step blake3 daemon.retention
      (.crash ids order written)).host.process = none :=
    Retention.step_crash_stopped _ _ _ _
  exact
    { recorded := recorded.step _
      within := by simp
      live := fun process isProcess => by
        cases stopped.symm.trans isProcess
      stopped := fun _ => rfl
      named := by simp [heldGuards]
      handed := fun id listed => (guarded.handed id listed).step _
      built := guarded.built }

theorem Guarded.crash
    (guarded : Guarded blake3 daemon)
    (protecting : Option Nat)
    (order : SetOrder)
    (written : Nat)
    (storing : Option Nat)
    (fault : Option Fault) :
    Guarded blake3
      (daemon.crash blake3 protecting order written storing fault) := by
  cases storing with
  | none =>
      exact guarded.stop (daemon.unguarded protecting) order written
  | some index =>
      have stopped := (guarded.callStore index fault).stop
        (daemon.unguarded protecting) order written
      rw [callStore_retention] at stopped
      exact stopped

theorem Guarded.recover
    (guarded : Guarded blake3 daemon)
    (rollBytes warmBudget : Nat)
    (fault : Option Fault) :
    Guarded blake3
      (daemon.recover blake3 rollBytes warmBudget fault) := by
  obtain ⟨state, torn, recorded⟩ := guarded.recorded
  unfold State.recover
  split
  · exact guarded
  · rename_i stopped
    have isStopped : daemon.retention.host.process = none := by
      simpa [State.running] using stopped
    have idle := guarded.stopped isStopped
    have built : (execute (openWithRoll rollBytes)
        { disk := daemon.store.cold.disk, fault := fault }).2.Built
          (· ∈ daemon.handed) :=
      (keeps_built_openWithRoll rollBytes
        { disk := daemon.store.cold.disk, fault := fault }
        guarded.built).final
    dsimp only
    split
    · exact { guarded with built := built }
    · exact
        { recorded := recorded.step _
          within := guarded.within
          live := by
            intro process isProcess
            cases recorded.step_reopen.symm.trans isProcess
            simp [idle, heldGuards]
          stopped := fun _ => idle
          named := fun guard held id listed =>
            (guarded.named guard held id listed).step _
          handed := fun id listed => (guarded.handed id listed).step _
          built := built }

theorem Guarded.step
    (guarded : Guarded blake3 daemon)
    (event : Event) :
    Guarded blake3 (step blake3 daemon event) := by
  cases event with
  | arrive request =>
      exact guarded.arrive request
  | protect index order write =>
      exact guarded.protect index order write
  | record index succeeds =>
      exact guarded.record index succeeds
  | store index fault =>
      exact guarded.callStore index fault
  | finish index =>
      exact guarded.finish index
  | crash protecting order written storing fault =>
      exact guarded.crash protecting order written storing fault
  | recover rollBytes warmBudget fault =>
      exact guarded.recover rollBytes warmBudget fault

theorem guarded_start (blake3 : Bytes → BlockId) : Guarded blake3 {} where
  recorded := ⟨{}, [], Retention.recorded_start⟩
  within := by simp
  live := by rintro _ ⟨⟩
  stopped := fun _ => rfl
  named := by simp [heldGuards]
  handed := by simp
  built := .empty

end Events

/-- The daemon before an event of a run that starts with empty directories. -/
def daemonBefore
    (blake3 : Bytes → BlockId)
    (events : List Event)
    (position : Nat) : State :=
  StepRun.before (step blake3) {} events position

theorem guarded_before
    (blake3 : Bytes → BlockId)
    (events : List Event)
    (position : Nat) :
    Guarded blake3 (daemonBefore blake3 events position) :=
  StepRun.holds_before (Guarded blake3) (guarded_start blake3)
    (fun _ event _ guarded => guarded.step event) position

/--
At every moment, in particular after a crash, opening the journal finds a
guard for every block handed to a call of the store, and what lies in the
segments are parts of the records of such blocks.  While an upload has a call
to make, a guard of the running process names all blocks the call may append.
-/
theorem daemon_writes_guarded
    (blake3 : Bytes → BlockId)
    (events : List Event)
    (position : Nat) :
    let daemon := daemonBefore blake3 events position
    (∃ recovered file,
        Retention.openJournal blake3 daemon.retention.host.file =
            .ok (recovered, file) ∧
          ∀ id ∈ daemon.handed, id ∈ recovered.ids) ∧
      daemon.store.cold.disk.Built (· ∈ daemon.handed) ∧
      ∀ (index : Nat) (attempts : List Attempt) (guard : List BlockId)
        (call : StoreCall) (calls : List StoreCall),
        daemon.uploads[index]? =
          some ⟨attempts, .storing guard (call :: calls)⟩ →
        ∃ process,
          daemon.retention.host.process = some process ∧
            guard ∈ process.guards ∧
            ∀ id ∈ call.ids blake3, id ∈ guard := by
  intro daemon
  have guarded : Guarded blake3 daemon := guarded_before blake3 events position
  obtain ⟨state, torn, recorded⟩ := guarded.recorded
  refine ⟨⟨state, _, recorded.openJournal_eq, ?_⟩, guarded.built, ?_⟩
  · intro id listed
    obtain ⟨record, member, named⟩ := guarded.handed id listed
    obtain ⟨generation, isGeneration⟩ :=
      Retention.exists_generation member named
    have found := (recorded.journal.generation_iff id generation).mpr
      isGeneration
    rw [Std.ExtTreeMap.mem_iff_isSome_getElem?, found]
    rfl
  · intro index attempts guard call calls present
    have member := List.mem_of_getElem? present
    have within := (guarded.within _ member).stage
    cases isProcess : daemon.retention.host.process with
    | none =>
        rw [guarded.stopped isProcess] at member
        cases member
    | some process =>
        refine ⟨process, rfl, ?_, within call List.mem_cons_self⟩
        exact (guarded.live process isProcess).mem_iff.mpr
          (mem_heldGuards member rfl)

end KalpakDb.Daemon
