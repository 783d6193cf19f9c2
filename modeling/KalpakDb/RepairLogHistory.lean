import KalpakDb.BincodeLayout
import KalpakDb.RepairLog

namespace KalpakDb.Repair

/-!
# Histories of the repair log

The log in memory and its file go apart when a replacement fails behind its
rename: then the file has what memory has not.  It never requires less,
because everything is derived from what memory has, and everything that was
accepted is in memory.  So the file can be opened at any moment, and nothing
accepted is lost.  But an observation that changes nothing in memory does not
replace the file, and what it should have removed is there when the log is
opened again.
-/

open Std (ExtTreeMap)
open Replicas (validGeneration)

/-! ## The log and its file -/

/-- The text of a digest is a generation. -/
theorem validGeneration_hexEncode (id : BlockId) :
    validGeneration (hexEncode id.bytes) = true := by
  have digits :
      ∀ byte : UInt8,
        ([hexDigit (byte / 16), hexDigit (byte % 16)].all fun char =>
          ('0' ≤ char && char ≤ '9') || ('a' ≤ char && char ≤ 'f') ||
            ('A' ≤ char && char ≤ 'F')) = true := by
    decide +kernel
  have length : (hexEncode id.bytes).length = 64 := by
    simp [hexEncode, List.length_flatMap, id.length_bytes]
  unfold validGeneration
  rw [length, hexEncode, List.all_flatMap,
    List.all_eq_true.mpr fun byte _ => digits byte]
  rfl

section History

variable {codec : Codec} {files : Files} {stored : Requirements}

/-- Nothing that one log requires is lowered in the other. -/
def Requirements.Covers (stored held : Requirements) : Prop :=
  ∀ (id : BlockId) (wanted : Nat),
    held.Requires id wanted → stored.Requires id wanted

/-- Everything that was accepted is required. -/
def Requirements.Fulfils
    (requirements : Requirements)
    (acknowledged : List (BlockId × Nat)) : Prop :=
  ∀ entry ∈ acknowledged, requirements.Requires entry.1 entry.2

theorem Requirements.Covers.fulfils
    {stored held : Requirements}
    {acknowledged : List (BlockId × Nat)}
    (covers : stored.Covers held)
    (fulfils : held.Fulfils acknowledged) :
    stored.Fulfils acknowledged :=
  fun entry member => covers entry.1 entry.2 (fulfils entry member)

/-- What is read from the files. -/
structure Files.Holds
    (codec : Codec)
    (files : Files)
    (stored : Requirements) : Prop where
  generation :
    ∀ generation ∈ files.generation, validGeneration generation = true
  readable : readRequirements codec files = .ok stored
  sound : stored.Sound

/-- How the replacement of an event ends, if there is one. -/
def Event.fault? : Event → Option WriteFault
  | .reopen _ _ => none
  | .record _ _ fault => fault
  | .observe _ _ _ fault => fault

/--
The file keeps what was accepted, and whatever the log in memory does; it is
what the log in memory is if no replacement has failed behind its rename,
which is what `whole` says of the history.
-/
structure State.Sound
    (codec : Codec)
    (whole : Prop)
    (state : State) : Prop where
  stored :
    ∃ stored,
      state.files.Holds codec stored ∧
        stored.Fulfils state.acknowledged ∧
        ∀ log ∈ state.log, stored.Covers log.requirements
  running :
    ∀ log ∈ state.log,
      log.requirements.Sound ∧ log.requirements.Fulfils state.acknowledged
  inStep : whole → ∀ log ∈ state.log, state.files.Holds codec log.requirements

/-- Opening creates the generation, and leaves the requirements alone. -/
theorem Files.Holds.openGeneration
    (holds : files.Holds codec stored)
    (fresh : BlockId)
    (fault : Option OpenFault) :
    (Repair.openGeneration files fresh fault).2.Holds codec stored ∧
      ∀ generation,
        (Repair.openGeneration files fresh fault).1 = .ok generation →
          validGeneration generation = true := by
  have created :
      Files.Holds codec
        { files with generation := some (hexEncode fresh.bytes) }
        stored := {
    generation := by
      rintro generation ⟨⟩
      exact validGeneration_hexEncode fresh
    readable := holds.readable
    sound := holds.sound }
  unfold Repair.openGeneration
  split
  · exact ⟨holds, nofun⟩
  · split
    · rename_i generation isGeneration
      refine ⟨holds, ?_⟩
      rintro opened ⟨⟩
      exact holds.generation generation isGeneration
    · dsimp only
      split
      · exact ⟨holds, nofun⟩
      · exact ⟨created, nofun⟩
      · refine ⟨created, ?_⟩
        rintro opened ⟨⟩
        exact validGeneration_hexEncode fresh

theorem Files.Holds.openLog_eq
    (holds : files.Holds codec stored)
    {fresh : BlockId}
    {fault : Option OpenFault}
    {generation : Generation}
    (opened :
      (Repair.openGeneration files fresh fault).1 = .ok generation) :
    (Repair.openLog codec files fresh fault).1 =
      if fault = some .readRequirements then
        .error .io
      else
        .ok { generation := generation, requirements := stored } := by
  obtain ⟨kept, valid⟩ := holds.openGeneration fresh fault
  unfold Repair.openLog
  dsimp only
  rw [opened]
  split
  · rename_i unread
    simp [bind, Except.bind, valid generation opened, unread]
    rfl
  · simp [bind, Except.bind, valid generation opened, kept.readable,
      kept.sound.check]
    rfl

/-- A log that is opened has the requirements of the file. -/
theorem Files.Holds.openLog
    (holds : files.Holds codec stored)
    (fresh : BlockId)
    (fault : Option OpenFault) :
    (Repair.openLog codec files fresh fault).2.Holds codec stored ∧
      ∀ log,
        (Repair.openLog codec files fresh fault).1 = .ok log →
          log.requirements = stored := by
  refine ⟨(holds.openGeneration fresh fault).1, ?_⟩
  intro log opened
  cases isOpened : (Repair.openGeneration files fresh fault).1 with
  | error error =>
      unfold Repair.openLog at opened
      dsimp only at opened
      rw [isOpened] at opened
      cases opened
  | ok generation =>
      rw [holds.openLog_eq isOpened] at opened
      split at opened
      · cases opened
      · cases opened
        rfl

/-- Without an error the log is opened. -/
theorem Files.Holds.opens
    (holds : files.Holds codec stored)
    (fresh : BlockId) :
    ∃ log,
      (Repair.openLog codec files fresh none).1 = .ok log ∧
        log.requirements = stored := by
  have succeeds :
      ∃ generation,
        (Repair.openGeneration files fresh none).1 = .ok generation := by
    unfold Repair.openGeneration
    split
    · contradiction
    · split
      · exact ⟨_, rfl⟩
      · exact ⟨_, rfl⟩
  obtain ⟨generation, isOpened⟩ := succeeds
  exact ⟨_, (holds.openLog_eq isOpened).trans (if_neg nofun), rfl⟩

variable {log : RepairLog} {acknowledged : List (BlockId × Nat)}
  {whole : Prop}

theorem sound_start : State.Sound codec whole {} where
  stored := by
    refine ⟨_, ⟨nofun, rfl, sound_new⟩, ?_, nofun⟩
    intro entry member
    cases member
  running := nofun
  inStep := nofun

/-- A replacement leaves the old requirements or the new ones in the file. -/
theorem State.Sound.replace
    (sound : State.Sound codec whole ⟨files, some log, acknowledged⟩)
    {next : Requirements}
    (nextSound : next.Sound)
    (covers : next.Covers log.requirements)
    (fault : Option WriteFault) :
    ((whole → fault ≠ some .behind) →
      State.Sound codec whole
        ⟨(log.replace codec files next fault).2.2,
          some (log.replace codec files next fault).2.1, acknowledged⟩) ∧
      ((log.replace codec files next fault).1 = .ok () →
        (log.replace codec files next fault).2.1.requirements = next ∧
          (log.replace codec files next fault).2.2.Holds codec next) := by
  obtain ⟨stored, holds, -, -⟩ := sound.stored
  obtain ⟨-, fulfils⟩ := sound.running log rfl
  have published :
      Files.Holds codec
        { files with requirements := some (codec.encode next) }
        next := {
    generation := holds.generation
    readable := by
      unfold readRequirements
      dsimp only
      rw [codec.decode_encode]
    sound := nextSound }
  have nextFulfils := covers.fulfils fulfils
  cases fault with
  | none =>
      refine ⟨fun _ => ⟨⟨next, published, nextFulfils, ?_⟩, ?_, ?_⟩,
        fun _ => ⟨rfl, published⟩⟩
      · rintro running ⟨⟩ id wanted requires
        exact requires
      · rintro running ⟨⟩
        exact ⟨nextSound, nextFulfils⟩
      · rintro - running ⟨⟩
        exact published
  | some fault =>
      cases fault with
      | before =>
          exact ⟨fun _ => sound, nofun⟩
      | behind =>
          refine ⟨fun renamed => ⟨⟨next, published, nextFulfils, ?_⟩,
            sound.running, fun isWhole => absurd rfl (renamed isWhole)⟩,
            nofun⟩
          rintro running ⟨⟩
          exact covers

/-- What the log requires may be promised. -/
theorem State.Sound.acknowledge
    (sound : State.Sound codec whole ⟨files, some log, acknowledged⟩)
    {promised : List (BlockId × Nat)}
    (fulfils : log.requirements.Fulfils promised) :
    State.Sound codec whole
      ⟨files, some log, acknowledged ++ promised⟩ := by
  obtain ⟨stored, holds, before, covers⟩ := sound.stored
  have both
      {requirements : Requirements}
      (old : requirements.Fulfils acknowledged)
      (new : requirements.Fulfils promised) :
      requirements.Fulfils (acknowledged ++ promised) := by
    intro entry member
    rcases List.mem_append.mp member with earlier | later
    · exact old entry earlier
    · exact new entry later
  refine ⟨⟨stored, holds, both before ?_, covers⟩, ?_, sound.inStep⟩
  · exact (covers log rfl).fulfils fulfils
  · rintro running ⟨⟩
    exact ⟨(sound.running log rfl).1, both (sound.running log rfl).2 fulfils⟩

/-- The new counts of a record. -/
theorem fulfils_raise
    (requirements : Requirements)
    (ids : List BlockId)
    (replicas : Nat) :
    Requirements.Fulfils
      { requirements with blocks := raise requirements.blocks ids replicas }
      (ids.map fun id => (id, replicas)) := by
  intro entry member
  obtain ⟨id, listed, rfl⟩ := List.mem_map.mp member
  exact requires_raise ids replicas (Or.inr ⟨listed, Nat.le_refl _⟩)

theorem State.Sound.record
    (sound : State.Sound codec whole ⟨files, some log, acknowledged⟩)
    (ids : List BlockId)
    (replicas : Nat)
    {fault : Option WriteFault}
    (renamed : whole → fault ≠ some .behind) :
    State.Sound codec whole
        ⟨(log.record codec files ids replicas fault).2.2,
          some (log.record codec files ids replicas fault).2.1,
          acknowledged⟩ ∧
      ((log.record codec files ids replicas fault).1 = .ok () →
        (log.record codec files ids replicas fault).2.1.requirements.Fulfils
          (ids.map fun id => (id, replicas))) := by
  have fulfils := fulfils_raise log.requirements ids replicas
  unfold RepairLog.record
  split
  · exact ⟨sound, nofun⟩
  · rename_i inRange
    dsimp only
    split
    · rename_i unchanged
      refine ⟨sound, fun _ => ?_⟩
      rw [unchanged] at fulfils
      exact fulfils
    · split
      · exact ⟨sound, nofun⟩
      · rename_i fits
        have raised := (sound.running log rfl).1.raise
          (Decidable.not_not.mp inRange) (Nat.le_of_not_lt fits)
        obtain ⟨kept, published⟩ := sound.replace raised
          (fun id wanted requires =>
            requires_raise ids replicas (Or.inl requires)) fault
        refine ⟨kept renamed, fun succeeded => ?_⟩
        rw [(published succeeded).1]
        exact fulfils

/-- No entry of a node is of another generation. -/
def Requirements.OnlyCurrent
    (requirements : Requirements)
    (node : Nat)
    (current : Generation) : Prop :=
  ∀ (id : BlockId) (seen : Generation),
    requirements.Located id node seen → seen = current

/--
An observation that succeeds leaves the current generation of its node; the
file is the log if it was before, or if the log had an entry of another
generation.
-/
theorem State.Sound.observe
    (sound : State.Sound codec whole ⟨files, some log, acknowledged⟩)
    (ids : List BlockId)
    (node : Nat)
    (generation : Option Generation)
    (fault : Option WriteFault) :
    ((whole → fault ≠ some .behind) →
      State.Sound codec whole
        ⟨(log.observe codec files ids node generation fault).2.2,
          some (log.observe codec files ids node generation fault).2.1,
          acknowledged⟩) ∧
      ∀ current ∈ generation,
        (log.observe codec files ids node generation fault).1 = .ok () →
          (log.observe codec files ids node generation
              fault).2.1.requirements.OnlyCurrent node current ∧
            (whole ∨ ¬ log.requirements.OnlyCurrent node current →
              (log.observe codec files ids node generation
                fault).2.2.Holds codec
                (log.observe codec files ids node generation
                  fault).2.1.requirements) := by
  unfold RepairLog.observe
  split
  · exact ⟨fun _ => sound, nofun⟩
  · rename_i accepted
    have valid : ∀ current ∈ generation, validGeneration current = true := by
      rintro current ⟨⟩
      simpa using accepted
    have only :
        ∀ current ∈ generation,
          Requirements.OnlyCurrent
            { log.requirements with
              locations := observed log.requirements ids node generation }
            node current := by
      rintro current ⟨⟩ id seen located
      exact observed_current ids id node seen located rfl
    dsimp only
    split
    · rename_i unchanged
      rw [unchanged] at only
      refine ⟨fun _ => sound, fun current isCurrent _ =>
        ⟨only current isCurrent, ?_⟩⟩
      rintro (isWhole | other)
      · exact sound.inStep isWhole log rfl
      · exact absurd (only current isCurrent) other
    · obtain ⟨kept, published⟩ := sound.replace
        ((sound.running log rfl).1.observe valid ids)
        (fun id wanted requires => requires) fault
      refine ⟨kept, fun current isCurrent succeeded => ?_⟩
      obtain ⟨replaced, holds⟩ := published succeeded
      rw [replaced]
      exact ⟨only current isCurrent, fun _ => holds⟩

/-- Every event keeps the file and the log in step. -/
theorem State.Sound.step
    {state : State}
    (sound : state.Sound codec whole)
    {event : Event}
    (renamed : whole → event.fault? ≠ some .behind) :
    (state.step codec event).Sound codec whole := by
  obtain ⟨files, log, acknowledged⟩ := state
  cases event with
  | reopen fresh fault =>
      obtain ⟨stored, holds, fulfils, -⟩ := sound.stored
      obtain ⟨kept, opens⟩ := holds.openLog fresh fault
      have opened
          {running : RepairLog}
          (isRunning :
            (openLog codec files fresh fault).1.toOption = some running) :
          running.requirements = stored := by
        refine opens running ?_
        cases answer : (openLog codec files fresh fault).1 with
        | error error =>
            rw [answer] at isRunning
            cases isRunning
        | ok log =>
            rw [answer] at isRunning
            cases isRunning
            rfl
      refine ⟨⟨stored, kept, fulfils, ?_⟩, ?_, ?_⟩
      · intro running isRunning id wanted requires
        rw [opened isRunning] at requires
        exact requires
      · intro running isRunning
        rw [opened isRunning]
        exact ⟨kept.sound, fulfils⟩
      · intro _ running isRunning
        rw [opened isRunning]
        exact kept
  | record ids replicas fault =>
      cases log with
      | none =>
          exact sound
      | some log =>
          obtain ⟨kept, recorded⟩ := sound.record ids replicas renamed
          unfold State.step
          dsimp only
          split
          · rename_i succeeded
            exact kept.acknowledge (recorded succeeded)
          · exact kept
  | observe ids node generation fault =>
      cases log with
      | none =>
          exact sound
      | some log =>
          exact (sound.observe ids node generation fault).1 renamed

/-- No replacement fails behind its rename. -/
def RenamesSynced (events : List Event) : Prop :=
  ∀ event ∈ events, event.fault? ≠ some .behind

theorem sound_before
    (codec : Codec)
    (events : List Event)
    (position : Nat) :
    (StepRun.before (State.step codec) {} events position).Sound codec
      (RenamesSynced (events.take position)) := by
  refine StepRun.holds_until (State.Sound codec _) sound_start ?_
    (Nat.le_refl position)
  intro index event earlier present sound
  refine sound.step fun renamed => renamed event ?_
  exact List.mem_of_getElem? ((List.getElem?_take_of_lt earlier).trans present)

/-- What is promised of a log at every moment. -/
structure Requirements.Consistent
    (requirements : Requirements)
    (acknowledged : List (BlockId × Nat)) : Prop where
  fulfils : requirements.Fulfils acknowledged
  located :
    ∀ (id : BlockId) (nodes : ExtTreeMap Nat Generation),
      requirements.locations[id]? = some nodes →
        id ∈ requirements.blocks ∧ nodes.size ≤ 16
  uniform :
    ∀ (node : Nat) (first second : BlockId) (seen other : Generation),
      requirements.Located first node seen →
        requirements.Located second node other → seen = other

theorem Requirements.Sound.consistent
    {requirements : Requirements}
    (sound : requirements.Sound)
    (fulfils : requirements.Fulfils acknowledged) :
    requirements.Consistent acknowledged where
  fulfils := fulfils
  located := sound.located
  uniform := by
    intro node first second seen other isSeen isOther
    obtain ⟨assigned, isAssigned⟩ := sound.uniform
    rw [isAssigned first node seen isSeen,
      isAssigned second node other isOther]

/--
In every history the files can be opened, and the log in memory and the one
that would be opened are consistent.  The observation of a generation leaves
no entry of another one of its node in memory.  It leaves none in the file if
no replacement before it has failed behind its rename, or if the log in memory
had such an entry.
-/
theorem repair_log_stays_consistent
    (codec : Codec)
    (events : List Event)
    (position : Nat) :
    let state := StepRun.before (State.step codec) {} events position
    (∀ fresh,
      ∃ log,
        (openLog codec state.files fresh none).1 = .ok log ∧
          log.requirements.Consistent state.acknowledged) ∧
      ∀ log ∈ state.log,
        log.requirements.Consistent state.acknowledged ∧
          ∀ ids node current fault,
            let noted :=
              log.observe codec state.files ids node (some current) fault
            noted.1 = .ok () →
              noted.2.1.requirements.OnlyCurrent node current ∧
                (RenamesSynced (events.take position) ∨
                    ¬ log.requirements.OnlyCurrent node current →
                  ∀ fresh,
                    ∃ reopened,
                      (openLog codec noted.2.2 fresh none).1 =
                          .ok reopened ∧
                        reopened.requirements.OnlyCurrent node
                          current) := by
  intro state
  have sound : state.Sound codec (RenamesSynced (events.take position)) :=
    sound_before codec events position
  constructor
  · intro fresh
    obtain ⟨stored, holds, fulfils, -⟩ := sound.stored
    obtain ⟨log, opened, rfl⟩ := holds.opens fresh
    exact ⟨log, opened, holds.sound.consistent fulfils⟩
  · intro log running
    obtain ⟨logSound, fulfils⟩ := sound.running log running
    refine ⟨logSound.consistent fulfils, ?_⟩
    intro ids node current fault noted succeeded
    have here :
        State.Sound codec (RenamesSynced (events.take position))
          ⟨state.files, some log, state.acknowledged⟩ := by
      rw [← running]
      exact sound
    obtain ⟨only, published⟩ :=
      (here.observe ids node (some current) fault).2 current rfl succeeded
    refine ⟨only, fun replaced fresh => ?_⟩
    obtain ⟨reopened, opened, same⟩ := (published replaced).opens fresh
    refine ⟨reopened, opened, ?_⟩
    rw [same]
    exact only

end History

section Binary

open ByteCodec ByteCodec.StreamCodec BincodeLayout

def generationText : StreamCodec Generation :=
  list varint (fields varint Char.toNat Char.ofNat Char.ofNat_toNat)

def requirementFields : StreamCodec Requirements :=
  fields
    (pair varint
      (pair (map varint blockId varint)
        (map varint blockId (map varint varint generationText))))
    (fun value => (value.version, value.blocks, value.locations))
    (fun stored => ⟨stored.1, stored.2.1, stored.2.2⟩)
    (fun _ => rfl)

/-- A text of the requirements. -/
def binaryText : Codec where
  encode := requirementFields.encode
  decode bytes := (requirementFields.read bytes).map Prod.fst
  decode_encode requirements := by
    have read := requirementFields.read_encode requirements []
    rw [List.append_nil] at read
    rw [read]
    rfl

end Binary

/-- Two blocks are seen at a node whose storage is then replaced. -/
def replacedStorage : List Event :=
  [.reopen (.filled 0) none,
    .record [.filled 1, .filled 2] 2 none,
    .observe [.filled 1, .filled 2] 7 (some (List.replicate 64 'a')) none]

theorem repair_log_stays_consistent_replaced :
    let state :=
      StepRun.before (State.step binaryText) {} replacedStorage 3
    ∃ log ∈ state.log,
      let noted := log.observe binaryText state.files [.filled 1] 7
        (some (List.replicate 64 'b')) none
      log.requirements.Located (.filled 2) 7 (List.replicate 64 'a') ∧
        noted.1 = .ok () ∧
        noted.2.1.requirements.OnlyCurrent 7 (List.replicate 64 'b') ∧
        ∃ reopened,
          (openLog binaryText noted.2.2 (.filled 0) none).1 =
              .ok reopened ∧
            reopened.requirements.OnlyCurrent 7
              (List.replicate 64 'b') := by
  intro state
  have observes :
      (state.log.any fun log =>
        (log.requirements.locations[BlockId.filled 2]?.any fun nodes =>
            nodes[7]? = some (List.replicate 64 'a')) &&
          (log.observe binaryText state.files [.filled 1] 7
            (some (List.replicate 64 'b')) none).1 = .ok ()) = true := by
    decide +kernel
  cases running : state.log with
  | none =>
      rw [running] at observes
      cases observes
  | some log =>
      rw [running, Option.any_some, Bool.and_eq_true,
        decide_eq_true_iff] at observes
      obtain ⟨seen, succeeds⟩ := observes
      obtain ⟨nodes, isNodes, isSeen⟩ := (Option.any_eq_true _ _).mp seen
      obtain ⟨only, published⟩ :=
        ((repair_log_stays_consistent binaryText replacedStorage 3).2 log
          running).2 [.filled 1] 7 (List.replicate 64 'b') none succeeds
      refine ⟨log, rfl, ⟨nodes, isNodes, of_decide_eq_true isSeen⟩,
        succeeds, only, published (Or.inl ?_) (.filled 0)⟩
      simp [RenamesSynced, replacedStorage, Event.fault?]

/-- A block is seen at a node, and the replacement fails behind its rename. -/
def unsyncedRename : List Event :=
  [.reopen (.filled 0) none,
    .record [.filled 1] 2 none,
    .observe [.filled 1] 7 (some (List.replicate 64 'a')) (some .behind)]

/--
Memory has no entry of the node then, so that the observation of its next
generation succeeds without a replacement.  When the log is opened again, the
entry of the old generation is there.
-/
theorem old_generation_resurfaces :
    let state :=
      StepRun.before (State.step binaryText) {} unsyncedRename 3
    ∃ log ∈ state.log,
      let noted := log.observe binaryText state.files [] 7
        (some (List.replicate 64 'b')) none
      noted.1 = .ok () ∧
        ∃ reopened,
          (openLog binaryText noted.2.2 (.filled 0) none).1 =
              .ok reopened ∧
            reopened.requirements.Located (.filled 1) 7
              (List.replicate 64 'a') := by
  intro state
  have resurfaces :
      (state.log.any fun log =>
        let noted := log.observe binaryText state.files [] 7
          (some (List.replicate 64 'b')) none
        noted.1 = .ok () &&
          ((openLog binaryText noted.2.2 (.filled 0)
            none).1.toOption.any fun reopened =>
              reopened.requirements.locations[BlockId.filled 1]?.any
                fun nodes =>
                  nodes[7]? = some (List.replicate 64 'a'))) = true := by
    decide +kernel
  obtain ⟨log, running, both⟩ := (Option.any_eq_true _ _).mp resurfaces
  rw [Bool.and_eq_true, decide_eq_true_iff] at both
  obtain ⟨succeeds, reopens⟩ := both
  refine ⟨log, running, succeeds, ?_⟩
  cases opened : (openLog binaryText
      (log.observe binaryText state.files [] 7
        (some (List.replicate 64 'b')) none).2.2 (.filled 0) none).1 with
  | error error =>
      rw [opened] at reopens
      cases reopens
  | ok reopened =>
      rw [opened] at reopens
      obtain ⟨found, isFound, located⟩ := (Option.any_eq_true _ _).mp reopens
      cases isFound
      obtain ⟨nodes, isNodes, isSeen⟩ := (Option.any_eq_true _ _).mp located
      exact ⟨reopened, rfl, nodes, isNodes, of_decide_eq_true isSeen⟩

end KalpakDb.Repair
