import KalpakDb.FiniteMap
import KalpakDb.ReplicaAcks
import KalpakDb.StepRun

namespace KalpakDb.Repair

/-!
# The log of replica requirements

A node remembers how many replicas each block needs, and where replicas have
been seen: for each block the nodes that had it, and the storage generation of
each of them.  A node whose storage was replaced has a new generation, and
what was seen of the old one no longer counts.  The log is kept in memory and
in a file that is replaced as a whole; an error may strike before or behind
the replacement.
-/

open Std (ExtTreeMap)
open Replicas (validGeneration)

/-! ## The log -/

abbrev Generation := List Char

def maxRecords : Nat := 16384

structure Requirements where
  version : Nat
  blocks : ExtTreeMap BlockId Nat := ∅
  locations : ExtTreeMap BlockId (ExtTreeMap Nat Generation) := ∅

/-- The text of the requirements, which is read as what was written. -/
structure Codec where
  encode : Requirements → Bytes
  decode : Bytes → Option Requirements
  decode_encode :
    ∀ requirements, decode (encode requirements) = some requirements

inductive LogError where
  | io
  | malformed
  | invalidStorageGeneration
  | invalidRequirements
  | invalidReplicaCount
  | capacityExhausted
  | invalidPeerGeneration
  deriving DecidableEq

/-- The files of the log: its own generation, and the requirements. -/
structure Files where
  generation : Option Generation := none
  requirements : Option Bytes := none

structure RepairLog where
  generation : Generation
  requirements : Requirements

/-- An error in front of a replacement, or behind it. -/
inductive WriteFault where
  | before
  | behind
  deriving DecidableEq

inductive OpenFault where
  | readGeneration
  | writeGeneration (fault : WriteFault)
  | readRequirements
  deriving DecidableEq

/-! ## Opening -/

/-- What is checked of requirements that are read. -/
def Requirements.check (requirements : Requirements) : Bool :=
  requirements.version = 1 &&
    requirements.blocks.size ≤ maxRecords &&
    (requirements.blocks.toList.all fun entry =>
      1 ≤ entry.2 && entry.2 ≤ 16) &&
    requirements.locations.toList.all fun entry =>
      requirements.blocks.contains entry.1 &&
        entry.2.size ≤ 16 &&
        entry.2.toList.all fun location => validGeneration location.2

/-- The generation of the storage; a new one is the text of a digest. -/
def openGeneration
    (files : Files)
    (fresh : BlockId)
    (fault : Option OpenFault) : Except LogError Generation × Files :=
  if fault = some .readGeneration then
    (.error .io, files)
  else
    match files.generation with
    | some generation => (.ok generation, files)
    | none =>
        let created := { files with
          generation := some (hexEncode fresh.bytes) }
        match fault with
        | some (.writeGeneration .before) => (.error .io, files)
        | some (.writeGeneration .behind) => (.error .io, created)
        | _ => (.ok (hexEncode fresh.bytes), created)

section Codec

variable (codec : Codec)

def readRequirements (files : Files) : Except LogError Requirements :=
  match files.requirements with
  | none => .ok { version := 1 }
  | some bytes =>
      match codec.decode bytes with
      | none => .error .malformed
      | some requirements => .ok requirements

/-- `RepairLog::open`. -/
def openLog
    (files : Files)
    (fresh : BlockId)
    (fault : Option OpenFault) : Except LogError RepairLog × Files :=
  let opened := openGeneration files fresh fault
  (do
    let generation ← opened.1
    if !validGeneration generation then
      throw .invalidStorageGeneration
    if fault = some .readRequirements then
      throw .io
    let requirements ← readRequirements codec opened.2
    if requirements.check then
      pure { generation := generation, requirements := requirements }
    else
      throw .invalidRequirements, opened.2)

/-! ## Recording and observing -/

/-- Replace the file. -/
def publish
    (files : Files)
    (next : Requirements)
    (fault : Option WriteFault) : Except LogError Unit × Files :=
  let published := { files with requirements := some (codec.encode next) }
  match fault with
  | some .before => (.error .io, files)
  | some .behind => (.error .io, published)
  | none => (.ok (), published)

/-- Publish requirements, and then keep them. -/
def RepairLog.replace
    (log : RepairLog)
    (files : Files)
    (next : Requirements)
    (fault : Option WriteFault) :
    Except LogError Unit × RepairLog × Files :=
  match publish codec files next fault with
  | (.ok (), files) => (.ok (), { log with requirements := next }, files)
  | (.error error, files) => (.error error, log, files)

/-- Retries cannot lower what is wanted. -/
def raise
    (blocks : ExtTreeMap BlockId Nat)
    (ids : List BlockId)
    (replicas : Nat) : ExtTreeMap BlockId Nat :=
  ids.foldl
    (fun next id => next.insert id (max (next[id]?.getD replicas) replicas))
    blocks

def RepairLog.record
    (log : RepairLog)
    (files : Files)
    (ids : List BlockId)
    (replicas : Nat)
    (fault : Option WriteFault) :
    Except LogError Unit × RepairLog × Files :=
  if ¬ (1 ≤ replicas ∧ replicas ≤ 16) then
    (.error .invalidReplicaCount, log, files)
  else
    let next := { log.requirements with
      blocks := raise log.requirements.blocks ids replicas }
    if next.blocks = log.requirements.blocks then
      (.ok (), log, files)
    else if next.blocks.size > maxRecords then
      (.error .capacityExhausted, log, files)
    else
      log.replace codec files next fault

/-- A changed incarnation invalidates what was seen of the old one. -/
def invalidate
    (node : Nat)
    (generation : Option Generation)
    (nodes : ExtTreeMap Nat Generation) : ExtTreeMap Nat Generation :=
  match generation with
  | none => nodes
  | some generation =>
      if nodes[node]?.any (· ≠ generation) then
        nodes.erase node
      else
        nodes

def popFirst (nodes : ExtTreeMap Nat Generation) :
    ExtTreeMap Nat Generation :=
  match nodes.minKey? with
  | none => nodes
  | some first => nodes.erase first

/-- Where a block was seen, or was not. -/
def place
    (node : Nat)
    (generation : Option Generation)
    (nodes : ExtTreeMap Nat Generation) : ExtTreeMap Nat Generation :=
  match generation with
  | none => nodes.erase node
  | some generation =>
      (if !nodes.contains node && nodes.size ≥ 16 then
        popFirst nodes
      else
        nodes).insert node generation

/-- The locations behind an observation of some blocks. -/
def observed
    (requirements : Requirements)
    (ids : List BlockId)
    (node : Nat)
    (generation : Option Generation) :
    ExtTreeMap BlockId (ExtTreeMap Nat Generation) :=
  ids.foldl
    (fun locations id =>
      if requirements.blocks.contains id then
        locations.insert id
          (place node generation (locations[id]?.getD ∅))
      else
        locations)
    (requirements.locations.map fun _ nodes =>
      invalidate node generation nodes)

def RepairLog.observe
    (log : RepairLog)
    (files : Files)
    (ids : List BlockId)
    (node : Nat)
    (generation : Option Generation)
    (fault : Option WriteFault) :
    Except LogError Unit × RepairLog × Files :=
  if generation.any fun generation => !validGeneration generation then
    (.error .invalidPeerGeneration, log, files)
  else
    let next := { log.requirements with
      locations := observed log.requirements ids node generation }
    if next.locations = log.requirements.locations then
      (.ok (), log, files)
    else
      log.replace codec files next fault

/-! ## Histories -/

/-- The files, the log if it is open, and the counts that were accepted. -/
structure State where
  files : Files := {}
  log : Option RepairLog := none
  acknowledged : List (BlockId × Nat) := []

inductive Event where
  | reopen (fresh : BlockId) (fault : Option OpenFault)
  | record
      (ids : List BlockId)
      (replicas : Nat)
      (fault : Option WriteFault)
  | observe
      (ids : List BlockId)
      (node : Nat)
      (generation : Option Generation)
      (fault : Option WriteFault)

def State.step (state : State) : Event → State
  | .reopen fresh fault =>
      let opened := openLog codec state.files fresh fault
      { state with files := opened.2, log := opened.1.toOption }
  | .record ids replicas fault =>
      match state.log with
      | none => state
      | some log =>
          let recorded := log.record codec state.files ids replicas fault
          { files := recorded.2.2
            log := some recorded.2.1
            acknowledged :=
              if recorded.1 = .ok () then
                state.acknowledged ++ ids.map fun id => (id, replicas)
              else
                state.acknowledged }
  | .observe ids node generation fault =>
      match state.log with
      | none => state
      | some log =>
          let noted :=
            log.observe codec state.files ids node generation fault
          { state with files := noted.2.2, log := some noted.2.1 }

end Codec

/-! ## Requirements -/

/-- A block needs so many replicas, or more. -/
def Requirements.Requires
    (requirements : Requirements)
    (id : BlockId)
    (replicas : Nat) : Prop :=
  ∃ wanted, requirements.blocks[id]? = some wanted ∧ replicas ≤ wanted

/-- A node was seen with a block, in some generation. -/
def Requirements.Located
    (requirements : Requirements)
    (id : BlockId)
    (node : Nat)
    (generation : Generation) : Prop :=
  ∃ nodes,
    requirements.locations[id]? = some nodes ∧
      nodes[node]? = some generation

/-- Blocks and locations within the limits, one generation for each node. -/
structure Requirements.Sound (requirements : Requirements) : Prop where
  version : requirements.version = 1
  size : requirements.blocks.size ≤ maxRecords
  counts :
    ∀ (id : BlockId) (wanted : Nat),
      requirements.blocks[id]? = some wanted → 1 ≤ wanted ∧ wanted ≤ 16
  located :
    ∀ (id : BlockId) (nodes : ExtTreeMap Nat Generation),
      requirements.locations[id]? = some nodes →
        id ∈ requirements.blocks ∧ nodes.size ≤ 16
  valid :
    ∀ (id : BlockId) (node : Nat) (generation : Generation),
      requirements.Located id node generation →
        validGeneration generation = true
  uniform :
    ∃ assigned : Nat → Generation,
      ∀ (id : BlockId) (node : Nat) (generation : Generation),
        requirements.Located id node generation →
          generation = assigned node

theorem sound_new : Requirements.Sound { version := 1 } where
  version := rfl
  size := by simp [maxRecords]
  counts := by simp
  located := by simp
  valid := by simp [Requirements.Located]
  uniform := ⟨fun _ => [], by simp [Requirements.Located]⟩

theorem Requirements.Sound.check
    {requirements : Requirements}
    (sound : requirements.Sound) :
    requirements.check = true := by
  have counts : (requirements.blocks.toList.all fun entry =>
      1 ≤ entry.2 && entry.2 ≤ 16) = true := by
    rw [List.all_eq_true]
    intro entry member
    have inRange := sound.counts entry.1 entry.2
      (FiniteMap.mem_toList.mp member)
    simp [inRange]
  have locations : (requirements.locations.toList.all fun entry =>
      requirements.blocks.contains entry.1 && entry.2.size ≤ 16 &&
        entry.2.toList.all fun location => validGeneration location.2) =
      true := by
    rw [List.all_eq_true]
    intro entry member
    have listed := FiniteMap.mem_toList.mp member
    obtain ⟨recorded, few⟩ := sound.located entry.1 entry.2 listed
    have valid : (entry.2.toList.all fun location =>
        validGeneration location.2) = true := by
      rw [List.all_eq_true]
      intro location isLocation
      exact sound.valid entry.1 location.1 location.2
        ⟨entry.2, listed, FiniteMap.mem_toList.mp isLocation⟩
    simp [ExtTreeMap.mem_iff_contains.mp recorded, few, valid]
  unfold Requirements.check
  rw [counts, locations]
  simp [sound.version, sound.size]

/-! ## Recording -/

/-- The counts behind a record. -/
theorem getElem?_raise
    (blocks : ExtTreeMap BlockId Nat)
    (ids : List BlockId)
    (replicas : Nat)
    (id : BlockId) :
    (raise blocks ids replicas)[id]? =
      if id ∈ ids then
        some (max (blocks[id]?.getD replicas) replicas)
      else
        blocks[id]? := by
  induction ids generalizing blocks with
  | nil =>
      rfl
  | cons first rest inductionHypothesis =>
      rw [raise, List.foldl_cons]
      refine (inductionHypothesis _).trans ?_
      rw [ExtTreeMap.getElem?_insert]
      by_cases isFirst : first = id
      · subst isFirst
        simp
      · have different : compare first id ≠ .eq :=
          fun equal => isFirst (Std.LawfulEqOrd.eq_of_compare equal)
        rw [if_neg different]
        simp [Ne.symm isFirst]

/-- Recording lowers nothing and records its blocks. -/
theorem requires_raise
    {requirements : Requirements}
    (ids : List BlockId)
    (replicas : Nat)
    {id : BlockId}
    {wanted : Nat}
    (cause :
      requirements.Requires id wanted ∨ id ∈ ids ∧ wanted ≤ replicas) :
    Requirements.Requires
      { requirements with blocks := raise requirements.blocks ids replicas }
      id wanted := by
  unfold Requirements.Requires
  dsimp only
  rw [getElem?_raise]
  split
  · rename_i listed
    refine ⟨_, rfl, ?_⟩
    rcases cause with ⟨before, present, enough⟩ | ⟨-, enough⟩
    · rw [present]
      exact enough.trans (Nat.le_max_left _ _)
    · exact enough.trans (Nat.le_max_right _ _)
  · rename_i unlisted
    rcases cause with before | ⟨listed, -⟩
    · exact before
    · exact absurd listed unlisted

theorem Requirements.Sound.raise
    {requirements : Requirements}
    (sound : requirements.Sound)
    {ids : List BlockId}
    {replicas : Nat}
    (inRange : 1 ≤ replicas ∧ replicas ≤ 16)
    (fits : (raise requirements.blocks ids replicas).size ≤ maxRecords) :
    Requirements.Sound
      { requirements with
        blocks := Repair.raise requirements.blocks ids replicas } where
  version := sound.version
  size := fits
  counts := by
    intro id wanted present
    dsimp only at present
    rw [getElem?_raise] at present
    split at present
    · cases before : requirements.blocks[id]? with
      | none =>
          rw [before] at present
          cases present
          simpa using inRange
      | some earlier =>
          rw [before] at present
          cases present
          have range := sound.counts id earlier before
          dsimp only [Option.getD_some]
          omega
    · exact sound.counts id wanted present
  located := by
    intro id nodes present
    obtain ⟨recorded, few⟩ := sound.located id nodes present
    refine ⟨?_, few⟩
    obtain ⟨wanted, isWanted⟩ :=
      Option.isSome_iff_exists.mp (ExtTreeMap.mem_iff_isSome_getElem?.mp recorded)
    obtain ⟨raised, isRaised, -⟩ := requires_raise ids replicas
      (Or.inl ⟨wanted, isWanted, Nat.le_refl _⟩)
    exact ExtTreeMap.mem_iff_isSome_getElem?.mpr
      (Option.isSome_iff_exists.mpr ⟨raised, isRaised⟩)
  valid := sound.valid
  uniform := sound.uniform

/-! ## Observing -/

section Observing

variable {nodes : ExtTreeMap Nat Generation} {node other : Nat}
  {generation seen : Generation}

/-- Entries of a node in another generation are gone. -/
theorem getElem?_invalidate
    (present :
      (invalidate node (some generation) nodes)[other]? = some seen) :
    nodes[other]? = some seen ∧ (other = node → seen = generation) := by
  unfold invalidate at present
  dsimp only at present
  split at present
  · rw [ExtTreeMap.getElem?_erase] at present
    split at present
    · cases present
    · rename_i different
      refine ⟨present, ?_⟩
      rintro rfl
      exact absurd (Std.ReflCmp.compare_self) different
  · rename_i same
    refine ⟨present, ?_⟩
    rintro rfl
    rw [present] at same
    simpa using same

theorem size_invalidate_le (generation : Option Generation) :
    (invalidate node generation nodes).size ≤ nodes.size := by
  cases generation with
  | none =>
      exact Nat.le_refl _
  | some generation =>
      unfold invalidate
      dsimp only
      split
      · exact ExtTreeMap.size_erase_le
      · exact Nat.le_refl _

theorem getElem?_popFirst
    (present : (popFirst nodes)[other]? = some seen) :
    nodes[other]? = some seen := by
  unfold popFirst at present
  split at present
  · exact present
  · rw [ExtTreeMap.getElem?_erase] at present
    split at present
    · cases present
    · exact present

/-- One of the nodes makes room. -/
theorem size_popFirst_le (nodes : ExtTreeMap Nat Generation) :
    (popFirst nodes).size ≤ nodes.size - 1 := by
  unfold popFirst
  split
  · rename_i nothing
    rw [ExtTreeMap.minKey?_eq_none_iff.mp nothing]
    simp
  · rename_i first isFirst
    have present :=
      (ExtTreeMap.minKey?_eq_some_iff_mem_and_forall.mp isFirst).1
    rw [ExtTreeMap.size_erase,
      if_pos (ExtTreeMap.mem_iff_contains.mp present)]

theorem size_place_le
    (node : Nat)
    (generation : Option Generation)
    (few : nodes.size ≤ 16) :
    (place node generation nodes).size ≤ 16 := by
  unfold place
  cases generation with
  | none =>
      exact ExtTreeMap.size_erase_le.trans few
  | some generation =>
      dsimp only
      split
      · have popped := size_popFirst_le nodes
        have inserted := ExtTreeMap.size_insert_le
          (t := popFirst nodes) (k := node) (v := generation)
        omega
      · rename_i room
        rw [ExtTreeMap.size_insert]
        split
        · exact few
        · rename_i absent
          have unlisted : nodes.contains node = false :=
            Bool.eq_false_iff.mpr absent
          simp only [unlisted, Bool.not_false, Bool.true_and,
            decide_eq_true_eq] at room
          omega

/-- An entry behind an observation is the new one, or was there. -/
theorem getElem?_place
    {placed : Option Generation}
    (present : (place node placed nodes)[other]? = some seen) :
    other = node ∧ placed = some seen ∨ nodes[other]? = some seen := by
  unfold place at present
  cases placed with
  | none =>
      dsimp only at present
      rw [ExtTreeMap.getElem?_erase] at present
      split at present
      · cases present
      · exact Or.inr present
  | some generation =>
      dsimp only at present
      rw [ExtTreeMap.getElem?_insert] at present
      split at present
      · rename_i isNode
        have same : node = other := Std.LawfulEqOrd.eq_of_compare isNode
        exact Or.inl ⟨same.symm, present⟩
      · split at present
        · exact Or.inr (getElem?_popFirst present)
        · exact Or.inr present

end Observing

section Observed

variable {requirements : Requirements} {node : Nat}
  {generation : Option Generation}

/-- What the loop over the blocks keeps. -/
theorem observed_invariant
    (good : ExtTreeMap BlockId (ExtTreeMap Nat Generation) → Prop)
    (initially :
      good (requirements.locations.map fun _ nodes =>
        invalidate node generation nodes))
    (kept :
      ∀ (locations : ExtTreeMap BlockId (ExtTreeMap Nat Generation))
        (id : BlockId),
        good locations →
        id ∈ requirements.blocks →
        good (locations.insert id
          (place node generation (locations[id]?.getD ∅))))
    (ids : List BlockId) :
    good (observed requirements ids node generation) := by
  unfold observed
  generalize requirements.locations.map _ = locations at initially ⊢
  induction ids generalizing locations with
  | nil =>
      exact initially
  | cons id rest inductionHypothesis =>
      rw [List.foldl_cons]
      refine inductionHypothesis _ ?_
      split
      · rename_i recorded
        exact kept locations id initially
          (ExtTreeMap.mem_iff_contains.mpr recorded)
      · exact initially

/-- What holds of an entry that is kept, and of the new one, holds of all. -/
theorem observed_entries
    {fits : Nat → Generation → Prop}
    (old :
      ∀ (id : BlockId) (other : Nat) (seen : Generation),
        requirements.Located id other seen →
        (∀ current ∈ generation, other = node → seen = current) →
        fits other seen)
    (new : ∀ current ∈ generation, fits node current)
    (ids : List BlockId) :
    ∀ (id : BlockId) (other : Nat) (seen : Generation),
      Requirements.Located
        { requirements with
          locations := observed requirements ids node generation }
        id other seen →
      fits other seen := by
  suffices all : ∀ (id : BlockId) (nodes : ExtTreeMap Nat Generation),
      (observed requirements ids node generation)[id]? = some nodes →
      ∀ (other : Nat) (seen : Generation),
        nodes[other]? = some seen → fits other seen by
    rintro id other seen ⟨nodes, present, isSeen⟩
    exact all id nodes present other seen isSeen
  refine observed_invariant (fun locations =>
    ∀ (id : BlockId) (nodes : ExtTreeMap Nat Generation),
      locations[id]? = some nodes →
      ∀ (other : Nat) (seen : Generation),
        nodes[other]? = some seen → fits other seen) ?_ ?_ ids
  · intro id nodes present other seen isSeen
    rw [ExtTreeMap.getElem?_map] at present
    obtain ⟨before, isBefore, rfl⟩ := Option.map_eq_some_iff.mp present
    cases generation with
    | none =>
        exact old id other seen ⟨before, isBefore, isSeen⟩ nofun
    | some current =>
        obtain ⟨wasSeen, same⟩ := getElem?_invalidate isSeen
        refine old id other seen ⟨before, isBefore, wasSeen⟩ ?_
        intro other' isCurrent
        exact Option.some.inj isCurrent ▸ same
  · intro locations first all recorded id nodes present other seen isSeen
    rw [ExtTreeMap.getElem?_insert] at present
    split at present
    · cases present
      rcases getElem?_place isSeen with ⟨rfl, isNew⟩ | before
      · exact new seen isNew
      · cases isNodes : locations[first]? with
        | none =>
            rw [isNodes] at before
            simp at before
        | some earlier =>
            rw [isNodes] at before
            exact all first earlier isNodes other seen before
    · exact all id nodes present other seen isSeen

theorem observed_located
    (sound : requirements.Sound)
    (ids : List BlockId) :
    ∀ (id : BlockId) (nodes : ExtTreeMap Nat Generation),
      (observed requirements ids node generation)[id]? = some nodes →
      id ∈ requirements.blocks ∧ nodes.size ≤ 16 := by
  refine observed_invariant (fun locations =>
    ∀ (id : BlockId) (nodes : ExtTreeMap Nat Generation),
      locations[id]? = some nodes →
      id ∈ requirements.blocks ∧ nodes.size ≤ 16) ?_ ?_ ids
  · intro id nodes present
    rw [ExtTreeMap.getElem?_map] at present
    obtain ⟨before, isBefore, rfl⟩ := Option.map_eq_some_iff.mp present
    obtain ⟨recorded, few⟩ := sound.located id before isBefore
    exact ⟨recorded, (size_invalidate_le generation).trans few⟩
  · intro locations first all recorded id nodes present
    rw [ExtTreeMap.getElem?_insert] at present
    split at present
    · rename_i isFirst
      cases present
      rw [← Std.LawfulEqOrd.eq_of_compare isFirst]
      refine ⟨recorded, size_place_le node generation ?_⟩
      cases isNodes : locations[first]? with
      | none =>
          simp
      | some earlier =>
          exact (all first earlier isNodes).2
    · exact all id nodes present

/-- An observation of a valid generation keeps the log sound. -/
theorem Requirements.Sound.observe
    (sound : requirements.Sound)
    (valid : ∀ current ∈ generation, validGeneration current = true)
    (ids : List BlockId) :
    Requirements.Sound
      { requirements with
        locations := observed requirements ids node generation } where
  version := sound.version
  size := sound.size
  counts := sound.counts
  located := observed_located sound ids
  valid := observed_entries
    (fun id other seen located _ => sound.valid id other seen located)
    valid ids
  uniform := by
    obtain ⟨assigned, isAssigned⟩ := sound.uniform
    refine ⟨fun other =>
      if other = node then generation.getD (assigned node)
      else assigned other, ?_⟩
    refine observed_entries ?_ ?_ ids
    · intro id other seen located current
      have before := isAssigned id other seen located
      dsimp only
      split
      · rename_i isNode
        cases isGeneration : generation with
        | none =>
            rw [before, isNode]
            rfl
        | some latest =>
            exact current latest isGeneration isNode
      · exact before
    · intro current isCurrent
      dsimp only
      rw [if_pos rfl, isCurrent]
      rfl

/-- An observation leaves no entry of another generation of its node. -/
theorem observed_current
    {current : Generation}
    (ids : List BlockId) :
    ∀ (id : BlockId) (other : Nat) (seen : Generation),
      Requirements.Located
        { requirements with
          locations := observed requirements ids node (some current) }
        id other seen →
      other = node →
      seen = current := by
  refine observed_entries ?_ ?_ ids
  · intro id other seen located same isNode
    exact same current rfl isNode
  · intro latest isLatest _
    exact (Option.some.inj isLatest).symm

end Observed

end KalpakDb.Repair
