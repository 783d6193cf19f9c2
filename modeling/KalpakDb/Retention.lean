import KalpakDb.ByteCodec
import KalpakDb.Identifiers
import KalpakDb.StepRun

namespace KalpakDb.Retention

/-!
# Upload retention

Before a block is written, its identifier is recorded in a journal of upload
guards that never expire.  Each record has the next sequence number, which
becomes the generation of the identifiers it names.  While a write goes on a
guard keeps release checks out, and a release check keeps writers out.
-/

open Std (ExtTreeMap ExtTreeSet)
open ByteCodec (leBytes leValue)

def headerLen : Nat := 56
def maxBatch : Nat := 4096
def maxIds : Nat := 1048576
def maxBytes : Nat := 128 * 1024 * 1024

/-- `KLPKUL01`, the format of earlier journals. -/
def legacyMagic : Bytes := [75, 76, 80, 75, 85, 76, 48, 49]

/-- `KLPKUL02` -/
def recordMagic : Bytes := [75, 76, 80, 75, 85, 76, 48, 50]

inductive Error where
  | journalTooLong
  | corruptHeader
  | invalidRecord
  | corruptPayload
  | tooManyIds
  | batchTooLarge
  | needsRestart
  | reserved
  | sequenceExhausted
  | capacityExhausted
  | journalFailed
  | staleGeneration
  | activeOperation
  | io
  deriving DecidableEq

structure State where
  ids : ExtTreeMap BlockId Nat := ∅
  sequence : Nat := 0
  bytes : Nat := 0
  failed : Bool := false
  active : ExtTreeMap BlockId Nat := ∅
  releaseChecks : ExtTreeSet BlockId := ∅

/-! ## The journal -/

section Journal

variable (blake3 : Bytes → BlockId)

/-- The part of a header that its digest covers. -/
def recordHead (count next : Nat) : Bytes :=
  recordMagic ++ (leBytes 4 count ++ ([0, 0, 0, 0] ++ leBytes 8 next))

def idBytes (ids : List BlockId) : Bytes := ids.flatMap BlockId.bytes

def encodeRecord (next : Nat) (ids : List BlockId) : Bytes :=
  (recordHead ids.length next ++
      (blake3 (recordHead ids.length next)).bytes) ++
    (idBytes ids ++ (blake3 (idBytes ids)).bytes)

/-- Whether the fixed parts and the digest of a header are right. -/
def headerIntact (header : Bytes) : Bool :=
  (header.take 8 = legacyMagic ∨ header.take 8 = recordMagic) ∧
    (header.drop 12).take 4 = [0, 0, 0, 0] ∧
    (blake3 (header.take 24)).bytes = header.drop 24

/-- The identifiers in consecutive chunks of 32 bytes. -/
def readIds : Nat → Bytes → List BlockId
  | 0, _ => []
  | count + 1, bytes =>
      match BlockId.ofBytes? (bytes.take 32) with
      | none => []
      | some id => id :: readIds count (bytes.drop 32)

/-- Replay the records of a journal; a record takes more than one byte. -/
def replay : Nat → Bytes → State → Except Error State
  | 0, _, state => .ok state
  | fuel + 1, rest, state =>
      if rest.length < headerLen then
        .ok state
      else
        let header := rest.take headerLen
        if headerIntact blake3 header then
          let count := leValue ((header.drop 8).take 4)
          let next := leValue ((header.drop 16).take 8)
          if (1 ≤ count ∧ count ≤ maxBatch) ∧
              state.sequence + 1 < 2 ^ 64 ∧ state.sequence + 1 = next then
            let bodyLen := count * 32 + 32
            let body := (rest.drop headerLen).take bodyLen
            if (rest.drop headerLen).length < bodyLen then
              .ok state
            else if (blake3 (body.take (count * 32))).bytes =
                body.drop (count * 32) then
              let ids :=
                FiniteMap.insertAll state.ids (readIds count body) next
              if maxIds < ids.size then
                .error .tooManyIds
              else
                replay fuel (rest.drop (headerLen + bodyLen))
                  { state with
                    ids := ids
                    sequence := next
                    bytes := state.bytes + (headerLen + bodyLen) }
            else
              .error .corruptPayload
          else
            .error .invalidRecord
        else
          .error .corruptHeader

/-- `Retention::open`: the state, and what is left of the journal. -/
def openJournal (file : Bytes) : Except Error (State × Bytes) :=
  if maxBytes < file.length then
    .error .journalTooLong
  else
    match replay blake3 (file.length + 1) file {} with
    | .error error => .error error
    | .ok state => .ok (state, file.take state.bytes)

end Journal

/-! ## Writers and release checks -/

/-- The order in which a hash set happens to enumerate its elements. -/
structure SetOrder where
  arrange : List BlockId → List BlockId
  arrange_perm : ∀ ids, (arrange ids).Perm ids

/-- How appending a record ends; a failure leaves some bytes of it. -/
inductive JournalWrite where
  | succeeds
  | fails (written : Nat)
  deriving DecidableEq

/-- The identifiers of a batch, without duplicates. -/
def requested (order : SetOrder) (ids : List BlockId) : List BlockId :=
  order.arrange ids.dedup

/-- The bytes of a record that names so many identifiers. -/
def recordSize (count : Nat) : Nat := headerLen + count * 32 + 32

/-- The checks of `Retention::protect` before it writes. -/
def admission (order : SetOrder) (state : State) (ids : List BlockId) :
    Except Error (List BlockId) :=
  if maxBatch < ids.length then
    .error .batchTooLarge
  else if state.failed then
    .error .needsRestart
  else
    let requested := requested order ids
    if requested.any state.releaseChecks.contains then
      .error .reserved
    else if requested.isEmpty then
      .ok []
    else
      let fresh :=
        (requested.filter fun id => !state.ids.contains id).length
      if 2 ^ 64 ≤ state.sequence + 1 then
        .error .sequenceExhausted
      else if maxIds < state.ids.size + fresh ∨
          maxBytes < state.bytes + recordSize requested.length then
        .error .capacityExhausted
      else
        .ok requested

/-- Count one more writer for each identifier. -/
def enter (active : ExtTreeMap BlockId Nat) (ids : List BlockId) :
    ExtTreeMap BlockId Nat :=
  ids.foldl (fun active id => active.insert id (active[id]?.getD 0 + 1)) active

/-- The state after the record of an admitted batch is durable. -/
def State.commit (state : State) (requested : List BlockId) : State :=
  { state with
    sequence := state.sequence + 1
    bytes := state.bytes + recordSize requested.length
    ids := FiniteMap.insertAll state.ids requested (state.sequence + 1)
    active := enter state.active requested }

/-- `Retention::protect`: the guard, the state and the journal. -/
def protect
    (blake3 : Bytes → BlockId)
    (order : SetOrder)
    (write : JournalWrite)
    (state : State)
    (file : Bytes)
    (ids : List BlockId) : Except Error (List BlockId) × State × Bytes :=
  match admission order state ids with
  | .error error => (.error error, state, file)
  | .ok [] => (.ok [], state, file)
  | .ok (id :: rest) =>
      let record := encodeRecord blake3 (state.sequence + 1) (id :: rest)
      match write with
      | .succeeds =>
          (.ok (id :: rest), state.commit (id :: rest), file ++ record)
      | .fails written =>
          (.error .io, { state with failed := true },
            file ++ record.take written)

/-- Count one writer less; without one the drop panics. -/
def leave : ExtTreeMap BlockId Nat → List BlockId →
    Option (ExtTreeMap BlockId Nat)
  | active, [] => some active
  | active, id :: rest =>
      match active[id]? with
      | some (count + 1) =>
          leave
            (if count = 0 then active.erase id else active.insert id count)
            rest
      | _ => none

def tryReleaseCheck (state : State) (id : BlockId) (expected : Nat) :
    Except Error State :=
  if state.failed then
    .error .journalFailed
  else if expected = 0 ∨ state.ids[id]? ≠ some expected then
    .error .staleGeneration
  else if state.active.contains id || state.releaseChecks.contains id then
    .error .activeOperation
  else
    .ok { state with releaseChecks := state.releaseChecks.insert id }

/-! ## A process and its guards -/

/-- An open journal with the guards and checks that callers hold. -/
structure Process where
  state : State
  guards : List (List BlockId) := []
  checks : List (BlockId × Nat) := []

inductive Call where
  | protect (ids : List BlockId) (order : SetOrder) (write : JournalWrite)
  | tryReleaseCheck (id : BlockId) (generation : Nat)
  | dropGuard (position : Nat)
  | dropCheck (position : Nat)

/-- The process and its journal after a call; `none` if the call panics. -/
def Process.call
    (blake3 : Bytes → BlockId)
    (process : Process)
    (file : Bytes) : Call → Option (Process × Bytes)
  | .protect ids order write =>
      match protect blake3 order write process.state file ids with
      | (.ok guard, state, file) =>
          some ({ process with
            state := state
            guards := process.guards ++ [guard] }, file)
      | (.error _, state, file) => some ({ process with state := state }, file)
  | .tryReleaseCheck id generation =>
      match tryReleaseCheck process.state id generation with
      | .ok state =>
          some ({ process with
            state := state
            checks := process.checks ++ [(id, generation)] }, file)
      | .error _ => some (process, file)
  | .dropGuard position =>
      match process.guards[position]? with
      | none => some (process, file)
      | some guard =>
          match leave process.state.active guard with
          | none => none
          | some active =>
              some ({ process with
                state := { process.state with active := active }
                guards := process.guards.eraseIdx position }, file)
  | .dropCheck position =>
      match process.checks[position]? with
      | none => some (process, file)
      | some check =>
          some ({ process with
            state := { process.state with
              releaseChecks := process.state.releaseChecks.erase check.1 }
            checks := process.checks.eraseIdx position }, file)

/-! ## Counting writers -/

section Counting

variable {active : ExtTreeMap BlockId Nat} {count : BlockId → Nat}
  {ids : List BlockId} {id : BlockId}

/-- A map of counts; what counts zero is absent. -/
def Counts (active : ExtTreeMap BlockId Nat) (count : BlockId → Nat) : Prop :=
  ∀ id, active[id]? = if count id = 0 then none else some (count id)

theorem Counts.insert
    (counts : Counts active count)
    (id : BlockId)
    (value : Nat) :
    Counts
      (if value = 0 then active.erase id else active.insert id value)
      (Function.update count id value) := by
  intro other
  by_cases same : id = other
  · subst same
    split
    · simp_all
    · simp_all
  · have different : compare id other ≠ .eq := fun equal =>
      same (Std.LawfulEqOrd.eq_of_compare equal)
    rw [Function.update_of_ne (Ne.symm same), ← counts other]
    split
    · rw [ExtTreeMap.getElem?_erase, if_neg different]
    · rw [ExtTreeMap.getElem?_insert, if_neg different]

theorem Counts.getD
    (counts : Counts active count)
    (id : BlockId) :
    active[id]?.getD 0 = count id := by
  rw [counts id]
  split
  · rename_i zero
    exact zero.symm
  · rfl

/-- Entering counts one more writer for each identifier. -/
theorem Counts.enter
    (counts : Counts active count)
    (distinct : ids.Nodup) :
    Counts (enter active ids)
      (fun id => count id + if id ∈ ids then 1 else 0) := by
  induction ids generalizing active count with
  | nil =>
      simpa [Retention.enter] using counts
  | cons first rest inductionHypothesis =>
      obtain ⟨fresh, restDistinct⟩ := List.nodup_cons.mp distinct
      have added := counts.insert first (active[first]?.getD 0 + 1)
      rw [if_neg (Nat.succ_ne_zero _)] at added
      have entered := inductionHypothesis added restDistinct
      intro id
      have value := entered id
      rw [show Retention.enter active (first :: rest) = Retention.enter
        (active.insert first (active[first]?.getD 0 + 1)) rest from rfl, value]
      by_cases same : id = first
      · subst same
        simp [fresh, counts.getD]
      · simp [same]

/-- Leaving finds every writer, and counts one less. -/
theorem Counts.leave
    (counts : Counts active count)
    (distinct : ids.Nodup)
    (entered : ∀ id ∈ ids, 0 < count id) :
    ∃ after,
      leave active ids = some after ∧
        Counts after (fun id => count id - if id ∈ ids then 1 else 0) := by
  induction ids generalizing active count with
  | nil =>
      exact ⟨active, rfl, by simpa using counts⟩
  | cons first rest inductionHypothesis =>
      obtain ⟨fresh, restDistinct⟩ := List.nodup_cons.mp distinct
      obtain ⟨less, positive⟩ := Nat.exists_eq_succ_of_ne_zero
        (Nat.pos_iff_ne_zero.mp (entered first (List.mem_cons_self ..)))
      have found : active[first]? = some (less + 1) := by
        rw [counts first, positive, if_neg (Nat.succ_ne_zero _)]
      obtain ⟨after, left, counted⟩ :=
        inductionHypothesis (counts.insert first less) restDistinct (by
          intro id member
          have different : id ≠ first := fun same => fresh (same ▸ member)
          rw [Function.update_of_ne different]
          exact entered id (List.mem_cons_of_mem _ member))
      refine ⟨after, ?_, ?_⟩
      · rw [Retention.leave, found]
        exact left
      · intro id
        rw [counted id]
        by_cases same : id = first
        · subst same
          simp [fresh, positive]
        · simp [same]

end Counting

/-! ## Writers and release checks exclude each other -/

/-- The guards that name an identifier. -/
def writers (guards : List (List BlockId)) (id : BlockId) : Nat :=
  guards.countP fun guard => id ∈ guard

/-- The guards, the checks and the two maps agree. -/
structure Exclusive (process : Process) : Prop where
  distinct : ∀ guard ∈ process.guards, guard.Nodup
  counted : Counts process.state.active (writers process.guards)
  checked :
    ∀ id,
      id ∈ process.state.releaseChecks ↔ id ∈ process.checks.map Prod.fst
  single : (process.checks.map Prod.fst).Nodup
  apart :
    ∀ guard ∈ process.guards,
      ∀ id ∈ guard, id ∉ process.checks.map Prod.fst
  current :
    ∀ check ∈ process.checks, process.state.ids[check.1]? = some check.2

section Exclusion

variable {blake3 : Bytes → BlockId} {process : Process} {file : Bytes}
  {order : SetOrder} {state : State} {ids admitted : List BlockId}
  {position : Nat}

/-- What the checks of a batch establish before it is written. -/
structure Admitted
    (order : SetOrder)
    (state : State)
    (ids admitted : List BlockId) : Prop where
  isRequested : admitted = requested order ids
  bounded : ids.length ≤ maxBatch
  running : state.failed = false
  unreserved : ∀ id ∈ admitted, id ∉ state.releaseChecks
  fits :
    admitted ≠ [] →
    state.sequence + 1 < 2 ^ 64 ∧
      state.ids.size +
          (admitted.filter fun id => !state.ids.contains id).length ≤
        maxIds ∧
      state.bytes + recordSize admitted.length ≤ maxBytes

theorem Admitted.mem_iff
    (facts : Admitted order state ids admitted)
    (id : BlockId) :
    id ∈ admitted ↔ id ∈ ids := by
  rw [facts.isRequested, requested, (order.arrange_perm _).mem_iff,
    List.mem_dedup]

theorem admitted_of_admission
    (admits : admission order state ids = .ok admitted) :
    Admitted order state ids admitted := by
  simp only [admission] at admits
  split_ifs at admits with long failed reserved empty last full
  · cases admits
    have none' : requested order ids = [] := List.isEmpty_iff.mp empty
    exact
      { isRequested := none'.symm
        bounded := not_lt.mp long
        running := by simpa using failed
        unreserved := by simp
        fits := fun some' => absurd rfl some' }
  · cases admits
    exact
      { isRequested := rfl
        bounded := not_lt.mp long
        running := by simpa using failed
        unreserved := by
          intro id member inside
          refine reserved (List.any_eq_true.mpr ⟨id, member, ?_⟩)
          exact ExtTreeSet.contains_iff_mem.mpr inside
        fits := by
          intro _
          rw [not_or] at full
          exact ⟨not_le.mp last, not_lt.mp full.1, not_lt.mp full.2⟩ }

theorem nodup_requested (order : SetOrder) (ids : List BlockId) :
    (requested order ids).Nodup :=
  (order.arrange_perm _).nodup_iff.mpr (List.nodup_dedup _)

theorem Admitted.nodup
    (admits : Admitted order state ids admitted) :
    admitted.Nodup :=
  admits.isRequested ▸ nodup_requested order ids

/-- The ways a batch can end. -/
theorem protect_cases
    (blake3 : Bytes → BlockId)
    (order : SetOrder)
    (write : JournalWrite)
    (state : State)
    (file : Bytes)
    (ids : List BlockId) :
    (∃ error,
        error ≠ .io ∧
          admission order state ids = .error error ∧
          protect blake3 order write state file ids =
            (.error error, state, file)) ∨
      (admission order state ids = .ok [] ∧
        protect blake3 order write state file ids = (.ok [], state, file)) ∨
      ∃ admitted,
        admission order state ids = .ok admitted ∧
          admitted ≠ [] ∧
          ((write = .succeeds ∧
              protect blake3 order write state file ids =
                (.ok admitted, state.commit admitted,
                  file ++
                    encodeRecord blake3 (state.sequence + 1) admitted)) ∨
            ∃ written,
              write = .fails written ∧
                protect blake3 order write state file ids =
                  (.error .io, { state with failed := true },
                    file ++
                      (encodeRecord blake3 (state.sequence + 1)
                        admitted).take written)) := by
  unfold protect
  cases admits : admission order state ids with
  | error error =>
      refine Or.inl ⟨error, ?_, rfl, rfl⟩
      rintro rfl
      simp only [admission] at admits
      split_ifs at admits <;> cases admits
  | ok admitted =>
      cases admitted with
      | nil =>
          exact Or.inr (Or.inl ⟨rfl, rfl⟩)
      | cons id rest =>
          refine Or.inr (Or.inr ⟨id :: rest, rfl, List.cons_ne_nil _ _, ?_⟩)
          cases write with
          | succeeds =>
              exact Or.inl ⟨rfl, rfl⟩
          | fails written =>
              exact Or.inr ⟨written, rfl, rfl⟩

theorem writers_concat
    (guards : List (List BlockId))
    (guard : List BlockId)
    (id : BlockId) :
    writers (guards ++ [guard]) id =
      writers guards id + if id ∈ guard then 1 else 0 := by
  rw [writers, List.countP_append, List.countP_singleton]
  simp [writers]

theorem writers_pos_iff
    {guards : List (List BlockId)}
    {id : BlockId} :
    0 < writers guards id ↔ ∃ guard ∈ guards, id ∈ guard := by
  simp [writers, List.countP_pos_iff]

theorem writers_eraseIdx
    {guards : List (List BlockId)}
    {guard : List BlockId}
    (present : guards[position]? = some guard)
    (id : BlockId) :
    writers (guards.eraseIdx position) id =
      writers guards id - if id ∈ guard then 1 else 0 := by
  obtain ⟨inside, same⟩ := List.getElem?_eq_some_iff.mp present
  have split : guards =
      guards.take position ++ guard :: guards.drop (position + 1) := by
    rw [← same, List.getElem_cons_drop, List.take_append_drop]
  rw [List.eraseIdx_eq_take_drop_succ]
  conv_rhs => rw [split]
  simp only [writers, List.countP_append, List.countP_cons, decide_eq_true_eq]
  split <;> omega

/-- A new guard names no identifier that a check holds. -/
theorem Exclusive.guarded
    (exclusive : Exclusive process)
    (admits : Admitted order process.state ids admitted) :
    Exclusive
      { process with
        state := process.state.commit admitted
        guards := process.guards ++ [admitted] } where
  distinct := by
    intro guard member
    rcases List.mem_append.mp member with old | new
    · exact exclusive.distinct guard old
    · exact List.mem_singleton.mp new ▸ admits.nodup
  counted := by
    intro id
    rw [writers_concat]
    exact exclusive.counted.enter admits.nodup id
  checked := exclusive.checked
  single := exclusive.single
  apart := by
    intro guard member id named
    rcases List.mem_append.mp member with old | new
    · exact exclusive.apart guard old id named
    · obtain rfl := List.mem_singleton.mp new
      exact fun held =>
        admits.unreserved id named ((exclusive.checked id).mpr held)
  current := by
    intro check live
    have outside : check.1 ∉ admitted := fun named =>
      admits.unreserved check.1 named
        ((exclusive.checked _).mpr (List.mem_map_of_mem live))
    have kept : (FiniteMap.insertAll process.state.ids admitted
        (process.state.sequence + 1))[check.1]? = some check.2 := by
      rw [FiniteMap.getElem?_insertAll, if_neg outside]
      exact exclusive.current check live
    exact kept

/-- An empty guard changes nothing. -/
theorem Exclusive.unguarded
    (exclusive : Exclusive process) :
    Exclusive { process with guards := process.guards ++ [[]] } where
  distinct := by
    intro guard member
    rcases List.mem_append.mp member with old | new
    · exact exclusive.distinct guard old
    · exact List.mem_singleton.mp new ▸ List.nodup_nil
  counted := by
    intro id
    rw [writers_concat]
    exact exclusive.counted id
  checked := exclusive.checked
  single := exclusive.single
  apart := by
    intro guard member id named
    rcases List.mem_append.mp member with old | new
    · exact exclusive.apart guard old id named
    · rw [List.mem_singleton.mp new] at named
      exact absurd named List.not_mem_nil
  current := exclusive.current

/-- A new check finds no writer and no other check. -/
theorem Exclusive.checking
    (exclusive : Exclusive process)
    {id : BlockId}
    {generation : Nat}
    {state : State}
    (checks : tryReleaseCheck process.state id generation = .ok state) :
    Exclusive
      { process with
        state := state
        checks := process.checks ++ [(id, generation)] } := by
  unfold tryReleaseCheck at checks
  split_ifs at checks with failed stale busy
  cases checks
  rw [not_or, not_not] at stale
  rw [Bool.or_eq_true, not_or] at busy
  have idle : writers process.guards id = 0 := by
    by_contra writing
    have found := exclusive.counted id
    rw [if_neg writing] at found
    exact busy.1 (ExtTreeMap.contains_iff_mem.mpr
      (ExtTreeMap.mem_iff_isSome_getElem?.mpr (by rw [found]; rfl)))
  have unchecked : id ∉ process.checks.map Prod.fst := fun held =>
    busy.2 (ExtTreeSet.contains_iff_mem.mpr ((exclusive.checked id).mpr held))
  exact
    { distinct := exclusive.distinct
      counted := exclusive.counted
      checked := by
        intro other
        have compares : compare id other = .eq ↔ id = other :=
          ⟨Std.LawfulEqOrd.eq_of_compare, fun same => by simp [same]⟩
        simp only [ExtTreeSet.mem_insert, exclusive.checked other,
          List.map_append, List.map_cons, List.map_nil, List.mem_append,
          List.mem_singleton, compares]
        tauto
      single := by
        rw [List.map_append]
        refine List.nodup_append.mpr ⟨exclusive.single, by simp, ?_⟩
        rintro held inside other new rfl
        rw [List.map_cons, List.map_nil, List.mem_singleton] at new
        rw [new] at inside
        exact unchecked inside
      apart := by
        intro guard member other named held
        rw [List.map_append, List.mem_append] at held
        rcases held with old | new
        · exact exclusive.apart guard member other named old
        · rw [List.map_cons, List.map_nil, List.mem_singleton] at new
          have writing := writers_pos_iff.mpr ⟨guard, member, named⟩
          rw [new, idle] at writing
          exact absurd writing (lt_irrefl 0)
      current := by
        intro check member
        rcases List.mem_append.mp member with old | new
        · exact exclusive.current check old
        · rw [List.mem_singleton.mp new]
          exact stale.2 }

/-- Dropping a guard finds all the writers it counts. -/
theorem Exclusive.dropGuard
    (exclusive : Exclusive process)
    {guard : List BlockId}
    (present : process.guards[position]? = some guard) :
    ∃ active,
      leave process.state.active guard = some active ∧
        Exclusive
          { process with
            state := { process.state with active := active }
            guards := process.guards.eraseIdx position } := by
  have member := List.mem_of_getElem? present
  obtain ⟨active, left, counted⟩ := exclusive.counted.leave
    (exclusive.distinct guard member) fun id named =>
      writers_pos_iff.mpr ⟨guard, member, named⟩
  refine ⟨active, left, ?_⟩
  exact
    { distinct := fun other inside =>
        exclusive.distinct other (List.mem_of_mem_eraseIdx inside)
      counted := by
        intro id
        rw [writers_eraseIdx present]
        exact counted id
      checked := exclusive.checked
      single := exclusive.single
      apart := fun other inside =>
        exclusive.apart other (List.mem_of_mem_eraseIdx inside)
      current := exclusive.current }

theorem Exclusive.dropCheck
    (exclusive : Exclusive process)
    {check : BlockId × Nat}
    (present : process.checks[position]? = some check) :
    Exclusive
      { process with
        state := { process.state with
          releaseChecks := process.state.releaseChecks.erase check.1 }
        checks := process.checks.eraseIdx position } := by
  have erased : (process.checks.eraseIdx position).map Prod.fst =
      (process.checks.map Prod.fst).erase check.1 := by
    have found : (process.checks.map Prod.fst)[position]? = some check.1 := by
      rw [List.getElem?_map, present]
      rfl
    obtain ⟨inside, same⟩ := List.getElem?_eq_some_iff.mp found
    rw [← same, exclusive.single.erase_getElem, List.eraseIdx_map]
  have member {other : BlockId} :
      other ∈ (process.checks.eraseIdx position).map Prod.fst ↔
        other ≠ check.1 ∧ other ∈ process.checks.map Prod.fst := by
    rw [erased]
    exact exclusive.single.mem_erase_iff
  exact
    { distinct := exclusive.distinct
      counted := exclusive.counted
      checked := by
        intro other
        rw [member, ← exclusive.checked other, ExtTreeSet.mem_erase]
        have compares : compare check.1 other ≠ .eq ↔ other ≠ check.1 :=
          not_congr ⟨fun same => (Std.LawfulEqOrd.eq_of_compare same).symm,
            fun same => by simp [same]⟩
        rw [compares]
      single := by
        rw [erased]
        exact exclusive.single.erase _
      apart := fun guard inside id named held =>
        exclusive.apart guard inside id named (member.mp held).2
      current := fun other inside =>
        exclusive.current other (List.mem_of_mem_eraseIdx inside) }

/-- No call panics, and every call keeps writers and checks apart. -/
theorem Exclusive.call
    (exclusive : Exclusive process)
    (file : Bytes)
    (call : Call) :
    ∃ next,
      process.call blake3 file call = some next ∧ Exclusive next.1 := by
  cases call with
  | protect ids order write =>
      rcases protect_cases blake3 order write process.state file ids with
        ⟨error, _, _, result⟩ | ⟨_, result⟩ |
        ⟨admitted, admits, _, ⟨_, result⟩ | ⟨written, _, result⟩⟩
      · exact ⟨(process, file), by rw [Process.call, result], exclusive⟩
      · exact ⟨_, by rw [Process.call, result], exclusive.unguarded⟩
      · exact ⟨_, by rw [Process.call, result],
          exclusive.guarded (admitted_of_admission admits)⟩
      · refine ⟨_, by rw [Process.call, result], ?_⟩
        exact ⟨exclusive.distinct, exclusive.counted, exclusive.checked,
          exclusive.single, exclusive.apart, exclusive.current⟩
  | tryReleaseCheck id generation =>
      rw [Process.call]
      cases checks : tryReleaseCheck process.state id generation with
      | error error =>
          exact ⟨(process, file), rfl, exclusive⟩
      | ok state =>
          exact ⟨_, rfl, exclusive.checking checks⟩
  | dropGuard position =>
      rw [Process.call]
      cases present : process.guards[position]? with
      | none =>
          exact ⟨(process, file), rfl, exclusive⟩
      | some guard =>
          obtain ⟨active, left, next⟩ := exclusive.dropGuard present
          simp only [left]
          exact ⟨_, rfl, next⟩
  | dropCheck position =>
      rw [Process.call]
      cases present : process.checks[position]? with
      | none =>
          exact ⟨(process, file), rfl, exclusive⟩
      | some check =>
          exact ⟨_, rfl, exclusive.dropCheck present⟩

/-- Perform calls in the order in which they take the lock. -/
def callAll
    (blake3 : Bytes → BlockId)
    (process : Process)
    (file : Bytes)
    (calls : List Call) : Option (Process × Bytes) :=
  calls.foldlM (fun current call => current.1.call blake3 current.2 call)
    (process, file)

theorem Exclusive.callAll
    (exclusive : Exclusive process)
    (file : Bytes)
    (calls : List Call) :
    ∃ final,
      callAll blake3 process file calls = some final ∧
        Exclusive final.1 := by
  induction calls generalizing process file with
  | nil =>
      exact ⟨(process, file), rfl, exclusive⟩
  | cons call calls inductionHypothesis =>
      obtain ⟨next, called, kept⟩ :
          ∃ next,
            process.call blake3 file call = some next ∧ Exclusive next.1 :=
        exclusive.call file call
      obtain ⟨final, all, exclusiveFinal⟩ := inductionHypothesis kept next.2
      refine ⟨final, ?_, exclusiveFinal⟩
      rw [Retention.callAll, List.foldlM_cons, called]
      exact all

/-- Replaying a journal opens it without writers or checks. -/
theorem replay_idle
    {fuel : Nat}
    {rest : Bytes}
    {start opened : State}
    (replays : replay blake3 fuel rest start = .ok opened) :
    opened.active = start.active ∧
      opened.releaseChecks = start.releaseChecks := by
  fun_induction replay blake3 fuel rest start generalizing opened with
  | case1 => cases replays; exact ⟨rfl, rfl⟩
  | case2 => cases replays; exact ⟨rfl, rfl⟩
  | case3 => cases replays; exact ⟨rfl, rfl⟩
  | case4 => cases replays
  | case5 fuel rest state =>
      rename_i inductionHypothesis
      exact inductionHypothesis replays
  | case6 => cases replays
  | case7 => cases replays
  | case8 => cases replays

theorem openJournal_idle
    {journal : Bytes}
    {opened : State}
    (opens : openJournal blake3 journal = .ok (opened, file)) :
    opened.active = ∅ ∧ opened.releaseChecks = ∅ := by
  unfold openJournal at opens
  split at opens
  · cases opens
  · split at opens
    · cases opens
    · rename_i replayed
      cases opens
      exact replay_idle replayed

theorem exclusive_opened
    {opened : State}
    (idle : opened.active = ∅ ∧ opened.releaseChecks = ∅) :
    Exclusive ⟨opened, [], []⟩ where
  distinct := by simp
  counted := by
    intro id
    simp [idle.1, writers]
  checked := by simp [idle.2]
  single := List.nodup_nil
  apart := by simp
  current := by simp

/--
After any interleaving of calls no call has panicked, no identifier is both
named by a guard and held by a check, each is held by at most one check, the
writers are counted, and a checked identifier keeps its generation.
-/
theorem writers_and_checks_exclude
    (blake3 : Bytes → BlockId)
    (journal file : Bytes)
    (opened : State)
    (opens : openJournal blake3 journal = .ok (opened, file))
    (calls : List Call) :
    ∃ process final,
      callAll blake3 ⟨opened, [], []⟩ file calls = some (process, final) ∧
        (∀ id,
          ¬ ((∃ guard ∈ process.guards, id ∈ guard) ∧
            ∃ check ∈ process.checks, check.1 = id)) ∧
        (process.checks.map Prod.fst).Nodup ∧
        (∀ id,
          process.state.active[id]? =
            if writers process.guards id = 0 then none
            else some (writers process.guards id)) ∧
        ∀ check ∈ process.checks,
          process.state.ids[check.1]? = some check.2 := by
  obtain ⟨final, called, exclusive⟩ :=
    (exclusive_opened (openJournal_idle opens)).callAll file calls
  refine ⟨final.1, final.2, called, ?_, exclusive.single, exclusive.counted,
    exclusive.current⟩
  rintro id ⟨⟨guard, live, named⟩, check, held, rfl⟩
  exact exclusive.apart guard live check.1 named (List.mem_map_of_mem held)

end Exclusion

/-! ## Sample calls -/

/-- The digest of the single byte one. -/
def oneId : BlockId := .ofOneByte

/-- The digest of the single byte zero. -/
def zeroId : BlockId := .ofZeroByte

def listedOrder : SetOrder := ⟨id, fun _ => List.Perm.refl _⟩

/-- BLAKE3 on the headers and bodies of the sample records. -/
def journalBlake3 (bytes : Bytes) : BlockId :=
  if bytes = recordHead 1 1 then
    ⟨[94, 217, 216, 254, 163, 12, 163, 250, 221, 169, 56, 20, 20, 254, 174,
      202, 127, 126, 112, 99, 31, 62, 149, 47, 96, 22, 103, 162, 59, 135,
      185, 133], by decide⟩
  else if bytes = idBytes [oneId] then
    ⟨[61, 217, 9, 88, 33, 242, 106, 24, 181, 98, 39, 67, 210, 209, 89, 97,
      223, 215, 15, 228, 3, 242, 117, 141, 202, 0, 167, 209, 203, 70, 97,
      150], by decide⟩
  else if bytes = recordHead 2 2 then
    ⟨[82, 105, 199, 73, 50, 39, 189, 100, 10, 160, 209, 75, 173, 179, 237,
      203, 68, 98, 98, 0, 214, 96, 20, 150, 158, 99, 102, 211, 145, 232, 137,
      169], by decide⟩
  else if bytes = idBytes [oneId, zeroId] then
    ⟨[135, 236, 20, 75, 202, 47, 153, 104, 190, 143, 62, 97, 69, 67, 212, 50,
      42, 181, 203, 208, 36, 19, 152, 45, 41, 29, 108, 4, 116, 242, 221,
      236], by decide⟩
  else
    BlockId.filled 0

/-- A writer, a refused check, a check, a refused writer and a writer. -/
def competingCalls : List Call :=
  [.protect [oneId, oneId] listedOrder .succeeds, .tryReleaseCheck oneId 1,
    .dropGuard 0, .tryReleaseCheck oneId 1,
    .protect [zeroId, oneId] listedOrder .succeeds, .dropCheck 0,
    .protect [oneId, zeroId] listedOrder .succeeds]

theorem writers_and_checks_exclude_competing :
    ∃ process final,
      callAll journalBlake3 ⟨{}, [], []⟩ [] competingCalls =
          some (process, final) ∧
        ∀ id,
          ¬ ((∃ guard ∈ process.guards, id ∈ guard) ∧
            ∃ check ∈ process.checks, check.1 = id) := by
  obtain ⟨process, final, called, apart, _⟩ := writers_and_checks_exclude
    journalBlake3 [] [] {} rfl competingCalls
  exact ⟨process, final, called, apart⟩

end KalpakDb.Retention
