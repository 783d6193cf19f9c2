import KalpakDb.FiniteMap
import KalpakDb.LineLog
import KalpakDb.StepRun
import KalpakDb.Utf8

namespace KalpakDb.RaftLog

/-!
# The Raft log store

The store keeps its log in an ordered map and in a file with one line for each
entry; vote, committed and last purged identifiers are in a second file that
is replaced as a whole.  Truncating and purging rewrite the log file.  What a
store is after each event, interrupted or not, is stated on its memory alone.
-/

open Std (ExtTreeMap)
open LineLog

structure LogId where
  term : Nat
  nodeId : Nat
  index : Nat
  deriving DecidableEq

structure Vote where
  term : Nat
  nodeId : Nat
  committed : Bool
  deriving DecidableEq

structure Entry (α : Type) where
  logId : LogId
  payload : α
  deriving DecidableEq

/-- The contents of `raft-meta.json`. -/
structure Meta where
  vote : Option Vote := none
  lastPurged : Option LogId := none
  committed : Option LogId := none
  deriving DecidableEq

/-- The store's memory. -/
structure Inner (α : Type) where
  log : ExtTreeMap Nat (Entry α) := ∅
  lastPurged : Option LogId := none
  vote : Option Vote := none
  committed : Option LogId := none

def Inner.toMeta {α : Type} (inner : Inner α) : Meta :=
  ⟨inner.vote, inner.lastPurged, inner.committed⟩

/-- The two files of a store. -/
structure Disk where
  log : List UInt8 := []
  metadata : Option (List UInt8) := none
  deriving DecidableEq

/-- The files, and the store while a process has it open. -/
structure Host (α : Type) where
  disk : Disk := {}
  store : Option (Inner α) := none

/-- How entries and metadata are written as JSON and read back. -/
structure Codec (α : Type) where
  writeEntry : Entry α → List UInt8
  readEntry : List UInt8 → Option (Entry α)
  writeMeta : Meta → List UInt8
  readMeta : List UInt8 → Option Meta

/-- An entry's text has no newline and is read back from its line. -/
structure Codec.RoundTrips
    {α : Type}
    (codec : Codec α)
    (entry : Entry α) : Prop where
  clean : newline ∉ codec.writeEntry entry
  read : codec.readEntry (terminate (codec.writeEntry entry)) = some entry

instance
    {α : Type}
    [DecidableEq α]
    (codec : Codec α)
    (entry : Entry α) :
    Decidable (codec.RoundTrips entry) :=
  decidable_of_iff
    (newline ∉ codec.writeEntry entry ∧
      codec.readEntry (terminate (codec.writeEntry entry)) = some entry)
    ⟨fun both => ⟨both.1, both.2⟩, fun both => ⟨both.clean, both.read⟩⟩

inductive OpenError where
  | malformedMeta
  | malformedEntry
  deriving DecidableEq

/-! ## The operations -/

section Operations

variable {α : Type}

/-- Store entries under their indices, later ones over earlier ones. -/
def storeEntries
    (log : ExtTreeMap Nat (Entry α))
    (entries : List (Entry α)) : ExtTreeMap Nat (Entry α) :=
  entries.foldl (fun log entry => log.insert entry.logId.index entry) log

def Inner.append (inner : Inner α) (entries : List (Entry α)) : Inner α :=
  { inner with log := storeEntries inner.log entries }

def Inner.truncate (inner : Inner α) (id : LogId) : Inner α :=
  { inner with log := inner.log.filter fun index _ => index < id.index }

def Inner.purge (inner : Inner α) (id : LogId) : Inner α :=
  { inner with
    lastPurged := some id
    log := inner.log.filter fun index _ => id.index < index }

variable (codec : Codec α)

/-- Replay lines; the number is the end of the last complete one. -/
def replay :
    List (List UInt8) → Nat → ExtTreeMap Nat (Entry α) →
      Except OpenError (ExtTreeMap Nat (Entry α) × Nat)
  | [], validLen, log => .ok (log, validLen)
  | line :: rest, validLen, log =>
      if line.getLast? = some newline then
        match codec.readEntry line with
        | none => .error .malformedEntry
        | some entry =>
            replay rest (validLen + line.length)
              (log.insert entry.logId.index entry)
      else
        .ok (log, validLen)

def openMeta (disk : Disk) : Except OpenError Meta :=
  match disk.metadata with
  | none => .ok {}
  | some bytes =>
      match codec.readMeta bytes with
      | none => .error .malformedMeta
      | some metadata => .ok metadata

/-- `LogStore::open`. -/
def openStore (disk : Disk) : Except OpenError (Inner α × Disk) := do
  let metadata ← openMeta codec disk
  let (log, validLen) ← replay codec (splitInclusive disk.log) 0 ∅
  return ({ log := log
            lastPurged := metadata.lastPurged
            vote := metadata.vote
            committed := metadata.committed },
    { disk with log := disk.log.take validLen })

def persistMeta (inner : Inner α) (disk : Disk) : Disk :=
  { disk with metadata := some (codec.writeMeta inner.toMeta) }

/-- The bytes of the log file for some entries. -/
def logBytes (entries : List (Entry α)) : List UInt8 :=
  encodeLines (entries.map codec.writeEntry)

def rewriteLog (inner : Inner α) (disk : Disk) : Disk :=
  { disk with log := logBytes codec (FiniteMap.values inner.log) }

def appendDurable (disk : Disk) (entry : Entry α) : Disk :=
  { disk with log := disk.log ++ terminate (codec.writeEntry entry) }

/-- Where the process ends in a purge: its two files are replaced in turn. -/
inductive PurgePoint where
  | beforeMeta
  | betweenFiles
  | afterLog
  deriving DecidableEq

/-- A call on an open store; the process may end inside it. -/
inductive Call (α : Type) where
  | append (entries : List (Entry α))
  | crashAppend (entries : List (Entry α)) (written : Nat)
  | truncate (id : LogId)
  | crashTruncate (id : LogId) (renamed : Bool)
  | purge (id : LogId)
  | crashPurge (id : LogId) (point : PurgePoint)
  | saveVote (vote : Vote)
  | saveCommitted (committed : Option LogId)

inductive Event (α : Type) where
  | call (call : Call α)
  | reopen

/-- The entries an event may write. -/
def Event.entries : Event α → List (Entry α)
  | .call (.append entries) => entries
  | .call (.crashAppend entries _) => entries
  | _ => []

/-- Whether an event may write or remove the entry at an index. -/
def Event.Touches (index : Nat) : Event α → Prop
  | .call (.append entries) => ∃ entry ∈ entries, entry.logId.index = index
  | .call (.crashAppend entries _) =>
      ∃ entry ∈ entries, entry.logId.index = index
  | .call (.truncate id) => id.index ≤ index
  | .call (.crashTruncate id _) => id.index ≤ index
  | .call (.purge id) => index ≤ id.index
  | .call (.crashPurge id _) => index ≤ id.index
  | _ => False

/-- The files after a purge that ended at some point. -/
def crashedPurge
    (inner : Inner α)
    (id : LogId)
    (disk : Disk) : PurgePoint → Disk
  | .beforeMeta => disk
  | .betweenFiles => persistMeta codec (inner.purge id) disk
  | .afterLog =>
      rewriteLog codec (inner.purge id)
        (persistMeta codec (inner.purge id) disk)

/-- A call of the process that has the store open. -/
def stepCall (disk : Disk) (inner : Inner α) : Call α → Host α
  | .append entries =>
      ⟨entries.foldl (appendDurable codec) disk, some (inner.append entries)⟩
  | .crashAppend entries written =>
      ⟨{ disk with log := disk.log ++ (logBytes codec entries).take written },
        none⟩
  | .truncate id =>
      ⟨rewriteLog codec (inner.truncate id) disk, some (inner.truncate id)⟩
  | .crashTruncate id renamed =>
      ⟨if renamed then rewriteLog codec (inner.truncate id) disk else disk,
        none⟩
  | .purge id =>
      ⟨crashedPurge codec inner id disk .afterLog, some (inner.purge id)⟩
  | .crashPurge id point => ⟨crashedPurge codec inner id disk point, none⟩
  | .saveVote vote =>
      let saved := { inner with vote := some vote }
      ⟨persistMeta codec saved disk, some saved⟩
  | .saveCommitted committed =>
      let saved := { inner with committed := committed }
      ⟨persistMeta codec saved disk, some saved⟩

/-- One event; calls need an open store. -/
def stepHost (host : Host α) : Event α → Host α
  | .call call =>
      match host.store with
      | none => host
      | some inner => stepCall codec host.disk inner call
  | .reopen =>
      match openStore codec host.disk with
      | .error _ => { host with store := none }
      | .ok (inner, disk) => ⟨disk, some inner⟩

/-- The entries of a batch whose newline is among the first bytes. -/
def persisted (entries : List (Entry α)) (written : Nat) : List (Entry α) :=
  ByteFile.whole (fun entry => (codec.writeEntry entry).length + 1) written
    entries

/-! ## What a store should be -/

/-- What a store should recover, and whether a process has it open. -/
structure Expected (α : Type) where
  inner : Inner α := {}
  running : Bool := false

/-- The store a call leaves, and whether the process goes on. -/
def expectCall (inner : Inner α) : Call α → Expected α
  | .append entries => ⟨inner.append entries, true⟩
  | .crashAppend entries written =>
      ⟨inner.append (persisted codec entries written), false⟩
  | .truncate id => ⟨inner.truncate id, true⟩
  | .crashTruncate id renamed =>
      ⟨if renamed then inner.truncate id else inner, false⟩
  | .purge id => ⟨inner.purge id, true⟩
  | .crashPurge _ .beforeMeta => ⟨inner, false⟩
  | .crashPurge id .betweenFiles =>
      ⟨{ inner with lastPurged := some id }, false⟩
  | .crashPurge id .afterLog => ⟨inner.purge id, false⟩
  | .saveVote vote => ⟨{ inner with vote := some vote }, true⟩
  | .saveCommitted committed => ⟨{ inner with committed := committed }, true⟩

def expect (expected : Expected α) : Event α → Expected α
  | .call call =>
      if expected.running then expectCall codec expected.inner call
      else expected
  | .reopen => { expected with running := true }

end Operations

/-! ## Entries under their indices -/

section Entries

variable {α : Type} {log : ExtTreeMap Nat (Entry α)}

/-- Every entry is stored under its own index. -/
def Keyed (log : ExtTreeMap Nat (Entry α)) : Prop :=
  ∀ (index : Nat) (entry : Entry α),
    log[index]? = some entry → entry.logId.index = index

theorem storeEntries_append
    (first second : List (Entry α)) :
    storeEntries log (first ++ second) =
      storeEntries (storeEntries log first) second :=
  List.foldl_append

theorem Keyed.filter
    (keyed : Keyed log)
    (keep : Nat → Entry α → Bool) :
    Keyed (log.filter keep) := by
  intro index entry found
  rw [ExtTreeMap.getElem?_filter'] at found
  exact keyed index entry (Option.filter_eq_some_iff.mp found).1

theorem Keyed.insert
    (keyed : Keyed log)
    (entry : Entry α) :
    Keyed (log.insert entry.logId.index entry) := by
  intro index other found
  rw [ExtTreeMap.getElem?_insert] at found
  split at found
  · rename_i same
    cases found
    exact Std.LawfulEqOrd.eq_of_compare same
  · exact keyed index other found

theorem storeEntries_map_snd
    {pairs : List (Nat × Entry α)}
    (keyed : ∀ pair ∈ pairs, pair.2.logId.index = pair.1) :
    storeEntries log (pairs.map Prod.snd) = log.insertMany pairs := by
  induction pairs generalizing log with
  | nil =>
      rw [ExtTreeMap.insertMany_nil]
      rfl
  | cons pair pairs inductionHypothesis =>
      have first := keyed pair (List.mem_cons_self ..)
      have later :
          storeEntries (log.insert pair.1 pair.2) (pairs.map Prod.snd) =
            (log.insert pair.1 pair.2).insertMany pairs :=
        inductionHypothesis fun other member =>
          keyed other (List.mem_cons_of_mem _ member)
      rw [ExtTreeMap.insertMany_cons, ← later, ← first]
      rfl

/-- Writing the entries of a log in order rebuilds it. -/
theorem Keyed.storeEntries_values
    (keyed : Keyed log) :
    RaftLog.storeEntries ∅ (FiniteMap.values log) = log := by
  have own : ∀ pair ∈ log.toList, pair.2.logId.index = pair.1 := by
    rintro ⟨index, entry⟩ member
    exact keyed index entry (FiniteMap.mem_toList.mp member)
  rw [FiniteMap.values, storeEntries_map_snd own,
    ← ExtTreeMap.ofList_eq_insertMany_empty, FiniteMap.ofList_toList]

end Entries

/-! ## Opening a store -/

section Opening

variable {α : Type} {codec : Codec α} {entries : List (Entry α)}
  {torn : List UInt8}

@[simp] theorem logBytes_append (first second : List (Entry α)) :
    logBytes codec (first ++ second) =
      logBytes codec first ++ logBytes codec second := by
  simp [logBytes]

theorem splitInclusive_logBytes
    (lawful : ∀ entry ∈ entries, codec.RoundTrips entry)
    (rest : List UInt8) :
    splitInclusive (logBytes codec entries ++ rest) =
      entries.map (fun entry => terminate (codec.writeEntry entry)) ++
        splitInclusive rest := by
  have clean : ∀ text ∈ entries.map codec.writeEntry, newline ∉ text := by
    intro text member
    obtain ⟨entry, listed, rfl⟩ := List.mem_map.mp member
    exact (lawful entry listed).clean
  rw [logBytes, splitInclusive_encodeLines clean, List.map_map]
  rfl

theorem replay_entries
    (lawful : ∀ entry ∈ entries, codec.RoundTrips entry)
    (more : List (List UInt8))
    (validLen : Nat)
    (log : ExtTreeMap Nat (Entry α)) :
    replay codec
        (entries.map (fun entry => terminate (codec.writeEntry entry)) ++ more)
        validLen log =
      replay codec more (validLen + (logBytes codec entries).length)
        (storeEntries log entries) := by
  induction entries generalizing validLen log with
  | nil =>
      rfl
  | cons entry entries inductionHypothesis =>
      have first := lawful entry (List.mem_cons_self ..)
      have later (other : Entry α) (member : other ∈ entries) :
          codec.RoundTrips other :=
        lawful other (List.mem_cons_of_mem _ member)
      have ended : (terminate (codec.writeEntry entry)).getLast? =
          some newline := List.getLast?_concat
      have split : logBytes codec (entry :: entries) =
          terminate (codec.writeEntry entry) ++ logBytes codec entries := rfl
      rw [List.map_cons, List.cons_append, replay, if_pos ended, first.read]
      simp only
      rw [inductionHypothesis later, split, List.length_append, Nat.add_assoc]
      rfl

/-- What follows the last newline is no entry. -/
theorem replay_torn
    (clean : newline ∉ torn)
    (validLen : Nat)
    (log : ExtTreeMap Nat (Entry α)) :
    replay codec (splitInclusive torn) validLen log = .ok (log, validLen) := by
  by_cases empty : torn = []
  · rw [empty]
    rfl
  · have unended : torn.getLast? ≠ some newline := fun last =>
      clean (List.mem_of_getLast? last)
    rw [splitInclusive_unterminated clean empty, replay, if_neg unended]

/-- Opening recovers every complete line and cuts off a torn one. -/
theorem openStore_ok
    {disk : Disk}
    {metadata : Meta}
    (log : disk.log = logBytes codec entries ++ torn)
    (clean : newline ∉ torn)
    (lawful : ∀ entry ∈ entries, codec.RoundTrips entry)
    (read : openMeta codec disk = .ok metadata) :
    openStore codec disk =
      .ok (⟨storeEntries ∅ entries, metadata.lastPurged, metadata.vote,
          metadata.committed⟩,
        { disk with log := logBytes codec entries }) := by
  have replayed : replay codec (splitInclusive disk.log) 0 ∅ =
      .ok (storeEntries ∅ entries, (logBytes codec entries).length) := by
    rw [log, splitInclusive_logBytes lawful, replay_entries lawful,
      replay_torn clean, Nat.zero_add]
  have cut : disk.log.take (logBytes codec entries).length =
      logBytes codec entries := by
    rw [log, List.take_left]
  simp only [openStore, read, replayed, bind, Except.bind, pure, Except.pure,
    cut]

end Opening

/-! ## The files represent the expected store -/

/-- The files of a host hold what a store should recover. -/
structure Represents
    {α : Type}
    (codec : Codec α)
    (host : Host α)
    (expected : Expected α) : Prop where
  log :
    ∃ entries torn,
      host.disk.log = logBytes codec entries ++ torn ∧
        newline ∉ torn ∧
        (expected.running = true → torn = []) ∧
        (∀ entry ∈ entries, codec.RoundTrips entry) ∧
        storeEntries ∅ entries = expected.inner.log
  metadata : openMeta codec host.disk = .ok expected.inner.toMeta
  store :
    host.store = if expected.running then some expected.inner else none
  keyed : Keyed expected.inner.log
  lawful :
    ∀ entry ∈ FiniteMap.values expected.inner.log, codec.RoundTrips entry

section Steps

variable {α : Type} {codec : Codec α} {host : Host α} {expected : Expected α}
  {disk : Disk} {inner : Inner α} {entries : List (Entry α)}

/-- A store whose entries are under their indices and can be read back. -/
structure Storable (codec : Codec α) (log : ExtTreeMap Nat (Entry α)) :
    Prop where
  keyed : Keyed log
  lawful : ∀ entry ∈ FiniteMap.values log, codec.RoundTrips entry

theorem Represents.storable
    (represents : Represents codec host expected) :
    Storable codec expected.inner.log :=
  ⟨represents.keyed, represents.lawful⟩

theorem Storable.filter
    {log : ExtTreeMap Nat (Entry α)}
    (storable : Storable codec log)
    (keep : Nat → Entry α → Bool) :
    Storable codec (log.filter keep) := by
  refine ⟨storable.keyed.filter keep, ?_⟩
  intro entry member
  obtain ⟨index, found⟩ := FiniteMap.mem_values.mp member
  rw [ExtTreeMap.getElem?_filter'] at found
  exact storable.lawful entry
    (FiniteMap.mem_values.mpr ⟨index, (Option.filter_eq_some_iff.mp found).1⟩)

theorem Storable.storeEntries
    {log : ExtTreeMap Nat (Entry α)}
    (storable : Storable codec log)
    (lawful : ∀ entry ∈ entries, codec.RoundTrips entry) :
    Storable codec (storeEntries log entries) := by
  induction entries generalizing log with
  | nil =>
      exact storable
  | cons entry entries inductionHypothesis =>
      refine inductionHypothesis ?_ fun other member =>
        lawful other (List.mem_cons_of_mem _ member)
      refine ⟨storable.keyed.insert entry, ?_⟩
      intro other member
      obtain ⟨index, found⟩ := FiniteMap.mem_values.mp member
      rw [ExtTreeMap.getElem?_insert] at found
      split at found
      · cases found
        exact lawful entry (List.mem_cons_self ..)
      · exact storable.lawful other (FiniteMap.mem_values.mpr ⟨index, found⟩)

/-- The host right after the log file was rewritten. -/
theorem represents_rewritten
    (next : Inner α)
    (running : Bool)
    (storable : Storable codec next.log)
    (metadata : openMeta codec disk = .ok next.toMeta) :
    Represents codec
      ⟨rewriteLog codec next disk, if running then some next else none⟩
      ⟨next, running⟩ where
  log :=
    ⟨FiniteMap.values next.log, [], (List.append_nil _).symm, by simp,
      fun _ => rfl, storable.lawful, storable.keyed.storeEntries_values⟩
  metadata := metadata
  store := rfl
  keyed := storable.keyed
  lawful := storable.lawful

theorem openMeta_persistMeta
    (read : codec.readMeta (codec.writeMeta inner.toMeta) = some inner.toMeta)
    (disk : Disk) :
    openMeta codec (persistMeta codec inner disk) = .ok inner.toMeta := by
  simp [openMeta, persistMeta, read]

/-- The host right after the metadata was replaced. -/
theorem Represents.persistMeta
    (represents : Represents codec ⟨disk, some inner⟩ ⟨inner, true⟩)
    (next : Inner α)
    (running : Bool)
    (same : next.log = inner.log)
    (read :
      codec.readMeta (codec.writeMeta next.toMeta) = some next.toMeta) :
    Represents codec
      ⟨persistMeta codec next disk, if running then some next else none⟩
      ⟨next, running⟩ where
  log := by
    obtain ⟨entries, torn, file, clean, ended, lawful, stored⟩ :=
      represents.log
    exact ⟨entries, torn, file, clean, fun _ => ended rfl, lawful,
      stored.trans same.symm⟩
  metadata := openMeta_persistMeta read disk
  store := rfl
  keyed := same ▸ represents.keyed
  lawful := same ▸ represents.lawful

/-- A process may end at any time. -/
theorem Represents.stopped
    (represents : Represents codec ⟨disk, some inner⟩ ⟨inner, true⟩) :
    Represents codec ⟨disk, none⟩ ⟨inner, false⟩ where
  log := by
    obtain ⟨entries, torn, file, clean, _, lawful, stored⟩ := represents.log
    exact ⟨entries, torn, file, clean, by simp, lawful, stored⟩
  metadata := represents.metadata
  store := rfl
  keyed := represents.keyed
  lawful := represents.lawful

theorem foldl_appendDurable (entries : List (Entry α)) (disk : Disk) :
    entries.foldl (appendDurable codec) disk =
      { disk with log := disk.log ++ logBytes codec entries } := by
  induction entries generalizing disk with
  | nil =>
      simp [logBytes]
  | cons entry entries inductionHypothesis =>
      rw [List.foldl_cons, inductionHypothesis]
      simp [appendDurable, logBytes]

/-- Entries behind the log, whole lines and then a torn one. -/
theorem Represents.extended
    (represents : Represents codec ⟨disk, some inner⟩ ⟨inner, true⟩)
    (lawful : ∀ entry ∈ entries, codec.RoundTrips entry)
    {torn : List UInt8}
    (clean : newline ∉ torn)
    {running : Bool}
    (ended : running = true → torn = []) :
    Represents codec
      ⟨{ disk with log := disk.log ++ (logBytes codec entries ++ torn) },
        if running then some (inner.append entries) else none⟩
      ⟨inner.append entries, running⟩ where
  log := by
    obtain ⟨old, none', file, _, oldEnded, oldLawful, stored⟩ :=
      represents.log
    obtain rfl := oldEnded rfl
    rw [List.append_nil] at file
    change disk.log = _ at file
    refine ⟨old ++ entries, torn, ?_, clean, ended, ?_, ?_⟩
    · rw [logBytes_append, ← file, List.append_assoc]
    · intro entry member
      rcases List.mem_append.mp member with before | added
      · exact oldLawful entry before
      · exact lawful entry added
    · rw [storeEntries_append, stored]
      rfl
  metadata := represents.metadata
  store := rfl
  keyed := (represents.storable.storeEntries lawful).keyed
  lawful := (represents.storable.storeEntries lawful).lawful

theorem Represents.crashAppend
    (represents : Represents codec ⟨disk, some inner⟩ ⟨inner, true⟩)
    (lawful : ∀ entry ∈ entries, codec.RoundTrips entry)
    (written : Nat) :
    Represents codec
      ⟨{ disk with log := disk.log ++ (logBytes codec entries).take written },
        none⟩
      ⟨inner.append (persisted codec entries written), false⟩ := by
  obtain ⟨torn, shape, source⟩ :=
    take_encodeLines (entries.map codec.writeEntry) written
  rw [ByteFile.whole_map] at shape
  have front : persisted codec entries written <+: entries :=
    ByteFile.whole_isPrefix _ _ _
  have clean : newline ∉ torn := by
    rcases source with empty | ⟨text, listed, part⟩
    · simp [empty]
    · obtain ⟨entry, member, rfl⟩ := List.mem_map.mp listed
      exact fun inside => (lawful entry member).clean (part.subset inside)
  have extended := represents.extended
    (fun entry member => lawful entry (front.subset member)) clean
    (show false = true → torn = [] by simp)
  rw [logBytes, shape]
  exact extended

/-- Every call leaves the files as they should be. -/
theorem Represents.call
    (represents : Represents codec ⟨disk, some inner⟩ ⟨inner, true⟩)
    {call : Call α}
    (lawful :
      ∀ entry ∈ (Event.call call).entries, codec.RoundTrips entry)
    (read :
      codec.readMeta
          (codec.writeMeta (expectCall codec inner call).inner.toMeta) =
        some (expectCall codec inner call).inner.toMeta) :
    Represents codec (stepCall codec disk inner call)
      (expectCall codec inner call) := by
  have storable := represents.storable
  cases call with
  | append entries =>
      have extended := represents.extended lawful
        (show newline ∉ [] by simp) (show true = true → _ from fun _ => rfl)
      rw [List.append_nil] at extended
      rw [stepCall, foldl_appendDurable]
      exact extended
  | crashAppend entries written =>
      exact represents.crashAppend lawful written
  | truncate id =>
      exact represents_rewritten (inner.truncate id) true (storable.filter _)
        represents.metadata
  | crashTruncate id renamed =>
      cases renamed with
      | false =>
          exact represents.stopped
      | true =>
          exact represents_rewritten (inner.truncate id) false
            (storable.filter _) represents.metadata
  | purge id =>
      exact represents_rewritten (inner.purge id) true (storable.filter _)
        (openMeta_persistMeta read disk)
  | crashPurge id point =>
      cases point with
      | beforeMeta =>
          exact represents.stopped
      | betweenFiles =>
          exact represents.persistMeta { inner with lastPurged := some id }
            false rfl read
      | afterLog =>
          exact represents_rewritten (inner.purge id) false
            (storable.filter _) (openMeta_persistMeta read disk)
  | saveVote vote =>
      exact represents.persistMeta { inner with vote := some vote } true rfl
        read
  | saveCommitted committed =>
      exact represents.persistMeta { inner with committed := committed } true
        rfl read

/-- Opening the files gives what should be recovered. -/
theorem Represents.openStore_eq
    (represents : Represents codec host expected) :
    ∃ disk,
      openStore codec host.disk = .ok (expected.inner, disk) ∧
        Represents codec ⟨disk, some expected.inner⟩
          ⟨expected.inner, true⟩ := by
  obtain ⟨entries, torn, file, clean, _, lawful, stored⟩ := represents.log
  have opened := openStore_ok file clean lawful represents.metadata
  rw [stored] at opened
  refine ⟨{ host.disk with log := logBytes codec entries }, opened, ?_⟩
  exact
    { log :=
        ⟨entries, [], (List.append_nil _).symm, by simp, fun _ => rfl, lawful,
          stored⟩
      metadata := represents.metadata
      store := rfl
      keyed := represents.keyed
      lawful := represents.lawful }

theorem Represents.step
    (represents : Represents codec host expected)
    {event : Event α}
    (lawful : ∀ entry ∈ event.entries, codec.RoundTrips entry)
    (read :
      codec.readMeta
          (codec.writeMeta (expect codec expected event).inner.toMeta) =
        some (expect codec expected event).inner.toMeta) :
    Represents codec (stepHost codec host event)
      (expect codec expected event) := by
  cases event with
  | call call =>
      obtain ⟨inner, running⟩ := expected
      obtain ⟨disk, store⟩ := host
      have open' := represents.store
      cases running with
      | false =>
          have closed : store = none := open'
          subst closed
          exact represents
      | true =>
          have opened : store = some inner := open'
          subst opened
          exact represents.call lawful read
  | reopen =>
      obtain ⟨disk, opened, next⟩ := represents.openStore_eq
      rw [stepHost, opened]
      exact next

theorem Represents.start
    (codec : Codec α) :
    Represents codec {} {} where
  log := ⟨[], [], rfl, by simp, by simp, by simp, rfl⟩
  metadata := rfl
  store := rfl
  keyed := by
    intro index entry found
    simp at found
  lawful := by
    intro entry member
    simp [FiniteMap.mem_values] at member

end Steps

/-! ## Entries without payload -/

section Samples

def jsonNat (number : Nat) : List Char := Nat.toDigits 10 number

def jsonLeader (term nodeId : Nat) : List Char :=
  "\x7b\"term\":".toList ++ jsonNat term ++
    ",\"node_id\":".toList ++ jsonNat nodeId ++ ['\x7d']

def jsonLogId (id : LogId) : List Char :=
  "\x7b\"leader_id\":".toList ++ jsonLeader id.term id.nodeId ++
    ",\"index\":".toList ++ jsonNat id.index ++ ['\x7d']

def jsonVote (vote : Vote) : List Char :=
  "\x7b\"leader_id\":".toList ++ jsonLeader vote.term vote.nodeId ++
    ",\"committed\":".toList ++
    (if vote.committed then "true" else "false").toList ++ ['\x7d']

def jsonOption {β : Type} (write : β → List Char) (value : Option β) :
    List Char :=
  value.elim "null".toList write

/-- The JSON text of an entry with an empty payload. -/
def writeBlank (entry : Entry Unit) : List UInt8 :=
  Utf8.encode
    ("\x7b\"log_id\":".toList ++ jsonLogId entry.logId ++
      ",\"payload\":\"Blank\"\x7d".toList)

def writeMeta (metadata : Meta) : List UInt8 :=
  Utf8.encode
    ("\x7b\"vote\":".toList ++ jsonOption jsonVote metadata.vote ++
      ",\"last_purged\":".toList ++
      jsonOption jsonLogId metadata.lastPurged ++
      ",\"committed\":".toList ++
      jsonOption jsonLogId metadata.committed ++ ['\x7d'])

/-- A codec that reads exactly the texts of some entries and metadata. -/
def knownCodec (entries : List (Entry Unit)) (metas : List Meta) :
    Codec Unit where
  writeEntry := writeBlank
  readEntry line :=
    entries.find? fun entry => terminate (writeBlank entry) = line
  writeMeta := writeMeta
  readMeta bytes := metas.find? fun metadata => writeMeta metadata = bytes

def blank (index : Nat) : Entry Unit := ⟨⟨1, 1, index⟩, ()⟩

end Samples

/-! ## Recovery -/

section Recovery

variable {α : Type} (codec : Codec α) {index : Nat}

/-- The host before an event of a history. -/
def hostBefore (events : List (Event α)) (position : Nat) : Host α :=
  StepRun.before (stepHost codec) {} events position

/-- What a history has made of the store before an event. -/
def expectedBefore (events : List (Event α)) (position : Nat) : Expected α :=
  StepRun.before (expect codec) {} events position

/-- JSON is read back as it was written, for what a history writes. -/
structure Lawful (events : List (Event α)) : Prop where
  entries :
    ∀ event ∈ events, ∀ entry ∈ event.entries, codec.RoundTrips entry
  metadata :
    ∀ position ≤ events.length,
      codec.readMeta
          (codec.writeMeta
            (expectedBefore codec events position).inner.toMeta) =
        some (expectedBefore codec events position).inner.toMeta

instance [DecidableEq α] (events : List (Event α)) :
    Decidable (Lawful codec events) :=
  decidable_of_iff
    ((∀ event ∈ events, ∀ entry ∈ event.entries, codec.RoundTrips entry) ∧
      ∀ position ≤ events.length,
        codec.readMeta
            (codec.writeMeta
              (expectedBefore codec events position).inner.toMeta) =
          some (expectedBefore codec events position).inner.toMeta)
    ⟨fun both => ⟨both.1, both.2⟩, fun both => ⟨both.entries, both.metadata⟩⟩

variable {codec}

theorem Lawful.represents
    {events : List (Event α)}
    (lawful : Lawful codec events)
    (position : Nat) :
    Represents codec (hostBefore codec events position)
      (expectedBefore codec events position) := by
  induction position with
  | zero =>
      exact Represents.start codec
  | succ position inductionHypothesis =>
      unfold hostBefore expectedBefore at inductionHypothesis ⊢
      cases present : events[position]? with
      | none =>
          rw [StepRun.before_succ_of_none present,
            StepRun.before_succ_of_none present]
          exact inductionHypothesis
      | some event =>
          obtain ⟨inside, _⟩ := List.getElem?_eq_some_iff.mp present
          have read := lawful.metadata (position + 1) inside
          unfold expectedBefore at read
          rw [StepRun.before_succ present] at read
          rw [StepRun.before_succ present, StepRun.before_succ present]
          exact inductionHypothesis.step
            (lawful.entries event (List.mem_of_getElem? present)) read

theorem getElem?_storeEntries
    {log : ExtTreeMap Nat (Entry α)}
    {entries : List (Entry α)}
    (absent : ∀ entry ∈ entries, entry.logId.index ≠ index) :
    (storeEntries log entries)[index]? = log[index]? := by
  induction entries generalizing log with
  | nil =>
      rfl
  | cons entry entries inductionHypothesis =>
      have other : compare entry.logId.index index ≠ .eq := fun same =>
        absent entry (List.mem_cons_self ..)
          (Std.LawfulEqOrd.eq_of_compare same)
      have later : (storeEntries (log.insert entry.logId.index entry)
          entries)[index]? = (log.insert entry.logId.index entry)[index]? :=
        inductionHypothesis fun next member =>
          absent next (List.mem_cons_of_mem _ member)
      rw [ExtTreeMap.getElem?_insert, if_neg other] at later
      exact later

theorem getElem?_filter_of_keep
    {log : ExtTreeMap Nat (Entry α)}
    {keep : Nat → Entry α → Bool}
    (kept : ∀ entry, keep index entry = true) :
    (log.filter keep)[index]? = log[index]? := by
  rw [ExtTreeMap.getElem?_filter']
  cases log[index]? with
  | none =>
      rfl
  | some entry =>
      simp [Option.filter, kept entry]

/-- An event leaves every entry that it does not touch. -/
theorem getElem?_expect
    {expected : Expected α}
    {event : Event α}
    (untouched : ¬ event.Touches index) :
    (expect codec expected event).inner.log[index]? =
      expected.inner.log[index]? := by
  have unlisted
      {entries : List (Entry α)}
      (none' : ¬ ∃ entry ∈ entries, entry.logId.index = index) :
      ∀ entry ∈ entries, entry.logId.index ≠ index :=
    fun entry member same => none' ⟨entry, member, same⟩
  cases event with
  | reopen =>
      rfl
  | call call =>
      rw [expect]
      split
      case isFalse => rfl
      cases call with
      | append entries =>
          exact getElem?_storeEntries (unlisted untouched)
      | crashAppend entries written =>
          refine getElem?_storeEntries fun entry member => ?_
          exact unlisted untouched entry
            ((ByteFile.whole_isPrefix _ _ _).subset member)
      | truncate id =>
          exact getElem?_filter_of_keep fun _ =>
            decide_eq_true (not_le.mp untouched)
      | crashTruncate id renamed =>
          cases renamed with
          | false =>
              rfl
          | true =>
              exact getElem?_filter_of_keep fun _ =>
                decide_eq_true (not_le.mp untouched)
      | purge id =>
          exact getElem?_filter_of_keep fun _ =>
            decide_eq_true (not_le.mp untouched)
      | crashPurge id point =>
          cases point with
          | afterLog =>
              exact getElem?_filter_of_keep fun _ =>
                decide_eq_true (not_le.mp untouched)
          | beforeMeta =>
              rfl
          | betweenFiles =>
              rfl
      | saveVote vote =>
          rfl
      | saveCommitted committed =>
          rfl

/-- An entry stays until an event touches its index. -/
theorem getElem?_expectedBefore
    {events : List (Event α)}
    {earlier position index : Nat}
    (ordered : earlier ≤ position)
    (untouched :
      ∀ between event,
        earlier ≤ between →
        between < position →
        events[between]? = some event →
        ¬ event.Touches index) :
    (expectedBefore codec events position).inner.log[index]? =
      (expectedBefore codec events earlier).inner.log[index]? := by
  induction position, ordered using Nat.le_induction with
  | base =>
      rfl
  | succ position ordered inductionHypothesis =>
      have before := inductionHypothesis
        fun between event from' to' present =>
          untouched between event from' (Nat.lt_succ_of_lt to') present
      unfold expectedBefore at before ⊢
      cases present : events[position]? with
      | none =>
          rw [StepRun.before_succ_of_none present]
          exact before
      | some event =>
          rw [StepRun.before_succ present, getElem?_expect
            (untouched position event ordered (Nat.lt_succ_self _) present)]
          exact before

/--
At every moment of a history, in the middle of any interrupted operation too,
opening succeeds and yields the expected store.  An open store is the expected
one as well, and an entry stays until a later event writes, truncates or
purges its index.
-/
theorem raft_log_recovers
    (codec : Codec α)
    (events : List (Event α))
    (lawful : Lawful codec events)
    (position : Nat) :
    (∃ disk,
        openStore codec (hostBefore codec events position).disk =
          .ok ((expectedBefore codec events position).inner, disk)) ∧
      ((expectedBefore codec events position).running = true →
        (hostBefore codec events position).store =
          some (expectedBefore codec events position).inner) ∧
      ∀ earlier ≤ position,
        ∀ index : Nat,
          (∀ between event,
            earlier ≤ between →
            between < position →
            events[between]? = some event →
            ¬ event.Touches index) →
          (expectedBefore codec events position).inner.log[index]? =
            (expectedBefore codec events earlier).inner.log[index]? := by
  have represents := lawful.represents position
  refine ⟨?_, ?_, ?_⟩
  · obtain ⟨disk, opened, _⟩ := represents.openStore_eq
    exact ⟨disk, opened⟩
  · intro running
    rw [represents.store, if_pos running]
  · intro earlier ordered index untouched
    exact getElem?_expectedBefore ordered untouched

def sampleVote : Vote := ⟨1, 1, true⟩

/-- The codec for the entries and metadata of the sample histories. -/
def sampleCodec : Codec Unit :=
  knownCodec [blank 1, blank 2, blank 3]
    [{}, { vote := some sampleVote },
      { vote := some sampleVote, lastPurged := some ⟨1, 1, 1⟩ },
      { lastPurged := some ⟨1, 1, 2⟩ }, { lastPurged := some ⟨1, 1, 5⟩ }]

/-- A torn append, an interrupted truncation and a purge. -/
def interruptedEvents : List (Event Unit) :=
  [.reopen, .call (.append [blank 1]), .call (.saveVote sampleVote),
    .call (.crashAppend [blank 2, blank 3] 100), .reopen,
    .call (.append [blank 3]), .call (.crashTruncate ⟨1, 1, 3⟩ true), .reopen,
    .call (.purge ⟨1, 1, 1⟩), .reopen]

theorem raft_log_recovers_interrupted :
    (∃ disk,
        openStore sampleCodec
            (hostBefore sampleCodec interruptedEvents 10).disk =
          .ok ((expectedBefore sampleCodec interruptedEvents 10).inner,
            disk)) ∧
      FiniteMap.values
          (expectedBefore sampleCodec interruptedEvents 10).inner.log =
        [blank 2] := by
  have facts : Lawful sampleCodec interruptedEvents ∧
      FiniteMap.values
          (expectedBefore sampleCodec interruptedEvents 10).inner.log =
        [blank 2] := by
    decide +kernel
  exact ⟨(raft_log_recovers sampleCodec interruptedEvents facts.1 10).1,
    facts.2⟩

end Recovery

end KalpakDb.RaftLog
