import KalpakDb.RaftLog

namespace KalpakDb.RaftLog

/-!
# Interrupted purges of the Raft log

A purge replaces the metadata file and then the log file.  Between the two,
the files hold a purge identifier and the entries it was to remove.
-/

open Std (ExtTreeMap)
open LineLog

/-- One end of a range of indices. -/
inductive Bound where
  | included (index : Nat)
  | excluded (index : Nat)
  | unbounded

def inRange (start finish : Bound) (index : Nat) : Bool :=
  (match start with
    | .included low => decide (low ≤ index)
    | .excluded low => decide (low < index)
    | .unbounded => true) &&
  (match finish with
    | .included high => decide (index ≤ high)
    | .excluded high => decide (index < high)
    | .unbounded => true)

structure LogState where
  lastPurgedLogId : Option LogId
  lastLogId : Option LogId
  deriving DecidableEq

section Purge

variable {α : Type}

def Inner.tryGetLogEntries
    (inner : Inner α)
    (start finish : Bound) : List (Entry α) :=
  (inner.log.toList.filter fun pair => inRange start finish pair.1).map
    Prod.snd

def Inner.getLogState (inner : Inner α) : LogState where
  lastPurgedLogId := inner.lastPurged
  lastLogId :=
    (inner.log.toList.getLast?.map fun pair => pair.2.logId).or
      inner.lastPurged

/-- No purged entry is returned, and the log ends at or behind them. -/
def Sound (inner : Inner α) : Prop :=
  ∀ purged,
    inner.getLogState.lastPurgedLogId = some purged →
    (∀ start finish,
        ∀ entry ∈ inner.tryGetLogEntries start finish,
          purged.index < entry.logId.index) ∧
      ∃ last,
        inner.getLogState.lastLogId = some last ∧
          purged.index ≤ last.index

/-- When an interrupted purge leaves a sound store. -/
def PurgeSafe (inner : Inner α) (id : LogId) : PurgePoint → Prop
  | .beforeMeta => Sound inner
  | .betweenFiles =>
      ∀ (index : Nat) (entry : Entry α),
        inner.log[index]? = some entry → id.index < index
  | .afterLog => True

/-- Soundness is that the purged entries are gone from the log. -/
theorem sound_iff
    {inner : Inner α}
    (keyed : Keyed inner.log) :
    Sound inner ↔
      ∀ purged,
        inner.lastPurged = some purged →
        ∀ (index : Nat) (entry : Entry α),
          inner.log[index]? = some entry → purged.index < index := by
  constructor
  · intro sound purged isPurged index entry found
    have returned : entry ∈ inner.tryGetLogEntries .unbounded .unbounded := by
      refine List.mem_map.mpr ⟨(index, entry), ?_, rfl⟩
      exact List.mem_filter.mpr ⟨FiniteMap.mem_toList.mpr found, rfl⟩
    rw [← keyed index entry found]
    exact (sound purged isPurged).1 _ _ entry returned
  · intro gone purged isPurged
    have behind (pair : Nat × Entry α) (member : pair ∈ inner.log.toList) :
        purged.index < pair.2.logId.index := by
      have found := FiniteMap.mem_toList.mp member
      rw [keyed pair.1 pair.2 found]
      exact gone purged isPurged pair.1 pair.2 found
    refine ⟨?_, ?_⟩
    · intro start finish entry returned
      obtain ⟨pair, member, rfl⟩ := List.mem_map.mp returned
      exact behind pair (List.mem_filter.mp member).1
    · cases last : inner.log.toList.getLast? with
      | none =>
          refine ⟨purged, ?_, le_refl _⟩
          simpa [Inner.getLogState, last] using isPurged
      | some pair =>
          refine ⟨pair.2.logId, by simp [Inner.getLogState, last], ?_⟩
          exact le_of_lt (behind pair (List.mem_of_getLast? last))

/-- What a purge that ended at some point leaves is sound when it is safe. -/
theorem sound_crashPurge_iff
    {codec : Codec α}
    {inner : Inner α}
    (keyed : Keyed inner.log)
    (id : LogId)
    (point : PurgePoint) :
    Sound (expectCall codec inner (.crashPurge id point)).inner ↔
      PurgeSafe inner id point := by
  cases point with
  | beforeMeta =>
      exact Iff.rfl
  | betweenFiles =>
      have kept : Keyed
          (expectCall codec inner (.crashPurge id .betweenFiles)).inner.log :=
        keyed
      rw [sound_iff kept]
      simp [expectCall, PurgeSafe]
  | afterLog =>
      have kept : Keyed
          (expectCall codec inner (.crashPurge id .afterLog)).inner.log :=
        keyed.filter _
      rw [sound_iff kept]
      refine iff_of_true ?_ trivial
      intro purged isPurged index entry found
      obtain rfl : id = purged := Option.some.inj isPurged
      change (inner.log.filter _)[index]? = some entry at found
      rw [ExtTreeMap.getElem?_filter'] at found
      exact of_decide_eq_true (Option.filter_eq_some_iff.mp found).2

/--
A store that is reopened after an interrupted purge is sound exactly when the
purge ended before its first rename on a sound store, or after its second one,
or when no stored entry is in the purged range.
-/
theorem purge_crash_sound_iff
    (codec : Codec α)
    (events : List (Event α))
    (id : LogId)
    (point : PurgePoint)
    (lawful : Lawful codec (events ++ [.call (.crashPurge id point)]))
    (inner : Inner α)
    (running :
      (hostBefore codec events events.length).store = some inner) :
    ∃ reopened disk,
      openStore codec
          (hostBefore codec (events ++ [.call (.crashPurge id point)])
            (events.length + 1)).disk =
        .ok (reopened, disk) ∧
      (Sound reopened ↔ PurgeSafe inner id point) := by
  have present : (events ++ [.call (.crashPurge id point)])[events.length]? =
      some (.call (.crashPurge id point)) := by
    simp
  have same : hostBefore codec (events ++ [.call (.crashPurge id point)])
      events.length = hostBefore codec events events.length := by
    simp [hostBefore, StepRun.before]
  have represents := lawful.represents events.length
  have isOpen := represents.store
  rw [same, running] at isOpen
  obtain ⟨isRunning, rfl⟩ :
      (expectedBefore codec (events ++ [.call (.crashPurge id point)])
          events.length).running = true ∧
        inner = (expectedBefore codec
          (events ++ [.call (.crashPurge id point)]) events.length).inner := by
    split at isOpen
    · exact ⟨‹_›, Option.some.inj isOpen⟩
    · cases isOpen
  obtain ⟨disk, opened, _⟩ :=
    (lawful.represents (events.length + 1)).openStore_eq
  have next : expectedBefore codec
        (events ++ [.call (.crashPurge id point)]) (events.length + 1) =
      expectCall codec
        (expectedBefore codec (events ++ [.call (.crashPurge id point)])
          events.length).inner (.crashPurge id point) := by
    unfold expectedBefore at isRunning ⊢
    rw [StepRun.before_succ present, expect, if_pos isRunning]
  refine ⟨_, disk, opened, ?_⟩
  rw [next]
  exact sound_crashPurge_iff represents.keyed id point

/-- Entries are appended, and a purge ends between its two renames. -/
def purgeEvents (entries : List (Entry Unit)) (id : LogId) :
    List (Event Unit) :=
  [.reopen, .call (.append entries)] ++
    [.call (.crashPurge id .betweenFiles)]

/-- A purge below the only entry. -/
theorem purge_crash_sound_below :
    ∃ reopened disk,
      openStore sampleCodec
          (hostBefore sampleCodec
            (purgeEvents [blank 3] ⟨1, 1, 2⟩) 3).disk =
        .ok (reopened, disk) ∧
      Sound reopened := by
  have facts : Lawful sampleCodec (purgeEvents [blank 3] ⟨1, 1, 2⟩) ∧
      (hostBefore sampleCodec [.reopen, .call (.append [blank 3])] 2).store.map
        (fun inner => inner.log.toList.map Prod.fst) = some [3] := by
    decide +kernel
  obtain ⟨inner, running, indices⟩ := Option.map_eq_some_iff.mp facts.2
  obtain ⟨reopened, disk, opened, sound⟩ := purge_crash_sound_iff sampleCodec
    [.reopen, .call (.append [blank 3])] ⟨1, 1, 2⟩ .betweenFiles facts.1 inner
    running
  refine ⟨reopened, disk, opened, sound.mpr ?_⟩
  intro index entry found
  have listed : index ∈ inner.log.toList.map Prod.fst :=
    List.mem_map.mpr ⟨(index, entry), FiniteMap.mem_toList.mpr found, rfl⟩
  rw [indices, List.mem_singleton] at listed
  rw [listed]
  decide

theorem exists_ok_of_toOption
    {β γ : Type}
    {result : Except OpenError β}
    {view : β → γ}
    {value : γ}
    (seen : result.toOption.map view = some value) :
    ∃ opened, result = .ok opened ∧ view opened = value := by
  cases result with
  | error reason =>
      cases seen
  | ok opened =>
      exact ⟨opened, rfl, Option.some.inj seen⟩

/-- A purge inside the log, and one beyond its end. -/
theorem interrupted_purge_unsound :
    (∃ reopened disk,
        openStore sampleCodec
            (hostBefore sampleCodec
              (purgeEvents [blank 1, blank 2, blank 3] ⟨1, 1, 2⟩) 3).disk =
          .ok (reopened, disk) ∧
        ¬ Sound reopened) ∧
      ∃ reopened disk,
        openStore sampleCodec
            (hostBefore sampleCodec
              (purgeEvents [blank 1, blank 2, blank 3] ⟨1, 1, 5⟩) 3).disk =
          .ok (reopened, disk) ∧
        reopened.getLogState = ⟨some ⟨1, 1, 5⟩, some ⟨1, 1, 3⟩⟩ ∧
        ¬ Sound reopened := by
  have facts :
      (openStore sampleCodec
          (hostBefore sampleCodec
            (purgeEvents [blank 1, blank 2, blank 3] ⟨1, 1, 2⟩)
            3).disk).toOption.map
        (fun result => (result.1.getLogState,
          result.1.tryGetLogEntries .unbounded (.included 2))) =
          some (⟨some ⟨1, 1, 2⟩, some ⟨1, 1, 3⟩⟩, [blank 1, blank 2]) ∧
        (openStore sampleCodec
          (hostBefore sampleCodec
            (purgeEvents [blank 1, blank 2, blank 3] ⟨1, 1, 5⟩)
            3).disk).toOption.map (fun result => result.1.getLogState) =
          some ⟨some ⟨1, 1, 5⟩, some ⟨1, 1, 3⟩⟩ := by
    decide +kernel
  obtain ⟨inside, insideOpened, insideSeen⟩ := exists_ok_of_toOption facts.1
  obtain ⟨beyond, beyondOpened, beyondSeen⟩ := exists_ok_of_toOption facts.2
  obtain ⟨insideState, insideEntries⟩ := Prod.mk.inj insideSeen
  refine ⟨⟨inside.1, inside.2, insideOpened, ?_⟩,
    ⟨beyond.1, beyond.2, beyondOpened, beyondSeen, ?_⟩⟩
  · intro sound
    have purged : inside.1.getLogState.lastPurgedLogId = some ⟨1, 1, 2⟩ := by
      rw [insideState]
    have returned : blank 1 ∈
        inside.1.tryGetLogEntries .unbounded (.included 2) := by
      rw [insideEntries]
      decide
    exact absurd ((sound _ purged).1 _ _ _ returned) (by decide)
  · intro sound
    have purged : beyond.1.getLogState.lastPurgedLogId = some ⟨1, 1, 5⟩ := by
      rw [beyondSeen]
    obtain ⟨last, isLast, ordered⟩ := (sound _ purged).2
    rw [beyondSeen] at isLast
    cases isLast
    exact absurd ordered (by decide)

end Purge

end KalpakDb.RaftLog
