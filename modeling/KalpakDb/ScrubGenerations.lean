import KalpakDb.CapturedReads
import KalpakDb.OnlineScrub

namespace KalpakDb.Scrub

/-!
# The online scrub of a store in use

A step takes a view of a sealed segment: the handle that the store holds, and
the generation and length of the file that is found under the segment's path.
It then reads through the handle, or through the one of a payload it has begun
to hash, and takes the view again before it reports.  Other calls go on in
between, and a compaction replaces both the file under the path and the
handle.  A sealed file is never written again, so whatever a step reports
belongs to one file, the one whose generation it names.
-/

open Contract

/-! ## The scanner and the store -/

/-- A call that goes on beside the scanner. -/
abbrev StoreCall := { event : StoreEvent // event.isCall = true }

/-- The file behind a handle. -/
def objectAt (disk : Disk) (handle : Nat) : SegmentFile :=
  disk.objects[handle]?.getD .empty

structure SealedView where
  handle : Nat
  generation : String
  length : Nat

/-- A payload that is being hashed, and the handle that it is read through. -/
structure Pinned where
  handle : Nat
  pending : Pending

structure LiveScanner where
  cursor : Cursor
  pinned : Option Pinned := none

/-- A scanner whose payload is read from the disk as it is now. -/
def LiveScanner.resolve (live : LiveScanner) (disk : Disk) : Scanner where
  cursor := live.cursor
  pending := live.pinned.map fun pinned =>
    { pinned.pending with file := objectAt disk pinned.handle }

def LiveScanner.adopt (handle : Nat) (scanner : Scanner) : LiveScanner where
  cursor := scanner.cursor
  pinned := scanner.pending.map fun pending =>
    { handle := handle, pending := pending }

/-- The handle of the payload, or of a view if none is being hashed. -/
def LiveScanner.handle (live : LiveScanner) (viewed : Nat) : Nat :=
  (live.pinned.map Pinned.handle).getD viewed

def openLive (checkpoint : Option Cursor) : Option LiveScanner :=
  (openScanner checkpoint).map fun scanner => { cursor := scanner.cursor }

/--
What a step has read: through which handle, at which offset, with which
cursor it began, and what had been hashed when it reported.
-/
structure Observation where
  handle : Nat
  offset : Nat
  cursor : Cursor
  hashed : Bytes
  result : ScrubStep

structure LiveOutcome where
  result : Option ScrubStep
  scanner : LiveScanner
  saved : Option Cursor := none
  observation : Option Observation := none

def LiveOutcome.of (handle : Nat) (outcome : Outcome) : LiveOutcome where
  result := outcome.result
  scanner := .adopt handle outcome.scanner
  saved := outcome.saved

section Model

variable (blake3 : Bytes → BlockId) (generation : Nat → String)

/-- The handle is the store's; generation and length are the path's. -/
def sealedScrubView (node : Node) (segment : Nat) :
    Except IoError (Option SealedView) :=
  if segment ≥ node.store.files.length - 1 then
    .ok none
  else
    match node.store.files[segment]?, node.disk.segments[segment]? with
    | some handle, some named =>
        .ok (some {
          handle := handle
          generation := generation named
          length := (objectAt node.disk named).bytes.length })
    | _, _ => .error .failed

/-- The cursor that a step saves before it reads. -/
def LiveScanner.firstSave
    (live : LiveScanner)
    (view : SealedView) : Option Cursor :=
  if live.cursor.generation = some view.generation then
    none
  else
    some (Scanner.synchronize { cursor := live.cursor }
      view.generation).cursor

/--
`OnlineScrubber::step`, with the store when the view is taken, when the file
is read, and when the view is taken again.
-/
def LiveScanner.step
    (viewed read rechecked : Node)
    (foreground : Bool)
    (live : LiveScanner) : LiveOutcome :=
  if foreground then
    { result := some { yielded := true }, scanner := live }
  else
    match sealedScrubView generation viewed live.cursor.segment with
    | .error _ => { result := none, scanner := live }
    | .ok none =>
        .of (live.handle 0) (live.resolve viewed.disk).wrap
    | .ok (some view) =>
        let synchronized :=
          (live.resolve read.disk).synchronize view.generation
        let changed := live.cursor.generation ≠ some view.generation
        let reset := changed && live.cursor.generation.isSome
        let handle := if changed then view.handle else live.handle view.handle
        let first := live.firstSave view
        if synchronized.cursor.offset ≥ view.length then
          let outcome := synchronized.leaveSegment reset
          .of handle { outcome with saved := outcome.saved.or first }
        else
          let file := objectAt read.disk view.handle
          let look := synchronized.look blake3 file
          match sealedScrubView generation rechecked live.cursor.segment with
          | .error _ =>
              { result := none
                scanner :=
                  .adopt handle { synchronized with pending := look.pending }
                saved := first }
          | .ok current =>
              let outcome := synchronized.publish reset
                ⟨file, view.generation⟩
                (current.map fun view =>
                  ⟨objectAt rechecked.disk view.handle, view.generation⟩)
                look
              { LiveOutcome.of handle
                  { outcome with saved := outcome.saved.or first } with
                observation := outcome.result.map fun result =>
                  { handle := handle
                    offset := synchronized.cursor.offset
                    cursor := live.cursor
                    hashed := (look.pending.map Pending.hashed).getD []
                    result := result } }

/-! ## Runs -/

/-- The store, the checkpoint, the scanner and what its steps have read. -/
structure Scrubbing where
  node : Node
  checkpoint : Option Cursor
  scanner : Option LiveScanner
  observed : List Observation := []

/-- The scanner is opened on the checkpoint that is there. -/
def Scrubbing.start (node : Node) (checkpoint : Option Cursor) :
    Scrubbing where
  node := node
  checkpoint := checkpoint
  scanner := openLive checkpoint

/--
A call of the store; a step, with the calls that end before it reads and
before it takes the view again; a step that is killed after its first save;
the scanner is opened again; the whole process is started again.
-/
inductive ScrubEvent where
  | call (call : StoreCall)
  | step
      (foreground : Bool)
      (beforeRead beforeRecheck : List StoreCall)
  | killed
  | reopen
  | restart (rollBytes : Nat)

/-- The store after some calls. -/
def afterCalls (node : Node) (calls : List StoreCall) : Node :=
  StepRun.after (stepEvent blake3) node (calls.map Subtype.val)

def stepScrubbing (state : Scrubbing) : ScrubEvent → Scrubbing
  | .call call =>
      { state with node := afterCalls blake3 state.node [call] }
  | .step foreground beforeRead beforeRecheck =>
      let read := afterCalls blake3 state.node beforeRead
      let rechecked := afterCalls blake3 read beforeRecheck
      match state.scanner with
      | none => { state with node := rechecked }
      | some live =>
          let outcome :=
            live.step blake3 generation state.node read rechecked foreground
          { node := rechecked
            checkpoint := outcome.saved.or state.checkpoint
            scanner := some outcome.scanner
            observed := state.observed ++ outcome.observation.toList }
  | .killed =>
      match state.scanner with
      | none => state
      | some live =>
          match sealedScrubView generation state.node live.cursor.segment with
          | .ok (some view) =>
              let checkpoint := (live.firstSave view).or state.checkpoint
              { state with
                checkpoint := checkpoint
                scanner := openLive checkpoint }
          | _ => { state with scanner := openLive state.checkpoint }
  | .reopen => { state with scanner := openLive state.checkpoint }
  | .restart rollBytes =>
      { state with
        node := state.node.disk.opened rollBytes
        scanner := openLive state.checkpoint }

end Model

/-! ## Sealed files -/

/-- A file that no call writes to: it is not that of the last segment. -/
structure Frozen (handle : Nat) (file : SegmentFile) (disk : Disk) :
    Prop where
  stored : disk.objects[handle]? = some file
  apart : disk.Apart handle
  notLast :
    ∃ handles contents,
      disk.Files handles contents ∧ handles ≠ [] ∧
        handles.getLast? ≠ some handle

section Sealed

variable {blake3 : Bytes → BlockId} {generation : Nat → String}
  {node final : Node} {handle segment : Nat} {file : SegmentFile}

/-- A directory has one list of handles. -/
theorem handles_eq
    {disk : Disk}
    {first second : List Nat}
    {contents others : List Bytes}
    (files : disk.Files first contents)
    (same : disk.Files second others) :
    first = second := by
  apply List.ext_getElem?
  intro position
  rw [← files.entries, ← same.entries]

theorem Frozen.objectAt_eq
    (frozen : Frozen handle file node.disk) :
    objectAt node.disk handle = file := by
  rw [objectAt, frozen.stored, Option.getD_some]

/-- What a call carries includes every sealed file. -/
theorem Frozen.carried
    (frozen : Frozen handle file node.disk)
    (sound : node.Sound False)
    (isOpen : node.store.files ≠ [])
    (carried : Carried False node final) :
    Frozen handle file final.disk := by
  obtain ⟨handles, contents, files, -, notLast⟩ := frozen.notLast
  obtain ⟨⟨tableContents, table⟩, -⟩ := sound.opened.resolve_left isOpen
  obtain rfl := handles_eq files table
  obtain ⟨later, present, apart, same, -⟩ :=
    carried.objects handle file frozen.apart frozen.stored
  obtain ⟨⟨finalContents, finalTable⟩, -⟩ :=
    carried.sound.opened.resolve_left carried.isOpen
  refine {
    stored := by rw [present, same (Or.inr notLast)]
    apart := apart
    notLast := ⟨_, _, finalTable, carried.isOpen, ?_⟩ }
  rcases carried.active with ⟨last, -⟩ | ⟨new, last, fresh⟩
  · rw [last]
    exact notLast
  · rw [last]
    have within := (List.getElem?_eq_some_iff.mp frozen.stored).1
    rintro ⟨⟩
    omega

/-- A call on a directory that could not be opened leaves the disk alone. -/
theorem stepEvent_closed
    (closed : node.store.files = [])
    {event : StoreEvent}
    (call : event.isCall = true) :
    (stepEvent blake3 node event).disk = node.disk := by
  have batch (fault : Option Fault) (payloads : List Payload)
      (isRepair : Bool) :
      Ends (putManyInner blake3 payloads isRepair)
        { node with fault := fault }
        (fun _ final => final.disk = node.disk)
        (fun _ final => final.disk = node.disk) := by
    simp only [putManyInner, ends_bind, ends_get]
    split
    · rfl
    · simp only [appendAll, ends_bind, ends_get, ends_onFailure, closed,
        List.getLast?_nil, ends_throw]
  cases event with
  | putMany fault payloads =>
      exact (batch fault payloads false).final
  | repair fault id payload =>
      have ends : Ends (repair blake3 id payload) { node with fault := fault }
          (fun _ final => final.disk = node.disk)
          (fun _ final => final.disk = node.disk) :=
        ends_repair_of_append rfl fun _ => batch fault [payload] true
      exact ends.final
  | compact fault live order =>
      have ends : Ends (compact blake3 live order) { node with fault := fault }
          (fun _ final => final.disk = node.disk)
          (fun _ final => final.disk = node.disk) := by
        simp only [compact, ends_bind, ends_get, closed, List.length_nil,
          Nat.zero_sub, List.range_zero, List.foldlM_nil, ends_pure]
      exact ends.final
  | damage segment position bytes =>
      cases call
  | reopen rollBytes =>
      cases call

/-- One call leaves a sealed file as it is. -/
theorem Frozen.stepEvent
    (frozen : Frozen handle file node.disk)
    (sound : node.Sound False)
    {event : StoreEvent}
    (call : event.isCall = true) :
    Frozen handle file (stepEvent blake3 node event).disk := by
  by_cases closed : node.store.files = []
  · rw [stepEvent_closed closed call]
    exact frozen
  · exact frozen.carried sound closed (sound.carried closed call)

/-- Some calls keep the store sound and every sealed file as it is. -/
theorem afterCalls_keeps
    (sound : node.Sound False)
    (calls : List StoreCall) :
    (afterCalls blake3 node calls).Sound False ∧
      ∀ (handle : Nat) (file : SegmentFile),
        Frozen handle file node.disk →
          Frozen handle file (afterCalls blake3 node calls).disk := by
  rw [afterCalls, StepRun.after_eq_before]
  refine StepRun.holds_before
    (fun state : Node =>
      state.Sound False ∧
        ∀ (handle : Nat) (file : SegmentFile),
          Frozen handle file node.disk → Frozen handle file state.disk)
    ⟨sound, fun _ _ frozen => frozen⟩ ?_ _
  rintro position event present ⟨reached, kept⟩
  obtain ⟨⟨call, isCall⟩, -, rfl⟩ :=
    List.mem_map.mp (List.mem_of_getElem? present)
  refine ⟨reached.step call False.elim, fun handle file frozen => ?_⟩
  exact (kept handle file frozen).stepEvent reached isCall

/-- A new process finds every sealed file as it was. -/
theorem Frozen.opened
    (frozen : Frozen handle file node.disk)
    (rollBytes : Nat) :
    Frozen handle file (node.disk.opened rollBytes).disk := by
  obtain ⟨handles, contents, files, nonempty, -⟩ := frozen.notLast
  rw [files.opened_disk nonempty rollBytes]
  exact frozen

/-- A view names the sealed file that its handle leads to. -/
theorem sealedScrubView_cases
    (generation : Nat → String)
    (sound : node.Sound False)
    (segment : Nat) :
    sealedScrubView generation node segment = .ok none ∨
      ∃ (handle : Nat) (file : SegmentFile),
        Frozen handle file node.disk ∧
          sealedScrubView generation node segment =
            .ok (some ⟨handle, generation handle, file.bytes.length⟩) := by
  unfold sealedScrubView
  split
  · exact Or.inl rfl
  · rename_i inside
    have within : segment < node.store.files.length := by omega
    have named := List.getElem?_eq_getElem within
    have isOpen := List.ne_nil_of_mem (List.getElem_mem within)
    obtain ⟨regular, -⟩ := sound.opened.resolve_left isOpen
    obtain ⟨file, found⟩ := regular.file_of_mem (List.getElem_mem within)
    have onPath := regular
    obtain ⟨contents, files⟩ := onPath
    have frozen : Frozen node.store.files[segment] file node.disk := by
      refine {
        stored := found
        apart := fun other named =>
          (files.temporariesApart other _ named).2 (List.getElem_mem within)
        notLast := ⟨_, contents, files, isOpen, ?_⟩ }
      intro last
      have := regular.last_of_active named last
      omega
    refine Or.inr ⟨node.store.files[segment], file, frozen, ?_⟩
    simp only [files.entries, named, frozen.objectAt_eq]

end Sealed

/-! ## One step -/

/-- An observation is about one file, and so is the cursor it was made with. -/
structure Observation.Faithful
    (blake3 : Bytes → BlockId)
    (generation : Nat → String)
    (observation : Observation)
    (file : SegmentFile) : Prop where
  findings :
    ∀ finding ∈ observation.result.findings,
      finding.generation = generation observation.handle ∧
        finding.offset = observation.offset ∧
        (inspect blake3 file.bytes finding.offset).bad =
          some (finding.kind, finding.block)
  verified :
    observation.result.verified ≠ 0 →
      ∃ record,
        (inspect blake3 file.bytes observation.offset).verified =
            some record ∧
          observation.hashed =
            payloadAt file.bytes observation.offset record.payloadLen
  cursor :
    observation.offset ≠ 0 →
      observation.cursor.generation =
          some (generation observation.handle) ∧
        observation.cursor.offset = observation.offset

/-- A payload is read from the file that the cursor's generation names. -/
def LiveScanner.Sound
    (generation : Nat → String)
    (disk : Disk)
    (live : LiveScanner) : Prop :=
  ∀ pinned : Pinned,
    live.pinned = some pinned →
      live.cursor.generation = some (generation pinned.handle) ∧
        ∃ file : SegmentFile,
          Frozen pinned.handle file disk ∧
            Pending.Reads { pinned.pending with file := file } file
              live.cursor.offset

section Step

variable {blake3 : Bytes → BlockId} {generation : Nat → String} {node : Node}
  {live : LiveScanner} {handle : Nat} {file : SegmentFile} {scanner : Scanner}
  {disk : Disk}

/-- A payload that is verified is the one that was hashed. -/
theorem Pending.Reads.verified_hashed
    {pending : Pending}
    {offset : Nat}
    (reads : pending.Reads file offset)
    (verified : (pending.look blake3 offset).verified = true) :
    ∃ record,
      (inspect blake3 file.bytes offset).verified = some record ∧
        ((pending.look blake3 offset).pending.map Pending.hashed).getD [] =
          payloadAt file.bytes offset record.payloadLen := by
  have hashed := reads.feed_hashed
  unfold Pending.look at verified ⊢
  dsimp only at verified ⊢
  split at verified
  · rename_i finished
    have whole : (pending.feed offset).hashed =
        payloadAt file.bytes offset pending.length := by
      rw [hashed, finished]
      exact List.take_of_length_le (List.length_take_le _ _)
    split at verified
    · rename_i digest
      rw [if_pos finished, if_pos digest]
      refine ⟨⟨pending.id, pending.length⟩, ?_, whole⟩
      rw [whole] at digest
      rw [inspect, reads.classified]
      exact congrArg Inspection.verified (if_pos digest)
    · cases verified
  · cases verified

theorem lookHeader_verified_hashed
    {offset : Nat}
    (verified : (lookHeader blake3 file offset).verified = true) :
    ∃ record,
      (inspect blake3 file.bytes offset).verified = some record ∧
        ((lookHeader blake3 file offset).pending.map
            Pending.hashed).getD [] =
          payloadAt file.bytes offset record.payloadLen := by
  unfold lookHeader at verified ⊢
  dsimp only at verified ⊢
  cases classified : classify file.bytes offset with
  | bad kind block =>
      rw [classified] at verified
      cases verified
  | hash record total =>
      rw [classified] at verified
      dsimp only at verified ⊢
      split at verified
      · rename_i empty
        have nothing : payloadAt file.bytes offset record.payloadLen = [] := by
          rw [payloadAt, empty, List.take_zero]
        split at verified
        · rename_i digest
          rw [if_pos empty, if_pos digest]
          refine ⟨record, ?_, nothing.symm⟩
          rw [inspect, classified]
          refine congrArg Inspection.verified (if_pos ?_)
          rw [nothing]
          exact digest.symm
        · cases verified
      · cases verified

/-- The cursor is on the view's generation, with an offset that belongs to it. -/
structure Synchronized
    (generation : Nat → String)
    (handle : Nat)
    (file : SegmentFile)
    (live : LiveScanner)
    (scanner : Scanner) : Prop where
  names : scanner.cursor.generation = some (generation handle)
  pending :
    ∀ pending : Pending,
      scanner.pending = some pending →
        pending.Reads file scanner.cursor.offset
  offset :
    scanner.cursor.offset ≠ 0 →
      live.cursor.generation = some (generation handle) ∧
        live.cursor.offset = scanner.cursor.offset

theorem LiveScanner.Sound.synchronized
    (distinct :
      ∀ first second, generation first = generation second →
        first = second)
    (sound : live.Sound generation node.disk)
    (frozen : Frozen handle file node.disk) :
    Synchronized generation handle file live
      ((live.resolve node.disk).synchronize (generation handle)) := by
  unfold Scanner.synchronize
  split
  · rename_i same
    refine {
      names := same
      pending := ?_
      offset := fun _ => ⟨same, rfl⟩ }
    intro pending isPending
    obtain ⟨pinned, isPinned, rfl⟩ := Option.map_eq_some_iff.mp isPending
    obtain ⟨names, other, otherFrozen, reads⟩ := sound pinned isPinned
    obtain rfl : pinned.handle = handle := by
      apply distinct
      rw [← Option.some.injEq, ← names]
      exact same
    obtain rfl : other = file := by
      rw [← Option.some.injEq, ← otherFrozen.stored, frozen.stored]
    rw [frozen.objectAt_eq]
    exact reads
  · exact {
      names := rfl
      pending := fun _ isPending => nomatch isPending
      offset := fun moved => absurd rfl moved }

/-- The handle that is read through is the view's. -/
theorem LiveScanner.Sound.handle_eq
    (distinct :
      ∀ first second, generation first = generation second →
        first = second)
    (sound : live.Sound generation node.disk)
    (same : live.cursor.generation = some (generation handle)) :
    live.handle handle = handle := by
  unfold LiveScanner.handle
  cases isPinned : live.pinned with
  | none =>
      rfl
  | some pinned =>
      have names := (sound pinned isPinned).1
      apply distinct
      rw [← Option.some.injEq, ← same, names]
      rfl

theorem Synchronized.look_agrees
    (synchronized : Synchronized generation handle file live scanner) :
    (scanner.look blake3 file).Agrees blake3 file scanner.cursor.offset := by
  unfold Scanner.look
  cases isPending : scanner.pending with
  | none =>
      exact lookHeader_agrees blake3 file _
  | some pending =>
      exact (synchronized.pending pending isPending).look_agrees

theorem Synchronized.verified_hashed
    (synchronized : Synchronized generation handle file live scanner)
    (verified : (scanner.look blake3 file).verified = true) :
    ∃ record,
      (inspect blake3 file.bytes scanner.cursor.offset).verified =
          some record ∧
        ((scanner.look blake3 file).pending.map Pending.hashed).getD [] =
          payloadAt file.bytes scanner.cursor.offset
            record.payloadLen := by
  unfold Scanner.look at verified ⊢
  cases isPending : scanner.pending with
  | none =>
      rw [isPending] at verified
      exact lookHeader_verified_hashed verified
  | some pending =>
      rw [isPending] at verified
      exact (synchronized.pending pending isPending).verified_hashed verified

/-- A scanner on a sealed file, with the handle of that file. -/
theorem adopt_sound
    (frozen : Frozen handle file disk)
    (reads :
      ∀ pending : Pending,
        scanner.pending = some pending →
          scanner.cursor.generation = some (generation handle) ∧
            pending.Reads file scanner.cursor.offset) :
    (LiveScanner.adopt handle scanner).Sound generation disk := by
  intro pinned isPinned
  obtain ⟨pending, isPending, rfl⟩ := Option.map_eq_some_iff.mp isPinned
  obtain ⟨names, pendingReads⟩ := reads pending isPending
  refine ⟨names, file, frozen, ?_⟩
  have same := pendingReads.sameFile
  subst same
  exact pendingReads

/-- A scanner without a payload. -/
theorem sound_of_unpinned
    (unpinned : live.pinned = none) :
    live.Sound generation disk := by
  intro pinned isPinned
  rw [unpinned] at isPinned
  cases isPinned

/-- The end of a sweep leaves the scanner as it is, or without a payload. -/
theorem LiveScanner.Sound.wrap
    (sound : live.Sound generation disk)
    (viewed : Disk) :
    (LiveOutcome.of (live.handle 0)
      (live.resolve viewed).wrap).scanner.Sound generation disk := by
  unfold Scanner.wrap
  split
  · exact sound_of_unpinned rfl
  · intro pinned isPinned
    obtain ⟨pending, isPending, rfl⟩ := Option.map_eq_some_iff.mp isPinned
    obtain ⟨before, wasPinned, rfl⟩ := Option.map_eq_some_iff.mp isPending
    have sameHandle : live.handle 0 = before.handle := by
      rw [LiveScanner.handle, wasPinned]
      rfl
    rw [sameHandle]
    exact sound before wasPinned

/-- What a step publishes, and how the scanner goes on. -/
theorem publish_cases
    {look : Look}
    (agrees : look.Agrees blake3 file scanner.cursor.offset)
    (reset : Bool)
    (view : SealedFile)
    (current : Option SealedFile) :
    let outcome := scanner.publish reset view current look
    (∀ pending : Pending,
      outcome.scanner.pending = some pending →
        outcome.scanner.cursor = scanner.cursor ∧
          pending.Reads file scanner.cursor.offset) ∧
    ∀ result : ScrubStep,
      outcome.result = some result →
        (∀ finding ∈ result.findings,
          finding.generation = view.generation ∧
            finding.offset = scanner.cursor.offset ∧
            (inspect blake3 file.bytes finding.offset).bad =
              some (finding.kind, finding.block)) ∧
        (result.verified ≠ 0 → look.verified = true) := by
  unfold Scanner.publish
  dsimp only
  split
  · cases agrees with
    | reading pending isPending reads noFinding notVerified noNext =>
        have next :
            (if look.bad.isSome = true then
                some (nextCandidate scanner.cursor.offset)
              else look.next) = none := by
          rw [noFinding, noNext]
          rfl
        rw [next]
        refine ⟨?_, ?_⟩
        · intro other isOther
          have same : look.pending = some other := isOther
          rw [isPending] at same
          cases same
          exact ⟨rfl, reads⟩
        · intro result isResult
          cases isResult
          rw [noFinding, notVerified]
          exact ⟨fun _ member => (nomatch member),
            fun moved => absurd rfl moved⟩
    | decided sameFinding sameVerified sameNext =>
        rw [sameNext]
        refine ⟨fun _ isPending => (by cases isPending), ?_⟩
        intro result isResult
        cases isResult
        refine ⟨?_, ?_⟩
        · intro finding member
          obtain ⟨bad, isBad, rfl⟩ := List.mem_map.mp member
          refine ⟨rfl, rfl, ?_⟩
          rw [← sameFinding, Option.mem_toList.mp isBad]
        · intro counted
          dsimp only at counted
          split at counted
          · assumption
          · exact absurd rfl counted
  · refine ⟨fun _ isPending => (by cases isPending), ?_⟩
    intro result isResult
    cases isResult
    exact ⟨fun _ member => (nomatch member),
      fun moved => absurd rfl moved⟩

/--
A step leaves the scanner on one file, and what it reports is about that
file, whatever calls end between its view, its read and its second view.
-/
theorem LiveScanner.Sound.step
    (distinct :
      ∀ first second, generation first = generation second →
        first = second)
    {viewed read rechecked : Node}
    (sound : live.Sound generation viewed.disk)
    (viewedSound : viewed.Sound False)
    (recheckedSound : rechecked.Sound False)
    (readKeeps :
      ∀ (handle : Nat) (file : SegmentFile),
        Frozen handle file viewed.disk → Frozen handle file read.disk)
    (recheckedKeeps :
      ∀ (handle : Nat) (file : SegmentFile),
        Frozen handle file read.disk → Frozen handle file rechecked.disk)
    (foreground : Bool) :
    let outcome :=
      live.step blake3 generation viewed read rechecked foreground
    outcome.scanner.Sound generation rechecked.disk ∧
      ∀ observation : Observation,
        outcome.observation = some observation →
          ∃ file : SegmentFile,
            Frozen observation.handle file rechecked.disk ∧
              observation.Faithful blake3 generation file := by
  have moved {disk : Disk}
      (keeps :
        ∀ (handle : Nat) (file : SegmentFile),
          Frozen handle file viewed.disk → Frozen handle file disk) :
      live.Sound generation disk := by
    intro pinned isPinned
    obtain ⟨names, file, frozen, reads⟩ := sound pinned isPinned
    exact ⟨names, file, keeps _ _ frozen, reads⟩
  have unmoved := moved fun handle file frozen =>
    recheckedKeeps handle file (readKeeps handle file frozen)
  unfold LiveScanner.step
  dsimp only
  split
  · exact ⟨unmoved, fun _ observed => nomatch observed⟩
  · rcases sealedScrubView_cases generation viewedSound
        live.cursor.segment with
      nothing | ⟨handle, file, frozen, isView⟩
    · rw [nothing]
      exact ⟨unmoved.wrap viewed.disk, fun _ observed => nomatch observed⟩
    · rw [isView]
      have inRead := readKeeps handle file frozen
      have inRechecked := recheckedKeeps handle file inRead
      have synchronized :=
        (moved readKeeps).synchronized distinct inRead
      have sameHandle :
          (if live.cursor.generation ≠ some (generation handle) then handle
            else live.handle handle) = handle := by
        split
        · rfl
        · rename_i same
          exact sound.handle_eq distinct (not_not.mp same)
      dsimp only
      rw [sameHandle, inRead.objectAt_eq]
      split
      · refine ⟨adopt_sound inRechecked ?_, fun _ observed => nomatch observed⟩
        intro pending isPending
        unfold Scanner.leaveSegment at isPending ⊢
        split at isPending
        · cases isPending
        · rename_i last
          rw [if_neg last]
          exact ⟨synchronized.names, synchronized.pending pending isPending⟩
      · obtain ⟨current, isCurrent⟩ :
            ∃ current, sealedScrubView generation rechecked
              live.cursor.segment = .ok current := by
          rcases sealedScrubView_cases generation recheckedSound
              live.cursor.segment with gone | ⟨_, _, _, found⟩
          · exact ⟨_, gone⟩
          · exact ⟨_, found⟩
        rw [isCurrent]
        dsimp only
        have agrees : (Scanner.look blake3 _ file).Agrees blake3 file _ :=
          synchronized.look_agrees
        obtain ⟨goesOn, published⟩ :=
          publish_cases agrees _ ⟨file, generation handle⟩ _
        refine ⟨adopt_sound inRechecked ?_, ?_⟩
        · intro pending isPending
          obtain ⟨sameCursor, reads⟩ := goesOn pending isPending
          dsimp only
          rw [sameCursor]
          exact ⟨synchronized.names, reads⟩
        · intro observation observed
          obtain ⟨result, isResult, rfl⟩ :=
            Option.map_eq_some_iff.mp observed
          obtain ⟨findings, verified⟩ := published result isResult
          refine ⟨file, inRechecked, ?_⟩
          exact {
            findings := findings
            verified := fun counted =>
              synchronized.verified_hashed (verified counted)
            cursor := synchronized.offset }

end Step

/-! ## Every run -/

/-- The store, the scanner, and what was observed of sealed files. -/
structure Scrubbing.Sound
    (blake3 : Bytes → BlockId)
    (generation : Nat → String)
    (state : Scrubbing) : Prop where
  node : state.node.Sound False
  scanner :
    ∀ live : LiveScanner,
      state.scanner = some live → live.Sound generation state.node.disk
  observed :
    ∀ observation ∈ state.observed,
      ∃ file : SegmentFile,
        Frozen observation.handle file state.node.disk ∧
          observation.Faithful blake3 generation file

section Run

variable {blake3 : Bytes → BlockId} {generation : Nat → String}
  {state : Scrubbing}

/-- A scanner that is opened has no payload. -/
theorem openLive_sound
    (generation : Nat → String)
    (disk : Disk)
    (checkpoint : Option Cursor)
    (live : LiveScanner)
    (opened : openLive checkpoint = some live) :
    live.Sound generation disk := by
  obtain ⟨scanner, -, rfl⟩ := Option.map_eq_some_iff.mp opened
  exact sound_of_unpinned rfl

/-- The store goes on and the sealed files stay as they are. -/
theorem Scrubbing.Sound.advance
    (sound : state.Sound blake3 generation)
    {node : Node}
    (keeps :
      ∀ (handle : Nat) (file : SegmentFile),
        Frozen handle file state.node.disk → Frozen handle file node.disk) :
    (∀ live : LiveScanner,
      state.scanner = some live → live.Sound generation node.disk) ∧
    ∀ observation ∈ state.observed,
      ∃ file : SegmentFile,
        Frozen observation.handle file node.disk ∧
          observation.Faithful blake3 generation file := by
  refine ⟨?_, ?_⟩
  · intro live isLive pinned isPinned
    obtain ⟨names, file, frozen, reads⟩ :=
      sound.scanner live isLive pinned isPinned
    exact ⟨names, file, keeps _ _ frozen, reads⟩
  · intro observation member
    obtain ⟨file, frozen, faithful⟩ := sound.observed observation member
    exact ⟨file, keeps _ _ frozen, faithful⟩

theorem Scrubbing.Sound.reopened
    (sound : state.Sound blake3 generation)
    (checkpoint : Option Cursor) :
    Scrubbing.Sound blake3 generation
      { state with
        checkpoint := checkpoint
        scanner := openLive checkpoint } where
  node := sound.node
  scanner := openLive_sound generation state.node.disk checkpoint
  observed := sound.observed

theorem Scrubbing.Sound.step
    (distinct :
      ∀ first second, generation first = generation second →
        first = second)
    (sound : state.Sound blake3 generation)
    (event : ScrubEvent) :
    (stepScrubbing blake3 generation state event).Sound blake3
      generation := by
  cases event with
  | call call =>
      obtain ⟨nodeSound, keeps⟩ := afterCalls_keeps sound.node [call]
      obtain ⟨scanner, observed⟩ := sound.advance keeps
      exact ⟨nodeSound, scanner, observed⟩
  | step foreground beforeRead beforeRecheck =>
      obtain ⟨readSound, readKeeps⟩ :=
        afterCalls_keeps sound.node beforeRead
      obtain ⟨recheckedSound, recheckedKeeps⟩ :=
        afterCalls_keeps readSound beforeRecheck
      obtain ⟨scanner, observed⟩ := sound.advance
        fun handle file frozen =>
          recheckedKeeps handle file (readKeeps handle file frozen)
      unfold stepScrubbing
      dsimp only
      cases isLive : state.scanner with
      | none =>
          exact ⟨recheckedSound, fun _ opened => (nomatch opened), observed⟩
      | some live =>
          obtain ⟨goesOn, reported⟩ :=
            (sound.scanner live isLive).step distinct sound.node
              recheckedSound readKeeps recheckedKeeps foreground
          refine ⟨recheckedSound, ?_, ?_⟩
          · rintro next ⟨⟩
            exact goesOn
          · intro observation member
            rcases List.mem_append.mp member with old | new
            · exact observed observation old
            · exact reported observation (Option.mem_toList.mp new)
  | killed =>
      unfold stepScrubbing
      dsimp only
      split
      · exact sound
      · split
        · exact sound.reopened _
        · exact sound.reopened state.checkpoint
  | reopen =>
      exact sound.reopened state.checkpoint
  | restart rollBytes =>
      obtain ⟨handles, contents, files⟩ := sound.node.directory
      have nodeSound : (state.node.disk.opened rollBytes).Sound False :=
        files.opened False.elim rollBytes
      obtain ⟨-, observed⟩ := sound.advance
        fun handle file frozen => frozen.opened rollBytes
      exact ⟨nodeSound, openLive_sound generation _ state.checkpoint,
        observed⟩

end Run

/--
Whatever calls replace, append and restart while the scanner works: every
finding is what inspecting the file of its generation yields, a verified
record was hashed from one file, and an offset other than the start is only
used on the file whose generation the cursor names.
-/
theorem verdicts_never_mix_generations
    (blake3 : Bytes → BlockId)
    (disk : Disk)
    (handles : List Nat)
    (contents : List Bytes)
    (files : disk.Files handles contents)
    (rollBytes : Nat)
    (history : List StoreEvent)
    (generation : Nat → String)
    (distinct :
      ∀ first second, generation first = generation second →
        first = second)
    (checkpoint : Option Cursor)
    (events : List ScrubEvent) :
    let node := StepRun.after (stepEvent blake3) (disk.opened rollBytes)
      history
    let final := StepRun.after (stepScrubbing blake3 generation)
      (.start node checkpoint) events
    ∀ observation ∈ final.observed,
      ∃ file : SegmentFile,
        final.node.disk.objects[observation.handle]? = some file ∧
          observation.Faithful blake3 generation file := by
  intro node final observation member
  have nodeSound : node.Sound False := by
    rw [show node = _ from StepRun.after_eq_before]
    exact files.sound rollBytes history _
  have started : (Scrubbing.start node checkpoint).Sound blake3
      generation := {
    node := nodeSound
    scanner := openLive_sound generation node.disk checkpoint
    observed := fun _ member => nomatch member }
  have sound : final.Sound blake3 generation :=
    StepRun.invariant_after (fun state event reached =>
      reached.step distinct event) events started
  obtain ⟨file, frozen, faithful⟩ := sound.observed observation member
  exact ⟨file, frozen.stored, faithful⟩

/-- A generation for each file. -/
def sampleGeneration (handle : Nat) : String :=
  String.ofList (List.replicate handle 'g')

/-- A sealed segment of two blocks, of which the first one is damaged. -/
def damagedHistory : List StoreEvent :=
  [.putMany none [oneByte, zeroByte], .putMany none [zeroPages],
    .damage 0 0 [9]]

/-- A compaction that drops the damaged block. -/
def dropDamaged : StoreCall :=
  ⟨.compact none (fun id => id ≠ sampleBlake3 [1]) .sorted, rfl⟩

/-- The segment is replaced between a view and its read. -/
def replacedInStep : List ScrubEvent :=
  [.step false [] [], .step false [] [], .step false [dropDamaged] [],
    .step false [] [], .killed, .step false [] [], .step false [] []]

theorem verdicts_never_mix_generations_replaced :
    let node := StepRun.after (stepEvent sampleBlake3)
      (({} : Disk).opened 8192) damagedHistory
    let final := StepRun.after (stepScrubbing sampleBlake3 sampleGeneration)
      (.start node none) replacedInStep
    final.observed.map (fun observation =>
      (observation.handle, observation.offset,
        observation.result.findings.length, observation.result.verified)) =
      [(0, 0, 0, 0), (0, 0, 1, 0), (0, 4096, 0, 0), (2, 0, 0, 0),
        (2, 0, 0, 0), (2, 0, 0, 1)] ∧
    ∀ observation ∈ final.observed,
      ∃ file : SegmentFile,
        final.node.disk.objects[observation.handle]? = some file ∧
          observation.Faithful sampleBlake3 sampleGeneration file := by
  have distinct (first second : Nat)
      (same : sampleGeneration first = sampleGeneration second) :
      first = second := by
    have sameLength := congrArg (fun text => text.toList.length) same
    simpa [sampleGeneration] using sameLength
  refine ⟨by decide +kernel, ?_⟩
  exact verdicts_never_mix_generations sampleBlake3 {} [] [] .empty 8192
    damagedHistory sampleGeneration distinct none replacedInStep

end KalpakDb.Scrub
