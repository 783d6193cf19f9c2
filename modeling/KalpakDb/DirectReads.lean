import KalpakDb.SegmentFiles

namespace KalpakDb

/-!
# Reading through aligned windows

A direct backend cannot read at any offset: it reads the 4 KiB blocks around
the bytes that are asked for and cuts these out.  If the file ends behind the
bytes but within the last block, such a read fails where a plain one succeeds.
Both backends open the same directory below, and then look up blocks.
-/

open Std (ExtTreeMap)
open Contract

/-! ## Backends -/

def alignDown (value : Nat) : Nat := value / blockAlign * blockAlign

def alignUp (value : Nat) : Nat :=
  (value + (blockAlign - 1)) / blockAlign * blockAlign

/-- The end of the window around some bytes; it has at least one block. -/
def windowEnd (offset count : Nat) : Nat :=
  alignDown offset +
    max (alignUp (offset + count) - alignDown offset) blockAlign

/-- `UringFile::read_at` of a file opened for direct access. -/
def directRead (bytes : Bytes) (offset count : Nat) : Option Bytes :=
  let start := alignDown offset
  let stop := alignUp (offset + count)
  match ByteFile.readAt bytes start (max (stop - start) blockAlign) with
  | none => none
  | some window => some ((window.drop (offset - start)).take count)

inductive Backend where
  | std
  | uring
  deriving DecidableEq

namespace Backend

/-- Read exactly so many bytes; `none` past the end of the file. -/
def read : Backend → Bytes → Nat → Nat → Option Bytes
  | .std => ByteFile.readAt
  | .uring => directRead

/-- The record at an offset and the offset after it, unless the scan stops. -/
def scanStep
    (backend : Backend)
    (bytes : Bytes)
    (offset : Nat) : Except Failure (Option (RecordHeader × Nat)) :=
  if offset + headerLen ≤ bytes.length then
    match backend.read bytes offset headerLen with
    | none => .error (.io .unexpectedEof)
    | some header =>
        match parseHeader header with
        | none => .ok none
        | some record =>
            let next := (offset + recordLen record.payloadLen) % 2 ^ 64
            .ok (if next > bytes.length then none else some (record, next))
  else
    .ok none

def scanFrom
    (backend : Backend)
    (segment : Nat)
    (bytes : Bytes) :
    Nat → Nat → Except Failure (List (BlockId × Location) × Nat)
  | 0, _ => .error .diverged
  | fuel + 1, offset =>
      match backend.scanStep bytes offset with
      | .error failure => .error failure
      | .ok none => .ok ([], offset)
      | .ok (some (record, next)) =>
          match backend.scanFrom segment bytes fuel next with
          | .error failure => .error failure
          | .ok result =>
              .ok ((record.id, {
                segment := segment
                offset := offset
                payloadLen := record.payloadLen }) :: result.1,
                result.2)

def scan
    (backend : Backend)
    (segment : Nat)
    (bytes : Bytes) : Except Failure (List (BlockId × Location) × Nat) :=
  backend.scanFrom segment bytes (bytes.length + 1) 0

def recoverSegment
    (backend : Backend)
    (recovered : Recovered)
    (segment : Nat) : StorageM Recovered := do
  let handle ← openSegment segment
  ioStep
  let file ← fileOf handle
  match backend.scan segment file.bytes with
  | .error failure => throw failure
  | .ok (located, tail) =>
      pure {
        index := recovered.index.insertMany located
        files := recovered.files ++ [handle]
        tail := tail }

/-- `BlockStore::open_with` over a backend. -/
def openWith (backend : Backend) : StorageM Unit := do
  let segments := (← MonadState.get).disk.segments.keys
  let recovered ← segments.foldlM backend.recoverSegment {}
  if recovered.files.isEmpty then
    let handle ← openSegment 0
    syncDir
    modify fun node =>
      { node with
        store := {
          index := recovered.index
          files := [handle]
          tail := 0 } }
  else
    modify fun node =>
      { node with
        store := {
          index := recovered.index
          files := recovered.files
          tail := recovered.tail } }

def readAt
    (backend : Backend)
    (handle offset count : Nat) : StorageM Bytes := do
  ioStep
  let file ← fileOf handle
  match backend.read file.bytes offset count with
  | some bytes => pure bytes
  | none => throw (.io .unexpectedEof)

def getBlock
    (backend : Backend)
    (blake3 : Bytes → BlockId)
    (id : BlockId) : StorageM Bytes := do
  let store := (← MonadState.get).store
  match store.index[id]? with
  | none => throw (.blockNotFound id)
  | some location =>
      match store.files[location.segment]? with
      | none => throw .panicked
      | some handle =>
          if location.payloadLen ≥ 2 ^ 63 then
            throw .panicked
          let payload ← backend.readAt handle (location.offset + headerLen)
            location.payloadLen
          if blake3 payload ≠ id then
            throw (.corrupt id)
          pure payload

end Backend

/-! ## The portable backend -/

section Portable

/-- A backend that reads the header finds the record that is there. -/
theorem scanStep_of_read
    {backend : Backend}
    {bytes : Bytes}
    {offset : Nat}
    (header :
      offset + headerLen ≤ bytes.length →
        backend.read bytes offset headerLen =
          some ((bytes.drop offset).take headerLen)) :
    backend.scanStep bytes offset = .ok (scanStep bytes offset) := by
  unfold Backend.scanStep scanStep
  split
  · rename_i within
    rw [header within]
    dsimp only
    cases parseHeader ((bytes.drop offset).take headerLen) with
    | none =>
        rfl
    | some record =>
        rfl
  · rfl

theorem scanStep_std (bytes : Bytes) (offset : Nat) :
    Backend.std.scanStep bytes offset = .ok (scanStep bytes offset) := by
  refine scanStep_of_read ?_
  intro within
  rw [Backend.read, ByteFile.readAt, if_pos (Or.inr within)]

theorem scanFrom_std
    (segment : Nat)
    (bytes : Bytes)
    (fuel offset : Nat) :
    Backend.std.scanFrom segment bytes fuel offset =
      match scanFrom segment bytes fuel offset with
      | none => .error .diverged
      | some result => .ok result := by
  induction fuel generalizing offset with
  | zero =>
      rfl
  | succ fuel inductionHypothesis =>
      rw [Backend.scanFrom, scanStep_std, scanFrom]
      cases scanStep bytes offset with
      | none =>
          rfl
      | some found =>
          dsimp only
          rw [inductionHypothesis]
          cases scanFrom segment bytes fuel found.2 with
          | none =>
              rfl
          | some result =>
              rfl

/-- The store as modelled before is the one over the portable backend. -/
theorem openWith_std : Backend.std.openWith = openWith := by
  have recover : Backend.std.recoverSegment = recoverSegment := by
    funext recovered segment
    unfold Backend.recoverSegment recoverSegment
    refine bind_congr fun handle => bind_congr fun _ => bind_congr fun file =>
      ?_
    rw [Backend.scan, scanFrom_std, scan]
    cases scanFrom segment file.bytes (file.bytes.length + 1) 0 with
    | none =>
        rfl
    | some found =>
        rfl
  unfold Backend.openWith openWith
  rw [recover]

end Portable

/-! ## Where the backends differ -/

/--
Whether each header that a scan reads has its whole window inside the file.
-/
def headersFitFrom (bytes : Bytes) : Nat → Nat → Bool
  | 0, _ => true
  | fuel + 1, offset =>
      (offset + headerLen ≤ bytes.length →
        offset + blockAlign ≤ bytes.length) &&
      match scanStep bytes offset with
      | none => true
      | some (_, next) => headersFitFrom bytes fuel next

def headersFit (bytes : Bytes) : Bool :=
  headersFitFrom bytes (bytes.length + 1) 0

section Scans

variable {bytes : Bytes} {offset count : Nat}

theorem alignDown_le (value : Nat) : alignDown value ≤ value :=
  Nat.div_mul_le_self value blockAlign

theorem le_alignUp (value : Nat) : value ≤ alignUp value := by
  unfold alignUp blockAlign
  omega

theorem le_windowEnd (offset count : Nat) :
    offset + count ≤ windowEnd offset count := by
  have start := alignDown_le offset
  have stop := le_alignUp (offset + count)
  unfold windowEnd
  omega

/-- A direct read fails exactly when its window reaches past the end. -/
theorem directRead_eq (bytes : Bytes) (offset count : Nat) :
    directRead bytes offset count =
      if windowEnd offset count ≤ bytes.length then
        some ((bytes.drop offset).take count)
      else
        none := by
  have start := alignDown_le offset
  have stop := le_alignUp (offset + count)
  have block : 0 < blockAlign := by decide
  have size : 0 <
      max (alignUp (offset + count) - alignDown offset) blockAlign := by
    omega
  rw [directRead]
  simp only [ByteFile.readAt, or_iff_right size.ne']
  by_cases within : windowEnd offset count ≤ bytes.length
  · rw [if_pos within]
    unfold windowEnd at within
    rw [if_pos within]
    dsimp only
    rw [List.drop_take, List.drop_drop, Nat.add_sub_cancel' start,
      List.take_take, min_eq_left (by omega)]
  · rw [if_neg within]
    unfold windowEnd at within
    rw [if_neg within]

theorem windowEnd_header
    (aligned : offset % blockAlign = 0) :
    windowEnd offset headerLen = offset + blockAlign := by
  unfold windowEnd alignUp alignDown blockAlign headerLen at *
  omega

/-- At an aligned offset the backends read a header alike if it fits. -/
theorem scanStep_uring
    (aligned : offset % blockAlign = 0) :
    Backend.uring.scanStep bytes offset =
      if offset + headerLen ≤ bytes.length →
          offset + blockAlign ≤ bytes.length then
        .ok (scanStep bytes offset)
      else
        .error (.io .unexpectedEof) := by
  have read : Backend.uring.read bytes offset headerLen =
      if offset + blockAlign ≤ bytes.length then
        some ((bytes.drop offset).take headerLen)
      else
        none := by
    rw [Backend.read, directRead_eq, windowEnd_header aligned]
  split
  · rename_i fits
    refine scanStep_of_read fun within => ?_
    rw [read, if_pos (fits within)]
  · rename_i cut
    rw [Classical.not_imp] at cut
    rw [Backend.scanStep, if_pos cut.1, read, if_neg cut.2]

/-- All offsets of a scan are aligned. -/
theorem aligned_of_scanStep
    {record : RecordHeader}
    {next : Nat}
    (aligned : offset % blockAlign = 0)
    (step : scanStep bytes offset = some (record, next)) :
    next % blockAlign = 0 := by
  unfold scanStep at step
  split at step
  · split at step
    · cases step
    · dsimp only at step
      split at step
      · cases step
      · cases step
        unfold recordLen blockAlign headerLen at *
        dsimp only
        omega
  · cases step

theorem scanFrom_uring
    (segment fuel : Nat)
    (aligned : offset % blockAlign = 0) :
    Backend.uring.scanFrom segment bytes fuel offset =
      if headersFitFrom bytes fuel offset then
        Backend.std.scanFrom segment bytes fuel offset
      else
        .error (.io .unexpectedEof) := by
  induction fuel generalizing offset with
  | zero =>
      rfl
  | succ fuel inductionHypothesis =>
      rw [Backend.scanFrom, scanStep_uring aligned, Backend.scanFrom,
        scanStep_std, headersFitFrom]
      by_cases fits : offset + headerLen ≤ bytes.length →
          offset + blockAlign ≤ bytes.length
      · rw [if_pos fits, decide_eq_true fits, Bool.true_and]
        cases step : scanStep bytes offset with
        | none =>
            rfl
        | some found =>
            obtain ⟨record, next⟩ := found
            dsimp only
            rw [inductionHypothesis (aligned_of_scanStep aligned step)]
            by_cases later : headersFitFrom bytes fuel next
            · rw [if_pos later, if_pos later]
            · rw [if_neg later, if_neg later]
      · rw [if_neg fits, decide_eq_false fits, Bool.false_and]
        rfl

theorem scan_uring (segment : Nat) (bytes : Bytes) :
    Backend.uring.scan segment bytes =
      if headersFit bytes then Backend.std.scan segment bytes
      else .error (.io .unexpectedEof) :=
  scanFrom_uring segment _ (by decide)

/-- A scan through the portable backend never meets the end of the file. -/
theorem scan_std_ne_eof (segment : Nat) (bytes : Bytes) :
    Backend.std.scan segment bytes ≠ .error (.io .unexpectedEof) := by
  rw [Backend.scan, scanFrom_std]
  split
  · simp
  · simp

end Scans

/-! ## Opening a directory -/

/-- Every directory entry names a file. -/
def Disk.Linked (disk : Disk) : Prop :=
  ∀ (segment handle : Nat),
    disk.segments[segment]? = some handle → handle < disk.objects.length

/-- The contents of a segment. -/
def Disk.content (disk : Disk) (segment : Nat) : Bytes :=
  match disk.segments[segment]? with
  | none => []
  | some handle =>
      match disk.objects[handle]? with
      | none => []
      | some file => file.bytes

/-- All headers that are read fit, up to a segment whose scan never ends. -/
def Disk.headersFit (disk : Disk) : List Nat → Bool
  | [] => true
  | segment :: rest =>
      KalpakDb.headersFit (disk.content segment) &&
        ((scan segment (disk.content segment)).isNone ||
          disk.headersFit rest)

section Opening

variable {node : Node}

theorem Disk.Linked.content_eq
    {disk : Disk}
    (linked : disk.Linked)
    {segment : Nat}
    (member : segment ∈ disk.segments) :
    ∃ handle file,
      disk.segments[segment]? = some handle ∧
        disk.objects[handle]? = some file ∧
        file.bytes = disk.content segment := by
  obtain ⟨handle, found⟩ := Option.isSome_iff_exists.mp
    (ExtTreeMap.mem_iff_isSome_getElem?.mp member)
  have file := List.getElem?_eq_getElem (linked segment handle found)
  exact ⟨handle, _, found, file, by rw [Disk.content, found]; simp [file]⟩

theorem execute_recoverSegment
    (backend : Backend)
    (noFault : node.fault = none)
    {segment handle : Nat}
    {file : SegmentFile}
    (found : node.disk.segments[segment]? = some handle)
    (present : node.disk.objects[handle]? = some file)
    (recovered : Recovered) :
    execute (backend.recoverSegment recovered segment) node =
      match backend.scan segment file.bytes with
      | .error failure => (.error failure, node)
      | .ok (located, tail) =>
          (.ok {
            index := recovered.index.insertMany located
            files := recovered.files ++ [handle]
            tail := tail }, node) := by
  apply Ends.execute_eq
  simp only [Backend.recoverSegment, openSegment, ends_bind,
    ends_ioStep_of_none noFault, ends_get, found, ends_pure,
    ends_fileOf present]
  cases backend.scan segment file.bytes with
  | error failure =>
      rfl
  | ok result =>
      rfl

/-- The direct backend recovers the same, or fails at the end of a file. -/
theorem execute_recover_uring
    (linked : node.disk.Linked)
    (noFault : node.fault = none)
    {segments : List Nat}
    (members : ∀ segment ∈ segments, segment ∈ node.disk.segments)
    (recovered : Recovered) :
    execute (segments.foldlM Backend.uring.recoverSegment recovered) node =
      if node.disk.headersFit segments then
        execute (segments.foldlM Backend.std.recoverSegment recovered) node
      else
        (.error (.io .unexpectedEof), node) := by
  induction segments generalizing recovered with
  | nil =>
      rw [Disk.headersFit, if_pos rfl, List.foldlM_nil, List.foldlM_nil]
  | cons segment rest inductionHypothesis =>
      obtain ⟨handle, file, found, present, content⟩ :=
        linked.content_eq (members segment List.mem_cons_self)
      have later := inductionHypothesis
        fun other member => members other (List.mem_cons_of_mem _ member)
      rw [List.foldlM_cons, List.foldlM_cons, execute_bind, execute_bind,
        execute_recoverSegment _ noFault found present,
        execute_recoverSegment _ noFault found present, scan_uring, content,
        Disk.headersFit]
      by_cases fits : KalpakDb.headersFit (node.disk.content segment)
      · rw [if_pos fits, fits, Bool.true_and, Backend.scan, scanFrom_std,
          ← scan]
        cases scan segment (node.disk.content segment) with
        | none =>
            simp only [Option.isNone_none, Bool.true_or, if_true]
        | some result =>
            simp only [Option.isNone_some, Bool.false_or]
            exact later _
      · rw [if_neg fits, Bool.eq_false_iff.mpr fits, Bool.false_and,
          if_neg Bool.false_ne_true]

theorem recover_std_ne_eof
    (linked : node.disk.Linked)
    (noFault : node.fault = none)
    {segments : List Nat}
    (members : ∀ segment ∈ segments, segment ∈ node.disk.segments)
    (recovered : Recovered) :
    Ends (segments.foldlM Backend.std.recoverSegment recovered) node
      (fun _ final => final = node)
      (fun failure final =>
        failure ≠ .io .unexpectedEof ∧ final = node) := by
  induction segments generalizing recovered with
  | nil =>
      rfl
  | cons segment rest inductionHypothesis =>
      obtain ⟨handle, file, found, present, content⟩ :=
        linked.content_eq (members segment List.mem_cons_self)
      have later := inductionHypothesis
        fun other member => members other (List.mem_cons_of_mem _ member)
      have whole := scan_std_ne_eof segment file.bytes
      rw [List.foldlM_cons, ends_bind, Ends,
        execute_recoverSegment _ noFault found present]
      cases result : Backend.std.scan segment file.bytes with
      | error failure =>
          refine ⟨?_, rfl⟩
          rintro rfl
          exact whole result
      | ok found =>
          exact later _

/-- The direct backend opens the same store, or fails at the end of a file. -/
theorem execute_openWith_uring
    (linked : node.disk.Linked)
    (noFault : node.fault = none) :
    execute Backend.uring.openWith node =
      if node.disk.headersFit node.disk.segments.keys then
        execute openWith node
      else
        (.error (.io .unexpectedEof), node) := by
  have members : ∀ segment ∈ node.disk.segments.keys,
      segment ∈ node.disk.segments :=
    fun segment member => ExtTreeMap.mem_keys.mp member
  rw [← openWith_std, Backend.openWith, Backend.openWith, execute_bind,
    execute_bind, execute_get]
  dsimp only
  rw [execute_bind, execute_bind,
    execute_recover_uring linked noFault members]
  by_cases fits : node.disk.headersFit node.disk.segments.keys
  · rw [if_pos fits, if_pos fits]
  · rw [if_neg fits, if_neg fits]

theorem openWith_ne_eof
    (linked : node.disk.Linked)
    (noFault : node.fault = none) :
    Ends openWith node
      (fun _ final => final.fault = none)
      (fun failure _ => failure ≠ .io .unexpectedEof) := by
  have members : ∀ segment ∈ node.disk.segments.keys,
      segment ∈ node.disk.segments :=
    fun segment member => ExtTreeMap.mem_keys.mp member
  rw [← openWith_std, Backend.openWith, ends_bind, ends_get, ends_bind]
  refine (recover_std_ne_eof linked noFault members {}).mono ?_ ?_
  · rintro recovered _ rfl
    split
    · simp only [openSegment, syncDir, ends_bind,
        ends_ioStep_of_none noFault, ends_get]
      split
      · simp only [ends_pure, ends_ioStep_of_none noFault, ends_modify]
        exact noFault
      · simp only [createFile, ends_bind, ends_get, ends_modify, ends_pure]
        refine (ends_ioStep_of_none ?_).mpr noFault
        exact noFault
    · exact noFault
  · exact fun failure final failed => failed.1

end Opening

/-! ## Looking up blocks -/

/-- Whether a payload that ends in a file has its whole window there. -/
def payloadFits (bytes : Bytes) (location : Location) : Bool :=
  location.payloadLen < 2 ^ 63 →
    (location.payloadLen = 0 ∨
      location.offset + headerLen + location.payloadLen ≤ bytes.length) →
    windowEnd (location.offset + headerLen) location.payloadLen ≤
      bytes.length

/-- The file in which a location is looked up. -/
def Node.fileAt (node : Node) (location : Location) : Option SegmentFile :=
  node.store.files[location.segment]?.bind fun handle =>
    node.disk.objects[handle]?

/-- All indexed payloads fit. -/
def Node.payloadsFit (node : Node) : Bool :=
  node.store.index.toList.all fun entry =>
    (node.fileAt entry.2).all fun file => payloadFits file.bytes entry.2

section Lookups

variable {node : Node} {blake3 : Bytes → BlockId}

/-- What a lookup returns when no I/O fails. -/
def Node.lookup
    (node : Node)
    (backend : Backend)
    (blake3 : Bytes → BlockId)
    (id : BlockId) : Except Failure Bytes :=
  match node.store.index[id]? with
  | none => .error (.blockNotFound id)
  | some location =>
      match node.fileAt location with
      | none => .error .panicked
      | some file =>
          if location.payloadLen ≥ 2 ^ 63 then
            .error .panicked
          else
            match backend.read file.bytes (location.offset + headerLen)
                location.payloadLen with
            | none => .error (.io .unexpectedEof)
            | some payload =>
                if blake3 payload ≠ id then .error (.corrupt id)
                else .ok payload

theorem getBlock_eq_lookup
    (noFault : node.fault = none)
    (backend : Backend)
    (id : BlockId) :
    (execute (backend.getBlock blake3 id) node).1 =
      node.lookup backend blake3 id := by
  apply Ends.result_eq
  simp only [Backend.getBlock, Backend.readAt, ends_bind, ends_get,
    Node.lookup]
  cases node.store.index[id]? with
  | none =>
      rfl
  | some location =>
      cases handled : node.store.files[location.segment]? with
      | none =>
          simp [Node.fileAt, handled]
      | some handle =>
          simp only [Node.fileAt, handled, Option.bind_some]
          by_cases huge : location.payloadLen ≥ 2 ^ 63
          · simp only [if_pos huge, ends_bind, ends_throw]
            split
            · rfl
            · rfl
          · simp only [if_neg huge, ends_bind,
              ends_ioStep_of_none noFault, fileOf, ends_get]
            cases node.disk.objects[handle]? with
            | none =>
                rfl
            | some file =>
                simp only [ends_pure]
                cases backend.read file.bytes
                    (location.offset + headerLen) location.payloadLen with
                | none =>
                    rfl
                | some payload =>
                    simp only [ends_pure]
                    split
                    · rfl
                    · rfl

/-- The backends answer alike for a block exactly when its payload fits. -/
theorem lookup_uring_iff (id : BlockId) :
    node.lookup .std blake3 id = node.lookup .uring blake3 id ↔
      ∀ location,
        node.store.index[id]? = some location →
        (node.fileAt location).all
          (fun file => payloadFits file.bytes location) = true := by
  unfold Node.lookup
  cases node.store.index[id]? with
  | none =>
      simp
  | some location =>
      simp only [Option.some.injEq, forall_eq']
      cases node.fileAt location with
      | none =>
          simp
      | some file =>
          simp only [Option.all_some, payloadFits, decide_eq_true_eq]
          by_cases huge : location.payloadLen ≥ 2 ^ 63
          · rw [if_pos huge, if_pos huge]
            exact ⟨fun _ small => absurd small (not_lt.mpr huge),
              fun _ => rfl⟩
          · rw [if_neg huge, if_neg huge]
            simp only [not_le.mp huge, forall_const, Backend.read,
              directRead_eq, ByteFile.readAt]
            by_cases window :
                windowEnd (location.offset + headerLen)
                  location.payloadLen ≤ file.bytes.length
            · have inside :
                  location.offset + headerLen + location.payloadLen ≤
                    file.bytes.length :=
                (le_windowEnd _ _).trans window
              rw [if_pos (Or.inr inside), if_pos window]
              exact ⟨fun _ _ => window, fun _ => rfl⟩
            · rw [if_neg window]
              by_cases readable :
                  location.payloadLen = 0 ∨
                    location.offset + headerLen + location.payloadLen ≤
                      file.bytes.length
              · rw [if_pos readable]
                refine ⟨fun same => ?_, fun fits => absurd (fits readable)
                  window⟩
                dsimp only at same
                split at same
                · cases same
                · cases same
              · rw [if_neg readable]
                exact ⟨fun _ inside => absurd inside readable,
                  fun _ => rfl⟩

end Lookups

/-! ## Agreement -/

/--
Both backends open a directory alike, and then look up every block alike.
-/
def BackendsAgree (blake3 : Bytes → BlockId) (disk : Disk) : Prop :=
  let std := execute Backend.std.openWith { disk := disk }
  let uring := execute Backend.uring.openWith { disk := disk }
  std.1 = uring.1 ∧
    (std.1 = .ok () →
      std.2.store.index = uring.2.store.index ∧
        std.2.store.tail = uring.2.store.tail ∧
        ∀ id,
          (execute (Backend.std.getBlock blake3 id) std.2).1 =
            (execute (Backend.uring.getBlock blake3 id) uring.2).1)

/--
Whether no header or payload that is read lies in a block that the end of the
file cuts: the headers up to the end of the scans, and the indexed payloads.
-/
def Disk.uncut (disk : Disk) : Bool :=
  disk.headersFit disk.segments.keys &&
    match execute openWith { disk := disk } with
    | (.ok _, node) => node.payloadsFit
    | (.error _, _) => true

theorem Node.payloadsFit_iff (node : Node) :
    node.payloadsFit = true ↔
      ∀ (id : BlockId) (location : Location),
        node.store.index[id]? = some location →
        (node.fileAt location).all
          (fun file => payloadFits file.bytes location) = true := by
  rw [Node.payloadsFit, List.all_eq_true]
  constructor
  · intro all id location found
    exact all (id, location) (FiniteMap.mem_toList.mpr found)
  · rintro each ⟨id, location⟩ listed
    exact each id location (FiniteMap.mem_toList.mp listed)

/-- The backends agree exactly on directories where no such block is cut. -/
theorem backends_agree_iff
    (blake3 : Bytes → BlockId)
    (disk : Disk)
    (linked : disk.Linked) :
    BackendsAgree blake3 disk ↔ disk.uncut = true := by
  have uring : execute Backend.uring.openWith { disk := disk } =
      if disk.headersFit disk.segments.keys then
        execute openWith { disk := disk }
      else
        (.error (.io .unexpectedEof), { disk := disk }) :=
    execute_openWith_uring linked rfl
  have whole : Ends openWith { disk := disk }
      (fun _ final => final.fault = none)
      (fun failure _ => failure ≠ .io .unexpectedEof) :=
    openWith_ne_eof linked rfl
  unfold BackendsAgree Disk.uncut
  rw [openWith_std, uring]
  rcases opened : execute openWith { disk := disk } with
    ⟨failure | value, node⟩
  · rw [ends_of_error opened] at whole
    by_cases fits : disk.headersFit disk.segments.keys
    · simp [fits]
    · simp only [fits, Bool.false_eq_true, if_false, Bool.false_and,
        iff_false, not_and]
      intro same
      exact absurd (Except.error.inj same) whole
  · rw [ends_of_ok opened] at whole
    by_cases fits : disk.headersFit disk.segments.keys
    · simp only [fits, if_true, Bool.true_and, Node.payloadsFit_iff,
        getBlock_eq_lookup whole, true_and, forall_const, lookup_uring_iff]
    · simp [fits]

/-! ## A torn append -/

/-- A directory in which the first record was written up to some byte. -/
def tornDirectory (record : Bytes) (written : Nat) : Disk where
  objects :=
    if bounded : (record.take written).length < 2 ^ 63 then
      [⟨record.take written, bounded⟩]
    else
      []
  segments := (∅ : ExtTreeMap Nat Nat).insert 0 0

/-- The digest of the single byte one. -/
def oneDigest : BlockId := .ofOneByte

/-- The record of the single byte one. -/
def oneRecord : Bytes := encodeRecord oneDigest [1]

/-- BLAKE3 on the payload of the sample record. -/
def oneBlake3 (bytes : Bytes) : BlockId :=
  if bytes = [1] then oneDigest else .filled 0

/-- A record that was written completely. -/
theorem backends_agree_complete :
    BackendsAgree oneBlake3 (tornDirectory oneRecord 4096) := by
  refine (backends_agree_iff _ _ ?_).mpr (by decide +kernel)
  intro segment handle found
  have objects : (tornDirectory oneRecord 4096).objects.length = 1 := by
    decide +kernel
  rw [tornDirectory, ExtTreeMap.getElem?_insert] at found
  split at found
  · cases found
    rw [objects]
    exact Nat.one_pos
  · simp at found

/--
After a crash that left a hundred bytes of the first record, the portable
backend opens an empty store, and the direct one fails.
-/
theorem torn_append_fails_direct :
    (execute Backend.std.openWith
        { disk := tornDirectory oneRecord 100 }).1 = .ok () ∧
      (execute Backend.uring.openWith
        { disk := tornDirectory oneRecord 100 }).1 =
          .error (.io .unexpectedEof) := by
  decide +kernel

end KalpakDb
