import KalpakDb.BlockStore

namespace KalpakDb

/-!
# The files of a directory

A disk has one directory entry and one file for each segment, and the files
of unfinished rewrites are apart from them.  This is kept when a file is
overwritten, when a segment is added behind the others, and when a rewritten
file takes over the name of its segment.
-/

open Std (ExtTreeMap)
open Contract

/-- What numbered files list together is what each of them lists. -/
theorem mem_numbered
    {α β : Type}
    (listAll : Nat → List α → List β)
    (listOne : Nat → α → List β)
    (noFiles : ∀ number, listAll number [] = [])
    (nextFile : ∀ number file rest,
      listAll number (file :: rest) =
        listOne number file ++ listAll (number + 1) rest)
    {number : Nat}
    {files : List α}
    {entry : β} :
    entry ∈ listAll number files ↔
      ∃ position file,
        files[position]? = some file ∧
          entry ∈ listOne (number + position) file := by
  induction files generalizing number with
  | nil =>
      simp [noFiles]
  | cons file rest inductionHypothesis =>
      rw [nextFile, List.mem_append, inductionHypothesis]
      constructor
      · rintro (here | ⟨position, found, present, later⟩)
        · exact ⟨0, file, rfl, here⟩
        · refine ⟨position + 1, found, present, ?_⟩
          rw [Nat.add_comm position, ← Nat.add_assoc]
          exact later
      · rintro ⟨position, found, present, place⟩
        cases position with
        | zero =>
            cases present
            exact Or.inl place
        | succ position =>
            refine Or.inr ⟨position, found, present, ?_⟩
            rw [Nat.add_comm position, ← Nat.add_assoc] at place
            exact place

/-- Replacing a file in front of the last one leaves the last one. -/
theorem getLast?_set_of_lt
    {α : Type}
    {files : List α}
    {position : Nat}
    (before : position + 1 < files.length)
    (file : α) :
    (files.set position file).getLast? = files.getLast? := by
  rw [List.getLast?_eq_getElem?, List.getLast?_eq_getElem?,
    List.length_set, List.getElem?_set_ne (by omega)]

/-! ## I/O without and with failures -/

section Steps

variable {node : Node} {returned : Unit → Node → Prop}
  {failed : Failure → Node → Prop}

theorem ends_ioStep_of_none (noFault : node.fault = none) :
    Ends ioStep node returned failed ↔ returned () node := by
  simp [ioStep, noFault]

/-- An I/O step changes nothing but the failure that lies ahead. -/
theorem ends_ioStep
    (passed : ∀ fault, returned () { node with fault := fault })
    (stopped : failed (.io .failed) { node with fault := none }) :
    Ends ioStep node returned failed := by
  unfold ioStep
  rw [ends_bind, ends_get]
  split
  · rename_i noFault
    have same := passed node.fault
    exact same
  · simpa using stopped
  · simpa using passed _

theorem ends_fileOf
    {returned : SegmentFile → Node → Prop}
    {handle : Nat}
    {file : SegmentFile}
    (found : node.disk.objects[handle]? = some file) :
    Ends (fileOf handle) node returned failed ↔ returned file node := by
  simp [fileOf, found]

theorem writePrefix?_bytes
    {file next : SegmentFile}
    {budget : Nat}
    {writes : List (Nat × Bytes)}
    (written : file.writePrefix? budget writes = some next) :
    next.bytes = ByteFile.writePrefix budget writes file.bytes := by
  simp only [SegmentFile.writePrefix?] at written
  split at written
  · cases written
    rfl
  · cases written

end Steps

/--
A batch that is written returns with all its bytes in the file.  If it fails,
the file has as many of them as the environment let through, or none.
-/
theorem ends_writeBatch_file
    {node : Node}
    {handle : Nat}
    {file : SegmentFile}
    (found : node.disk.objects[handle]? = some file)
    (writes : List (Nat × Bytes)) :
    Ends (writeBatch handle writes) node
      (fun _ final =>
        final.store = node.store ∧
        node.writeBudget writes = ByteFile.totalBytes writes ∧
        ∃ next : SegmentFile,
          next.bytes =
              ByteFile.writePrefix (ByteFile.totalBytes writes) writes
                file.bytes ∧
            final.disk = (node.setFile handle next).disk)
      (fun error final =>
        error = .io .failed ∧
        final.store = node.store ∧
        (final.disk = node.disk ∨
          ∃ next : SegmentFile,
            next.bytes =
                ByteFile.writePrefix (node.writeBudget writes) writes
                  file.bytes ∧
              final.disk = (node.setFile handle next).disk)) := by
  simp only [writeBatch, ends_bind, ends_fileOf found, ends_get]
  split
  · exact ⟨rfl, rfl, Or.inl rfl⟩
  · rename_i next written
    have bytes := writePrefix?_bytes written
    have complete
        (everything : node.writeBudget writes = ByteFile.totalBytes writes)
        {final : Node}
        (store : final.store = node.store)
        (disk : final.disk = (node.setFile handle next).disk) :
        final.store = node.store ∧
          node.writeBudget writes = ByteFile.totalBytes writes ∧
          ∃ next : SegmentFile,
            next.bytes =
                ByteFile.writePrefix (ByteFile.totalBytes writes) writes
                  file.bytes ∧
              final.disk = (node.setFile handle next).disk :=
      ⟨store, everything, next, everything ▸ bytes, disk⟩
    simp only [ends_bind, ends_modify, ioStep, ends_get]
    split
    · rename_i noFault
      have noFault : node.fault = none := noFault
      exact complete (by simp [Node.writeBudget, noFault]) rfl rfl
    · exact ⟨rfl, rfl, Or.inr ⟨next, bytes, rfl⟩⟩
    · rename_i step later ahead
      have ahead : node.fault = some ⟨step + 1, later⟩ := ahead
      exact complete (by simp [Node.writeBudget, ahead]) rfl rfl

/-- Putting back what is there changes nothing. -/
theorem set_same
    {α : Type}
    {items : List α}
    {position : Nat}
    {item : α}
    (present : items[position]? = some item) :
    items.set position item = items := by
  obtain ⟨within, rfl⟩ := List.getElem?_eq_some_iff.mp present
  exact List.set_getElem_self within

/-! ## Directories -/

/-- One directory entry and one file for each segment. -/
structure Disk.Files
    (disk : Disk)
    (handles : List Nat)
    (contents : List Bytes) : Prop where
  entries : ∀ segment : Nat, disk.segments[segment]? = handles[segment]?
  distinct : handles.Nodup
  sameLength : handles.length = contents.length
  files :
    ∀ (position handle : Nat) (bytes : Bytes),
      handles[position]? = some handle →
      contents[position]? = some bytes →
        ∃ file : SegmentFile,
          disk.objects[handle]? = some file ∧ file.bytes = bytes
  temporariesApart :
    ∀ segment handle : Nat, disk.temporaries[segment]? = some handle →
      handle < disk.objects.length ∧ handle ∉ handles
  temporariesDistinct :
    ∀ first second handle : Nat,
      disk.temporaries[first]? = some handle →
      disk.temporaries[second]? = some handle →
        first = second

namespace Disk.Files

variable {disk : Disk} {handles : List Nat} {contents : List Bytes}

/-- The empty directory. -/
theorem empty : ({} : Disk).Files [] [] where
  entries := by simp
  distinct := List.nodup_nil
  sameLength := rfl
  files := by simp
  temporariesApart := by simp
  temporariesDistinct := by simp

theorem file_at
    (files : disk.Files handles contents)
    {position : Nat}
    {bytes : Bytes}
    (present : contents[position]? = some bytes) :
    ∃ handle file,
      handles[position]? = some handle ∧
        disk.objects[handle]? = some file ∧
        file.bytes = bytes := by
  obtain ⟨within, -⟩ := List.getElem?_eq_some_iff.mp present
  rw [← files.sameLength] at within
  have named := List.getElem?_eq_getElem within
  obtain ⟨file, found, same⟩ := files.files position _ bytes named present
  exact ⟨_, file, named, found, same⟩

theorem handle_lt
    (files : disk.Files handles contents)
    {handle : Nat}
    (member : handle ∈ handles) :
    handle < disk.objects.length := by
  obtain ⟨position, within, same⟩ := List.getElem_of_mem member
  have named : handles[position]? = some handle := by
    rw [List.getElem?_eq_getElem within, same]
  have present := List.getElem?_eq_getElem
    (show position < contents.length from files.sameLength ▸ within)
  obtain ⟨file, found, -⟩ := files.files position handle _ named present
  exact (List.getElem?_eq_some_iff.mp found).1

/-- The directory lists the segments in order. -/
theorem keys_segments (files : disk.Files handles contents) :
    disk.segments.keys = List.range contents.length := by
  apply FiniteMap.keys_eq_range
  intro segment
  rw [ExtTreeMap.mem_iff_isSome_getElem?, files.entries, ← files.sameLength]
  simp

/-- The file of one segment is overwritten. -/
theorem overwrite
    (files : disk.Files handles contents)
    {position handle : Nat}
    (named : handles[position]? = some handle)
    (file : SegmentFile) :
    ({ disk with objects := disk.objects.set handle file } : Disk).Files
      handles (contents.set position file.bytes) := by
  have allocated := files.handle_lt (List.mem_of_getElem? named)
  have within := (List.getElem?_eq_some_iff.mp named).1
  refine {
    entries := files.entries
    distinct := files.distinct
    sameLength := by simpa using files.sameLength
    files := ?_
    temporariesApart := by simpa using files.temporariesApart
    temporariesDistinct := files.temporariesDistinct }
  intro other otherHandle bytes otherNamed present
  by_cases same : position = other
  · subst same
    rw [named] at otherNamed
    cases otherNamed
    rw [List.getElem?_set_self (files.sameLength ▸ within)] at present
    cases present
    exact ⟨file, by simp [allocated], rfl⟩
  · rw [List.getElem?_set_ne same] at present
    obtain ⟨kept, found, contentsKept⟩ :=
      files.files other otherHandle bytes otherNamed present
    have different : handle ≠ otherHandle := by
      rintro rfl
      exact same
        ((List.getElem?_inj within files.distinct).mp
          (named.trans otherNamed.symm))
    exact ⟨kept, by rw [List.getElem?_set_ne different]; exact found,
      contentsKept⟩

/-- A file that is not a segment's is overwritten. -/
theorem setApart
    (files : disk.Files handles contents)
    {handle : Nat}
    (apart : handle ∉ handles)
    (file : SegmentFile) :
    ({ disk with objects := disk.objects.set handle file } : Disk).Files
      handles contents where
  entries := files.entries
  distinct := files.distinct
  sameLength := files.sameLength
  files := by
    intro position named bytes isNamed present
    obtain ⟨kept, found, same⟩ :=
      files.files position named bytes isNamed present
    refine ⟨kept, ?_, same⟩
    have different : handle ≠ named := by
      rintro rfl
      exact apart (List.mem_of_getElem? isNamed)
    rw [List.getElem?_set_ne different]
    exact found
  temporariesApart := by simpa using files.temporariesApart
  temporariesDistinct := files.temporariesDistinct

/-- A new, empty segment is created behind the others. -/
theorem push
    (files : disk.Files handles contents) :
    ({ disk with
      objects := disk.objects ++ [.empty]
      segments := disk.segments.insert handles.length disk.objects.length } :
        Disk).Files
      (handles ++ [disk.objects.length]) (contents ++ [[]]) := by
  refine {
    entries := ?_
    distinct := ?_
    sameLength := by simp [files.sameLength]
    files := ?_
    temporariesApart := ?_
    temporariesDistinct := files.temporariesDistinct }
  · intro segment
    by_cases same : handles.length = segment
    · subst same
      simp
    · have different : compare handles.length segment ≠ .eq :=
        fun equal => same (Std.LawfulEqOrd.eq_of_compare equal)
      rw [ExtTreeMap.getElem?_insert, if_neg different, files.entries]
      rcases Nat.lt_or_ge segment handles.length with within | beyond
      · rw [List.getElem?_append_left within]
      · rw [List.getElem?_eq_none beyond,
          List.getElem?_eq_none (by simp; omega)]
  · refine List.nodup_append.mpr
      ⟨files.distinct, List.nodup_singleton _, ?_⟩
    intro handle member other new
    rw [List.mem_singleton.mp new]
    exact (files.handle_lt member).ne
  · intro position handle bytes named present
    rcases Nat.lt_trichotomy position contents.length with
      before | last | beyond
    · rw [List.getElem?_append_left before] at present
      rw [List.getElem?_append_left (files.sameLength ▸ before)] at named
      obtain ⟨file, found, same⟩ :=
        files.files position handle bytes named present
      refine ⟨file, ?_, same⟩
      rw [List.getElem?_append_left (List.getElem?_eq_some_iff.mp found).1]
      exact found
    · subst last
      have sameHandle : handle = disk.objects.length := by
        rw [← files.sameLength] at named
        simpa using named.symm
      have empty : bytes = [] := by
        simpa using present.symm
      subst sameHandle
      subst empty
      exact ⟨.empty, by simp, rfl⟩
    · rw [List.getElem?_eq_none (by simp; omega)] at present
      cases present
  · intro segment handle found
    obtain ⟨bound, apart⟩ := files.temporariesApart segment handle found
    refine ⟨by simp; omega, ?_⟩
    simp [apart, bound.ne]

/-- The file of a new rewrite is created. -/
theorem addTemporary
    (files : disk.Files handles contents)
    (segment : Nat) :
    ({ disk with
      objects := disk.objects ++ [.empty]
      temporaries := disk.temporaries.insert segment disk.objects.length } :
        Disk).Files handles contents := by
  have entry
      {other handle : Nat}
      (found :
        (disk.temporaries.insert segment disk.objects.length)[other]? =
          some handle) :
      (other = segment ∧ handle = disk.objects.length) ∨
        disk.temporaries[other]? = some handle := by
    rw [ExtTreeMap.getElem?_insert] at found
    split at found
    · rename_i same
      cases found
      exact Or.inl ⟨(Std.LawfulEqOrd.eq_of_compare same).symm, rfl⟩
    · exact Or.inr found
  refine {
    entries := files.entries
    distinct := files.distinct
    sameLength := files.sameLength
    files := ?_
    temporariesApart := ?_
    temporariesDistinct := ?_ }
  · intro position handle bytes named present
    obtain ⟨file, found, same⟩ :=
      files.files position handle bytes named present
    refine ⟨file, ?_, same⟩
    rw [List.getElem?_append_left (List.getElem?_eq_some_iff.mp found).1]
    exact found
  · intro other handle found
    rcases entry found with ⟨-, rfl⟩ | old
    · exact ⟨by simp, fun member => (files.handle_lt member).ne rfl⟩
    · obtain ⟨bound, apart⟩ := files.temporariesApart other handle old
      exact ⟨by simp; omega, apart⟩
  · intro first second handle firstFound secondFound
    rcases entry firstFound with ⟨firstSame, isNew⟩ | firstOld
    · rcases entry secondFound with ⟨secondSame, -⟩ | secondOld
      · rw [firstSame, secondSame]
      · have bound := (files.temporariesApart second handle secondOld).1
        omega
    · rcases entry secondFound with ⟨-, isNew⟩ | secondOld
      · have bound := (files.temporariesApart first handle firstOld).1
        omega
      · exact files.temporariesDistinct first second handle firstOld
          secondOld

/-- The file of a rewrite takes over the name of its segment. -/
theorem swap
    (files : disk.Files handles contents)
    {segment temporary : Nat}
    (named : disk.temporaries[segment]? = some temporary)
    {file : SegmentFile}
    (found : disk.objects[temporary]? = some file)
    (within : segment < handles.length) :
    ({ disk with
      segments := disk.segments.insert segment temporary
      temporaries := disk.temporaries.erase segment } : Disk).Files
      (handles.set segment temporary)
      (contents.set segment file.bytes) := by
  obtain ⟨-, apart⟩ := files.temporariesApart segment temporary named
  have remaining
      {other handle : Nat}
      (entry : (disk.temporaries.erase segment)[other]? = some handle) :
      disk.temporaries[other]? = some handle ∧ handle ≠ temporary := by
    rw [ExtTreeMap.getElem?_erase] at entry
    split at entry
    · cases entry
    · rename_i different
      refine ⟨entry, ?_⟩
      rintro rfl
      have same := files.temporariesDistinct other segment handle entry named
      subst same
      exact different Std.ReflOrd.compare_self
  refine {
    entries := ?_
    distinct := files.distinct.set apart
    sameLength := by simpa using files.sameLength
    files := ?_
    temporariesApart := ?_
    temporariesDistinct := ?_ }
  · intro position
    by_cases same : segment = position
    · subst same
      simp [within]
    · have different : compare segment position ≠ .eq :=
        fun equal => same (Std.LawfulEqOrd.eq_of_compare equal)
      rw [ExtTreeMap.getElem?_insert, if_neg different,
        List.getElem?_set_ne same, files.entries]
  · intro position handle bytes isNamed present
    by_cases same : segment = position
    · subst same
      rw [List.getElem?_set_self within] at isNamed
      rw [List.getElem?_set_self (files.sameLength ▸ within)] at present
      cases isNamed
      cases present
      exact ⟨file, found, rfl⟩
    · rw [List.getElem?_set_ne same] at isNamed present
      exact files.files position handle bytes isNamed present
  · intro other handle entry
    obtain ⟨before, different⟩ := remaining entry
    obtain ⟨bound, outside⟩ := files.temporariesApart other handle before
    refine ⟨bound, ?_⟩
    intro member
    rcases List.mem_or_eq_of_mem_set member with old | new
    · exact outside old
    · exact different new
  · intro first second handle firstFound secondFound
    exact files.temporariesDistinct first second handle
      (remaining firstFound).1 (remaining secondFound).1

end Disk.Files

/-- Opening the segment behind the last one creates it. -/
theorem ends_openSegment_new
    {node : Node}
    {handles : List Nat}
    {contents : List Bytes}
    (files : node.disk.Files handles contents) :
    Ends (openSegment handles.length) node
      (fun handle final =>
        handle = node.disk.objects.length ∧
        final.store = node.store ∧
        final.disk = { node.disk with
          objects := node.disk.objects ++ [.empty]
          segments := node.disk.segments.insert handles.length
            node.disk.objects.length })
      (fun error final =>
        error = .io .failed ∧
        final.store = node.store ∧
        final.disk = node.disk) := by
  have absent : node.disk.segments[handles.length]? = none := by
    rw [files.entries]
    simp
  rw [openSegment, ends_bind]
  refine ends_ioStep ?_ ⟨rfl, rfl, rfl⟩
  intro fault
  simp only [ends_bind, ends_get, absent, createFile, ends_modify, ends_pure,
    and_self]

/-! ## Opening -/

section Open

variable {node : Node} {handles : List Nat} {contents : List Bytes}

theorem ends_recoverSegment_scan
    (files : node.disk.Files handles contents)
    (noFault : node.fault = none)
    {position handle : Nat}
    (named : handles[position]? = some handle)
    {bytes : Bytes}
    (present : contents[position]? = some bytes)
    {located : List (BlockId × Location)}
    {tail : Nat}
    (scanned : scan position bytes = some (located, tail))
    (recovered : Recovered) :
    Ends (recoverSegment recovered position) node
      (fun next final =>
        final = node ∧
        next = {
          index := recovered.index.insertMany located
          files := recovered.files ++ [handle]
          tail := tail })
      (fun _ _ => False) := by
  obtain ⟨file, found, rfl⟩ :=
    files.files position handle bytes named present
  have entry := files.entries position
  rw [named] at entry
  simp only [recoverSegment, openSegment, ends_bind,
    ends_ioStep_of_none noFault, ends_get, entry, ends_pure,
    ends_fileOf found, scanned, and_self]

/-- What was scanned in some segments, put together. -/
def recoveredScans
    (handles : List Nat)
    (scans : List (List (BlockId × Location) × Nat)) : Recovered where
  index := ExtTreeMap.insertMany ∅ (scans.flatMap Prod.fst)
  files := handles
  tail := (scans.getLast?.map Prod.snd).getD 0

/-- Opening a disk with segments indexes what is scanned, in order. -/
theorem ends_openWith_scans
    (files : node.disk.Files handles contents)
    (noFault : node.fault = none)
    (nonempty : contents ≠ [])
    {scans : List (List (BlockId × Location) × Nat)}
    (sameScans : scans.length = contents.length)
    (scanned :
      ∀ (position : Nat) (bytes : Bytes)
        (found : List (BlockId × Location) × Nat),
        contents[position]? = some bytes →
        scans[position]? = some found →
          scan position bytes = some found) :
    Ends openWith node
      (fun _ final =>
        final = { node with
          store := {
            index := (recoveredScans handles scans).index
            files := handles
            tail := (recoveredScans handles scans).tail } })
      (fun _ _ => False) := by
  have loop :
      Ends ((List.range contents.length).foldlM recoverSegment {}) node
        (fun recovered final =>
          final = node ∧
          recovered = recoveredScans (handles.take contents.length)
            (scans.take contents.length))
        (fun _ _ => False) := by
    refine ends_foldlM_range
      (fun count recovered final =>
        final = node ∧
        recovered =
          recoveredScans (handles.take count) (scans.take count)) ?_ ?_
    · rintro position recovered state within ⟨rfl, rfl⟩
      have present := List.getElem?_eq_getElem within
      obtain ⟨found, foundScan⟩ : ∃ found, scans[position]? = some found :=
        ⟨_, List.getElem?_eq_getElem
          (show position < scans.length from sameScans ▸ within)⟩
      obtain ⟨handle, file, named, -, -⟩ := files.file_at present
      refine (ends_recoverSegment_scan files noFault named present
        (scanned position _ _ present foundScan) _).imp ?_
      rintro next final ⟨rfl, rfl⟩
      refine ⟨rfl, ?_⟩
      simp only [recoveredScans, List.take_add_one, named, foundScan,
        Option.toList_some, List.flatMap_append, ExtTreeMap.insertMany_append,
        List.getLast?_concat]
      simp
    · exact ⟨rfl, by simp [recoveredScans]⟩
  rw [← sameScans, List.take_length, sameScans, ← files.sameLength,
    List.take_length, files.sameLength] at loop
  have handlesNonempty : handles.isEmpty = false := by
    rw [List.isEmpty_eq_false_iff, ← List.length_pos_iff, files.sameLength]
    exact List.length_pos_of_ne_nil nonempty
  unfold openWith
  simp only [ends_bind, ends_get, files.keys_segments]
  refine loop.imp ?_
  rintro recovered final ⟨rfl, rfl⟩
  simp [handlesNonempty, recoveredScans]

theorem execute_openWithRoll
    {node final : Node}
    (ok : execute openWith node = (.ok (), final))
    (rollBytes : Nat) :
    execute (openWithRoll rollBytes) node =
      (.ok (), { final with
        store := { final.store with rollBytes := rollBytes } }) := by
  rw [openWithRoll, execute_bind, ok]
  rfl

/-- Opening an empty directory creates the first segment. -/
theorem openWith_initial :
    execute openWith {} =
      (.ok (), {
        disk := {
          objects := [.empty]
          segments := ExtTreeMap.insert ∅ 0 0 }
        store := { files := [0] } }) := rfl

theorem files_initial :
    ({ objects := [.empty], segments := ExtTreeMap.insert ∅ 0 0 } :
      Disk).Files [0] [[]] := by
  refine {
    entries := ?_
    distinct := List.nodup_singleton 0
    sameLength := rfl
    files := ?_
    temporariesApart := by simp
    temporariesDistinct := by simp }
  · intro segment
    cases segment with
    | zero => simp
    | succ segment => simp
  · intro position handle bytes named present
    cases position with
    | zero =>
        cases named
        cases present
        exact ⟨.empty, rfl, rfl⟩
    | succ position => simp at named

end Open

end KalpakDb
