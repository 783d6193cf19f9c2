import KalpakDb.BlockStore

namespace KalpakDb

/-!
# What the segments hold

A segment file is seen as complete records followed by a residue: torn or
stale bytes at which the scan stops.  An interrupted batch of records turns
one such image into another.
-/

open Std (ExtTreeMap)
open ByteFile (overlay whole consecutive)

/-- Complete records and the bytes after them. -/
structure SegmentImage where
  records : List Payload
  residue : Bytes

/-- The size of a record on disk. -/
def recordSize (payload : Payload) : Nat := recordLen payload.bytes.length

section Hash

variable (blake3 : Bytes → BlockId)

/-- The encoded record of a payload. -/
def encodePayload (payload : Payload) : Bytes :=
  encodeRecord (blake3 payload.bytes) payload.bytes

theorem length_encodePayload (payload : Payload) :
    (encodePayload blake3 payload).length = recordSize payload :=
  length_encodeRecord _ payload.length_lt

theorem length_encodeAll (payloads : List Payload) :
    (encodeAll blake3 payloads).length = (payloads.map recordSize).sum := by
  induction payloads with
  | nil =>
      rfl
  | cons payload rest inductionHypothesis =>
      have head := length_encodePayload blake3 payload
      rw [encodePayload] at head
      simp only [encodeAll_cons, List.length_append, List.map_cons,
        List.sum_cons, head, inductionHypothesis]

theorem flatten_encodePayload (payloads : List Payload) :
    (payloads.map (encodePayload blake3)).flatten =
      encodeAll blake3 payloads := by
  rw [encodeAll, List.flatMap_def]
  rfl

namespace SegmentImage

def contents (image : SegmentImage) : Bytes :=
  encodeAll blake3 image.records ++ image.residue

/-- Where the complete records end. -/
def tail (image : SegmentImage) : Nat :=
  (encodeAll blake3 image.records).length

/-- The scan stops at the end of the complete records. -/
def Stops (image : SegmentImage) : Prop :=
  scanStep (image.contents blake3) (image.tail blake3) = none

/-- The image after some bytes of a batch of records were written behind it. -/
def absorb
    (image : SegmentImage)
    (added : List Payload)
    (budget : Nat) : SegmentImage where
  records := image.records ++ whole recordSize budget added
  residue :=
    (overlay ((encodeAll blake3 added).take budget) image.residue).drop
      (encodeAll blake3 (whole recordSize budget added)).length

/-- The image after a whole batch of records was written behind it. -/
def extend (image : SegmentImage) (added : List Payload) : SegmentImage where
  records := image.records ++ added
  residue := image.residue.drop (encodeAll blake3 added).length

variable (image : SegmentImage) (added : List Payload) (budget : Nat)

/-- The complete records of a batch are in front of what was written of it. -/
theorem take_encodeAll :
    ∃ torn,
      (encodeAll blake3 added).take budget =
        encodeAll blake3 (whole recordSize budget added) ++ torn := by
  obtain ⟨later, split⟩ := ByteFile.whole_isPrefix recordSize budget added
  have fits := ByteFile.sum_whole_le recordSize budget added
  rw [← length_encodeAll blake3] at fits
  have bytes : encodeAll blake3 added =
      encodeAll blake3 (whole recordSize budget added) ++
        encodeAll blake3 later := by
    rw [← encodeAll_append, split]
  rw [bytes, List.take_append, List.take_of_length_le fits]
  exact ⟨_, rfl⟩

theorem contents_absorb :
    (image.absorb blake3 added budget).contents blake3 =
      encodeAll blake3 image.records ++
        overlay ((encodeAll blake3 added).take budget) image.residue := by
  obtain ⟨torn, split⟩ := take_encodeAll blake3 added budget
  simp only [contents, absorb, encodeAll_append, split]
  rw [ByteFile.overlay_append, List.drop_left, List.append_assoc]

/-- Writing a batch behind an image turns its contents into the new ones. -/
theorem writePrefix_contents :
    ByteFile.writePrefix budget
        (consecutive (image.tail blake3)
          (added.map (encodePayload blake3)))
        (image.contents blake3) =
      (image.absorb blake3 added budget).contents blake3 := by
  rw [contents_absorb, contents, tail, ByteFile.writePrefix_consecutive,
    flatten_encodePayload]

/-- A batch that is written completely adds all its records. -/
theorem absorb_all
    (complete : (encodeAll blake3 added).length ≤ budget) :
    image.absorb blake3 added budget = image.extend blake3 added := by
  have everything : whole recordSize budget added = added :=
    ByteFile.whole_eq_self recordSize (by
      rw [← length_encodeAll blake3]
      exact complete)
  simp only [absorb, extend, everything, List.take_of_length_le complete,
    overlay, List.drop_left]

/-- A batch of which nothing was written changes nothing. -/
theorem absorb_zero : image.absorb blake3 added 0 = image := by
  have nothing : whole recordSize 0 added = [] := by
    cases added with
    | nil =>
        rfl
    | cons payload rest =>
        have bounds := recordLen_bounds payload.length_lt
        rw [whole, if_neg (by unfold recordSize; omega)]
  cases image
  simp [absorb, nothing, overlay]

/-- Behind records without residue there is nothing to scan. -/
theorem stops_of_noResidue
    (clean : image.residue = []) :
    image.Stops blake3 := by
  simp only [Stops, contents, tail, clean, List.append_nil, scanStep]
  rw [if_neg (by unfold headerLen; omega)]

/-- An image without residue has at most a torn record behind it. -/
theorem stops_absorb_of_noResidue
    (clean : image.residue = [])
    (bounded :
      ((image.absorb blake3 added budget).contents blake3).length < 2 ^ 63) :
    (image.absorb blake3 added budget).Stops blake3 := by
  obtain ⟨later, split⟩ := ByteFile.whole_isPrefix recordSize budget added
  have fits := ByteFile.sum_whole_le recordSize budget added
  have residue :
      (image.absorb blake3 added budget).residue =
        (encodeAll blake3 later).take
          (budget - ((whole recordSize budget added).map recordSize).sum) := by
    have bytes : encodeAll blake3 added =
        encodeAll blake3 (whole recordSize budget added) ++
          encodeAll blake3 later := by
      rw [← encodeAll_append, split]
    simp only [absorb, clean, ByteFile.overlay_empty]
    rw [bytes, List.take_append, List.take_of_length_le
      (by rw [length_encodeAll]; exact fits), List.drop_left,
      length_encodeAll]
  cases later with
  | nil =>
      simp only [encodeAll_nil, List.take_nil] at residue
      exact stops_of_noResidue blake3 _ residue
  | cons next rest =>
      have short := ByteFile.lt_of_whole_append recordSize split.symm
      have size : recordSize next = recordLen next.bytes.length := rfl
      have torn :
          budget - ((whole recordSize budget added).map recordSize).sum <
            recordLen next.bytes.length := by
        omega
      refine scanStep_torn (blake3 next.bytes) torn ?_ bounded
      rw [contents, residue, encodeAll_cons, List.take_append_of_le_length]
      rw [length_encodeRecord _ next.length_lt]
      omega

end SegmentImage

end Hash

end KalpakDb
