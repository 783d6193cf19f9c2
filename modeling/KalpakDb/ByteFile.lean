import Mathlib

namespace KalpakDb.ByteFile

/-!
# Positioned writes to byte files

Writing at an offset replaces what lies there and extends the file if needed.
An interrupted batch of writes leaves the file with a prefix of its bytes.
For consecutive writes the result is an overlay: the written prefix, followed
by whatever older bytes it did not reach.
-/

variable {α : Type}

/-- Write at an offset; a gap before it is filled with zeros. -/
def writeAt
    (bytes : List UInt8)
    (offset : Nat)
    (data : List UInt8) : List UInt8 :=
  if data = [] then
    bytes
  else
    (bytes ++ List.replicate (offset - bytes.length) 0).take offset ++
      (data ++ bytes.drop (offset + data.length))

/-- Perform writes in order until the given number of bytes is written. -/
def writePrefix :
    Nat → List (Nat × List UInt8) → List UInt8 → List UInt8
  | _, [], bytes => bytes
  | budget, (offset, data) :: rest, bytes =>
      if data.length ≤ budget then
        writePrefix (budget - data.length) rest (writeAt bytes offset data)
      else
        writeAt bytes offset (data.take budget)

/-- The number of bytes in a batch of writes. -/
def totalBytes (writes : List (Nat × List UInt8)) : Nat :=
  (writes.map fun write => write.2.length).sum

/-- Read exactly so many bytes; `none` past the end of the file. -/
def readAt
    (bytes : List UInt8)
    (offset count : Nat) : Option (List UInt8) :=
  if count = 0 ∨ offset + count ≤ bytes.length then
    some ((bytes.drop offset).take count)
  else
    none

/-- New bytes over the front of older ones. -/
def overlay (data stale : List UInt8) : List UInt8 :=
  data ++ stale.drop data.length

/-- Chunks laid out one after the other from an offset on. -/
def consecutive : Nat → List (List UInt8) → List (Nat × List UInt8)
  | _, [] => []
  | offset, chunk :: rest =>
      (offset, chunk) :: consecutive (offset + chunk.length) rest

/-- The longest front part of some items whose total size is in a budget. -/
def whole (size : α → Nat) : Nat → List α → List α
  | _, [] => []
  | budget, item :: rest =>
      if size item ≤ budget then
        item :: whole size (budget - size item) rest
      else
        []

theorem readAt_append
    (front data rest : List UInt8) :
    readAt (front ++ (data ++ rest)) front.length data.length =
      some data := by
  unfold readAt
  rw [if_pos (Or.inr (by simp [← Nat.add_assoc])), List.drop_left,
    List.take_left]

theorem overlay_append (first second stale : List UInt8) :
    overlay (first ++ second) stale =
      first ++ overlay second (stale.drop first.length) := by
  simp [overlay, List.drop_drop]

@[simp] theorem overlay_empty (data : List UInt8) : overlay data [] = data := by
  simp [overlay]

/-- Writing where some bytes start replaces their front. -/
theorem writeAt_append (front stale data : List UInt8) :
    writeAt (front ++ stale) front.length data =
      front ++ overlay data stale := by
  unfold writeAt
  split
  · rename_i empty
    simp [empty, overlay]
  · have noGap : front.length - (front ++ stale).length = 0 := by
      rw [List.length_append]
      omega
    rw [noGap, List.replicate_zero, List.append_nil, List.take_left,
      overlay, List.drop_append]
    simp

theorem totalBytes_consecutive (offset : Nat) (chunks : List (List UInt8)) :
    totalBytes (consecutive offset chunks) = chunks.flatten.length := by
  induction chunks generalizing offset with
  | nil =>
      rfl
  | cons chunk rest inductionHypothesis =>
      have tail := inductionHypothesis (offset + chunk.length)
      simp only [totalBytes, consecutive, List.map_cons, List.sum_cons,
        List.flatten_cons, List.length_append] at tail ⊢
      rw [tail]

theorem consecutive_append (offset : Nat) (first second : List (List UInt8)) :
    consecutive offset (first ++ second) =
      consecutive offset first ++
        consecutive (offset + first.flatten.length) second := by
  induction first generalizing offset with
  | nil =>
      rfl
  | cons chunk rest inductionHypothesis =>
      simp only [List.cons_append, consecutive, inductionHypothesis,
        List.flatten_cons, List.length_append, Nat.add_assoc]

/-- An interrupted batch of consecutive writes is an overlay. -/
theorem writePrefix_consecutive
    (front stale : List UInt8)
    (chunks : List (List UInt8))
    (budget : Nat) :
    writePrefix budget (consecutive front.length chunks) (front ++ stale) =
      front ++ overlay (chunks.flatten.take budget) stale := by
  induction chunks generalizing front stale budget with
  | nil =>
      simp [consecutive, writePrefix, overlay]
  | cons chunk rest inductionHypothesis =>
      simp only [consecutive, writePrefix, List.flatten_cons, writeAt_append]
      split
      · rename_i complete
        have next := inductionHypothesis (front ++ chunk)
          (stale.drop chunk.length) (budget - chunk.length)
        rw [List.length_append, List.append_assoc] at next
        rw [List.take_append, List.take_of_length_le complete,
          overlay_append]
        simpa [overlay] using next
      · rename_i cut
        rw [List.take_append_of_le_length (by omega)]

/-! ## What writes leave alone -/

section Frames

variable {bytes data : List UInt8} {writes : List (Nat × List UInt8)}
  {offset limit budget : Nat}

/-- Writing never shortens a file. -/
theorem length_le_writeAt (bytes data : List UInt8) (offset : Nat) :
    bytes.length ≤ (writeAt bytes offset data).length := by
  unfold writeAt
  split
  · exact Nat.le_refl _
  · simp only [List.length_append, List.length_take, List.length_replicate,
      List.length_drop]
    omega

/-- Writing behind the front of a file leaves the front. -/
theorem take_writeAt
    (inside : limit ≤ bytes.length)
    (behind : limit ≤ offset) :
    (writeAt bytes offset data).take limit = bytes.take limit := by
  unfold writeAt
  split
  · rfl
  · have front : limit ≤ ((bytes ++
        List.replicate (offset - bytes.length) 0).take offset).length := by
      simp only [List.length_take, List.length_append,
        List.length_replicate]
      omega
    rw [List.take_append_of_le_length front, List.take_take,
      Nat.min_eq_left behind, List.take_append_of_le_length inside]

theorem length_le_writePrefix :
    bytes.length ≤ (writePrefix budget writes bytes).length := by
  induction writes generalizing bytes budget with
  | nil =>
      exact Nat.le_refl _
  | cons write rest inductionHypothesis =>
      rw [writePrefix]
      split
      · exact (length_le_writeAt _ _ _).trans inductionHypothesis
      · exact length_le_writeAt _ _ _

/-- A batch of writes behind the front of a file leaves the front. -/
theorem take_writePrefix
    (inside : limit ≤ bytes.length)
    (behind : ∀ write ∈ writes, limit ≤ write.1) :
    (writePrefix budget writes bytes).take limit = bytes.take limit := by
  induction writes generalizing bytes budget with
  | nil =>
      rfl
  | cons write rest inductionHypothesis =>
      obtain ⟨first, later⟩ := List.forall_mem_cons.mp behind
      rw [writePrefix]
      split
      · rw [inductionHypothesis
          (inside.trans (length_le_writeAt _ _ _)) later,
          take_writeAt inside first]
      · exact take_writeAt inside first

theorem le_of_mem_consecutive
    {start : Nat}
    {chunks : List (List UInt8)}
    {write : Nat × List UInt8}
    (member : write ∈ consecutive start chunks) :
    start ≤ write.1 := by
  induction chunks generalizing start with
  | nil =>
      cases member
  | cons chunk rest inductionHypothesis =>
      rcases List.mem_cons.mp member with rfl | later
      · exact Nat.le_refl _
      · exact (Nat.le_add_right _ _).trans (inductionHypothesis later)

/-- A batch of consecutive writes reaches its end. -/
theorem le_length_writePrefix_consecutive
    {start : Nat}
    (inside : start ≤ bytes.length)
    (chunks : List (List UInt8)) :
    start + chunks.flatten.length ≤
      (writePrefix (totalBytes (consecutive start chunks))
        (consecutive start chunks) bytes).length := by
  have written := writePrefix_consecutive (bytes.take start)
    (bytes.drop start) chunks (totalBytes (consecutive start chunks))
  rw [List.take_append_drop, List.length_take,
    Nat.min_eq_left inside] at written
  rw [written, totalBytes_consecutive, List.take_length]
  simp only [overlay, List.length_append, List.length_take]
  omega

/-- A read in front of a limit sees only what lies there. -/
theorem readAt_of_take_eq
    {other : List UInt8}
    {count : Nat}
    (same : bytes.take limit = other.take limit)
    (within : offset + count ≤ limit)
    (inside : limit ≤ bytes.length)
    (otherInside : limit ≤ other.length) :
    readAt bytes offset count = readAt other offset count := by
  have front (contents : List UInt8) :
      (contents.drop offset).take count =
        ((contents.take limit).drop offset).take count := by
    rw [List.drop_take, List.take_take, Nat.min_eq_left (by omega)]
  unfold readAt
  rw [if_pos (Or.inr (by omega)), if_pos (Or.inr (by omega)), front bytes,
    front other, same]

end Frames

section Whole

variable (size : α → Nat)

theorem whole_isPrefix (budget : Nat) (items : List α) :
    whole size budget items <+: items := by
  induction items generalizing budget with
  | nil =>
      exact List.prefix_rfl
  | cons item rest inductionHypothesis =>
      unfold whole
      split
      · exact (List.prefix_cons_inj item).mpr (inductionHypothesis _)
      · exact List.nil_prefix

/-- With budget for everything, everything is whole. -/
theorem whole_eq_self
    {budget : Nat}
    {items : List α}
    (enough : (items.map size).sum ≤ budget) :
    whole size budget items = items := by
  induction items generalizing budget with
  | nil =>
      rfl
  | cons item rest inductionHypothesis =>
      simp only [List.map_cons, List.sum_cons] at enough
      rw [whole, if_pos (by omega), inductionHypothesis (by omega)]

theorem sum_whole_le (budget : Nat) (items : List α) :
    ((whole size budget items).map size).sum ≤ budget := by
  induction items generalizing budget with
  | nil =>
      exact Nat.zero_le _
  | cons item rest inductionHypothesis =>
      unfold whole
      split
      · have tail := inductionHypothesis (budget - size item)
        simp only [List.map_cons, List.sum_cons]
        omega
      · exact Nat.zero_le _

theorem whole_map
    {β : Type}
    (image : β → α)
    (budget : Nat)
    (items : List β) :
    whole size budget (items.map image) =
      (whole (fun item => size (image item)) budget items).map image := by
  induction items generalizing budget with
  | nil =>
      rfl
  | cons item rest inductionHypothesis =>
      rw [List.map_cons, whole, whole]
      split
      · rw [List.map_cons, inductionHypothesis]
      · rfl

/-- The item after the whole ones does not fit into what is left. -/
theorem lt_of_whole_append
    {budget : Nat}
    {items later : List α}
    {next : α}
    (split : items = whole size budget items ++ next :: later) :
    budget < ((whole size budget items).map size).sum + size next := by
  induction items generalizing budget with
  | nil =>
      simp [whole] at split
  | cons item rest inductionHypothesis =>
      unfold whole at split ⊢
      by_cases fits : size item ≤ budget
      · rw [if_pos fits] at split ⊢
        simp only [List.cons_append, List.cons.injEq, true_and] at split
        have tail := inductionHypothesis split
        simp only [List.map_cons, List.sum_cons]
        omega
      · rw [if_neg fits] at split ⊢
        simp only [List.nil_append, List.cons.injEq] at split
        obtain ⟨same, -⟩ := split
        subst same
        simp only [List.map_nil, List.sum_nil]
        omega

end Whole

end KalpakDb.ByteFile
