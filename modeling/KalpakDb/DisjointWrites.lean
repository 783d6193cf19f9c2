import KalpakDb.ByteFile

namespace KalpakDb.ByteFile

/-!
# Writes at distinct places

A write that begins where another one ends can be joined with it, and writes
to distinct places can be performed in any order.
-/

/-- A write puts a byte at a position. -/
def Covers (position : Nat) (write : Nat × List UInt8) : Prop :=
  write.1 ≤ position ∧ position < write.1 + write.2.length

instance (position : Nat) : DecidablePred (Covers position) :=
  fun _ => inferInstanceAs (Decidable (_ ∧ _))

/-- No position is covered by both writes. -/
def Disjoint (first second : Nat × List UInt8) : Prop :=
  ∀ position, ¬ (Covers position first ∧ Covers position second)

instance : Std.Symm Disjoint :=
  ⟨fun _ _ disjoint position covered => disjoint position covered.symm⟩

/-- Perform writes in order. -/
def writeAll
    (writes : List (Nat × List UInt8))
    (bytes : List UInt8) : List UInt8 :=
  writes.foldl (fun bytes write => writeAt bytes write.1 write.2) bytes

/-- A position is in the front or in the rest of a write, not in both. -/
theorem covers_append
    (position start : Nat)
    (first second : List UInt8) :
    (if decide (Covers position (start, first ++ second)) then 1 else 0) =
      (if decide (Covers position (start, first)) then 1 else 0) +
        (if decide (Covers position (start + first.length, second)) then 1
          else 0) := by
  have either : Covers position (start, first ++ second) ↔
      Covers position (start, first) ∨
        Covers position (start + first.length, second) := by
    simp only [Covers, List.length_append]
    omega
  have notBoth : Covers position (start, first) →
      ¬ Covers position (start + first.length, second) := by
    simp only [Covers]
    omega
  by_cases inFirst : Covers position (start, first)
  · simp [either, inFirst, notBoth inFirst]
  · simp [either, inFirst]

section Writes

variable {bytes : List UInt8} {offset : Nat}

theorem writeAll_append
    (first second : List (Nat × List UInt8))
    (bytes : List UInt8) :
    writeAll (first ++ second) bytes =
      writeAll second (writeAll first bytes) := by
  rw [writeAll, List.foldl_append]
  rfl

@[simp] theorem writeAt_nil (bytes : List UInt8) (offset : Nat) :
    writeAt bytes offset [] = bytes := by
  rw [writeAt, if_pos rfl]

/-- What a write leaves at each position. -/
theorem getElem?_writeAt
    (bytes : List UInt8)
    (offset : Nat)
    {data : List UInt8}
    (nonempty : data ≠ [])
    (position : Nat) :
    (writeAt bytes offset data)[position]? =
      if position < offset then
        if position < bytes.length then bytes[position]? else some 0
      else if position < offset + data.length then
        data[position - offset]?
      else
        bytes[position]? := by
  rw [writeAt, if_neg nonempty]
  have front : ((bytes ++
      List.replicate (offset - bytes.length) 0).take offset).length =
        offset := by
    simp only [List.length_take, List.length_append, List.length_replicate]
    omega
  by_cases before : position < offset
  · rw [if_pos before, List.getElem?_append_left (by omega),
      List.getElem?_take_of_lt before]
    split
    · rename_i inside
      rw [List.getElem?_append_left inside]
    · rename_i outside
      rw [List.getElem?_append_right (by omega),
        List.getElem?_replicate, if_pos (by omega)]
  · rw [if_neg before, List.getElem?_append_right (by omega), front]
    split
    · rw [List.getElem?_append_left (by omega)]
    · rw [List.getElem?_append_right (by omega), List.getElem?_drop]
      congr 1
      omega

theorem length_writeAt
    (bytes : List UInt8)
    (offset : Nat)
    {data : List UInt8}
    (nonempty : data ≠ []) :
    (writeAt bytes offset data).length =
      max bytes.length (offset + data.length) := by
  rw [writeAt, if_neg nonempty]
  simp only [List.length_append, List.length_take, List.length_replicate,
    List.length_drop]
  omega

/-- A write that begins where another one ends continues it. -/
theorem writeAt_writeAt_consecutive
    (bytes : List UInt8)
    (offset : Nat)
    (first second : List UInt8) :
    writeAt (writeAt bytes offset first) (offset + first.length) second =
      writeAt bytes offset (first ++ second) := by
  by_cases firstEmpty : first = []
  · subst firstEmpty
    simp
  by_cases secondEmpty : second = []
  · subst secondEmpty
    simp
  have both : first ++ second ≠ [] := by simp [firstEmpty]
  have reached : offset + first.length ≤
      (writeAt bytes offset first).length := by
    rw [length_writeAt _ _ firstEmpty]
    exact le_max_right _ _
  apply List.ext_getElem?
  intro position
  rw [getElem?_writeAt _ _ secondEmpty, getElem?_writeAt _ _ both,
    getElem?_writeAt _ _ firstEmpty, List.length_append]
  by_cases inFirst : position < offset + first.length
  · rw [if_pos inFirst, if_pos (inFirst.trans_le reached), if_pos inFirst,
      if_pos (by omega : position < offset + (first.length + second.length))]
    split
    · rfl
    · rw [List.getElem?_append_left (by omega)]
  · rw [if_neg inFirst, if_neg inFirst, if_neg (by omega : ¬ position < offset),
      if_neg (by omega : ¬ position < offset), Nat.add_assoc]
    split
    · rw [List.getElem?_append_right (by omega)]
      congr 1
      omega
    · rfl

/-- Two writes of which one ends where the other one begins, or before. -/
theorem writeAt_comm_of_le
    (bytes : List UInt8)
    {offset place : Nat}
    {data other : List UInt8}
    (nonempty : data ≠ [])
    (otherNonempty : other ≠ [])
    (before : offset + data.length ≤ place) :
    writeAt (writeAt bytes offset data) place other =
      writeAt (writeAt bytes place other) offset data := by
  have length := length_writeAt bytes offset nonempty
  have otherLength := length_writeAt bytes place otherNonempty
  apply List.ext_getElem?
  intro position
  rw [getElem?_writeAt _ _ otherNonempty, getElem?_writeAt _ _ nonempty,
    getElem?_writeAt _ _ nonempty, getElem?_writeAt _ _ otherNonempty]
  split_ifs <;> first | rfl | omega

/-- Writes to distinct places can be exchanged. -/
theorem writeAt_comm
    (bytes : List UInt8)
    {first second : Nat × List UInt8}
    (disjoint : Disjoint first second) :
    writeAt (writeAt bytes first.1 first.2) second.1 second.2 =
      writeAt (writeAt bytes second.1 second.2) first.1 first.2 := by
  obtain ⟨offset, data⟩ := first
  obtain ⟨place, other⟩ := second
  by_cases dataEmpty : data = []
  · subst dataEmpty
    simp
  by_cases otherEmpty : other = []
  · subst otherEmpty
    simp
  have long := List.length_pos_iff.mpr dataEmpty
  have otherLong := List.length_pos_iff.mpr otherEmpty
  have atFirst := disjoint offset
  have atSecond := disjoint place
  dsimp only [Covers] at atFirst atSecond
  rcases Nat.lt_or_ge offset place with before | behind
  · have apart : offset + data.length ≤ place := by omega
    exact writeAt_comm_of_le bytes dataEmpty otherEmpty apart
  · have apart : place + other.length ≤ offset := by omega
    exact (writeAt_comm_of_le bytes otherEmpty dataEmpty apart).symm

/-- Writes to distinct places can be performed in any order. -/
theorem writeAll_perm
    {first second : List (Nat × List UInt8)}
    (same : first.Perm second)
    (distinct : first.Pairwise Disjoint)
    (bytes : List UInt8) :
    writeAll first bytes = writeAll second bytes := by
  refine same.foldl_eq' ?_ bytes
  intro write member other otherMember contents
  by_cases same : write = other
  · rw [same]
  · exact writeAt_comm contents (distinct.forall member otherMember same)

/-- Disjoint writes cover each position at most once. -/
theorem pairwise_disjoint_iff (writes : List (Nat × List UInt8)) :
    writes.Pairwise Disjoint ↔
      ∀ position, writes.countP (Covers position ·) ≤ 1 := by
  induction writes with
  | nil =>
      simp
  | cons write rest inductionHypothesis =>
      rw [List.pairwise_cons, inductionHypothesis]
      constructor
      · rintro ⟨apart, once⟩ position
        rw [List.countP_cons]
        split
        · rename_i covered
          have none : rest.countP (Covers position ·) = 0 := by
            rw [List.countP_eq_zero]
            intro other member otherCovered
            exact apart other member position
              ⟨of_decide_eq_true covered, of_decide_eq_true otherCovered⟩
          omega
        · exact once position
      · intro once
        refine ⟨?_, ?_⟩
        · rintro other member position ⟨covered, otherCovered⟩
          have some : 0 < rest.countP (Covers position ·) :=
            List.countP_pos_iff.mpr
              ⟨other, member, decide_eq_true otherCovered⟩
          have atMost := once position
          rw [List.countP_cons, if_pos (decide_eq_true covered)] at atMost
          omega
        · intro position
          have atMost := once position
          rw [List.countP_cons] at atMost
          omega

end Writes

end KalpakDb.ByteFile
