import KalpakDb.ByteCodec

namespace KalpakDb.SelfDelimiting

/-!
# Self-delimiting encodings

An encoding delimits its values if a value and the rest of the text can be
told from their concatenation.  Encodings of one length do, and so do
encodings that are written one after the other, counted sequences and tagged
optional values.  What delimits its values is injective.
-/

variable {α β Symbol : Type}

/-- A valid value and what follows it are determined by the text. -/
def Delimits (valid : α → Prop) (encode : α → List Symbol) : Prop :=
  ∀ first second firstRest secondRest,
    valid first →
    valid second →
    encode first ++ firstRest = encode second ++ secondRest →
    first = second ∧ firstRest = secondRest

section Rules

variable {valid : α → Prop} {encode : α → List Symbol}

theorem Delimits.injective
    (delimits : Delimits valid encode)
    {first second : α}
    (firstValid : valid first)
    (secondValid : valid second)
    (same : encode first = encode second) :
    first = second :=
  (delimits first second [] [] firstValid secondValid
    (by rw [same])).1

/-- Injective encodings of one length delimit their values. -/
theorem delimits_of_length
    (width : Nat)
    (length_encode : ∀ value, (encode value).length = width)
    (injective :
      ∀ first second,
        valid first →
        valid second →
        encode first = encode second →
        first = second) :
    Delimits valid encode := by
  intro first second firstRest secondRest firstValid secondValid same
  obtain ⟨sameText, sameRest⟩ := List.append_inj same
    ((length_encode first).trans (length_encode second).symm)
  exact ⟨injective first second firstValid secondValid sameText, sameRest⟩

/-- What a reader takes from the front of any text delimits its values. -/
theorem delimits_of_read
    (read : List Symbol → Option (α × List Symbol))
    (read_encode :
      ∀ value rest, valid value →
        read (encode value ++ rest) = some (value, rest)) :
    Delimits valid encode := by
  intro first second firstRest secondRest firstValid secondValid same
  have one := read_encode first firstRest firstValid
  rw [same, read_encode second secondRest secondValid] at one
  cases one
  exact ⟨rfl, rfl⟩

/-- A value that is written as another one. -/
theorem Delimits.via
    (delimits : Delimits valid encode)
    (store : β → α)
    (injective : Function.Injective store) :
    Delimits (fun value => valid (store value))
      (fun value => encode (store value)) := by
  intro first second firstRest secondRest firstValid secondValid same
  obtain ⟨sameStored, sameRest⟩ :=
    delimits _ _ _ _ firstValid secondValid same
  exact ⟨injective sameStored, sameRest⟩

/-- One value after the other. -/
theorem Delimits.pair
    {otherValid : β → Prop}
    {encodeOther : β → List Symbol}
    (delimits : Delimits valid encode)
    (delimitsOther : Delimits otherValid encodeOther) :
    Delimits (fun value : α × β => valid value.1 ∧ otherValid value.2)
      (fun value => encode value.1 ++ encodeOther value.2) := by
  rintro ⟨left, right⟩ ⟨left', right'⟩ firstRest secondRest
    ⟨leftValid, rightValid⟩ ⟨leftValid', rightValid'⟩ same
  simp only [List.append_assoc] at same
  obtain ⟨rfl, sameTail⟩ := delimits _ _ _ _ leftValid leftValid' same
  obtain ⟨rfl, sameRest⟩ :=
    delimitsOther _ _ _ _ rightValid rightValid' sameTail
  exact ⟨rfl, sameRest⟩

/-- Sequences of one length delimit themselves. -/
theorem Delimits.flatMap_of_length
    (delimits : Delimits valid encode)
    {first second : List α}
    {firstRest secondRest : List Symbol}
    (sameLength : first.length = second.length)
    (firstValid : ∀ value ∈ first, valid value)
    (secondValid : ∀ value ∈ second, valid value)
    (same :
      first.flatMap encode ++ firstRest =
        second.flatMap encode ++ secondRest) :
    first = second ∧ firstRest = secondRest := by
  induction first generalizing second with
  | nil =>
      cases List.length_eq_zero_iff.mp sameLength.symm
      exact ⟨rfl, same⟩
  | cons value values inductionHypothesis =>
      cases second with
      | nil =>
          cases sameLength
      | cons other others =>
          simp only [List.flatMap_cons, List.append_assoc] at same
          obtain ⟨rfl, sameTail⟩ := delimits _ _ _ _
            (firstValid _ List.mem_cons_self)
            (secondValid _ List.mem_cons_self) same
          obtain ⟨rfl, sameRest⟩ := inductionHypothesis
            (Nat.succ.inj sameLength)
            (fun value member =>
              firstValid value (List.mem_cons_of_mem _ member))
            (fun value member =>
              secondValid value (List.mem_cons_of_mem _ member))
            sameTail
          exact ⟨rfl, sameRest⟩

/-- A sequence after its length. -/
theorem Delimits.counted
    (delimits : Delimits valid encode)
    {validCount : Nat → Prop}
    {encodeCount : Nat → List Symbol}
    (delimitsCount : Delimits validCount encodeCount) :
    Delimits
      (fun values : List α =>
        validCount values.length ∧ ∀ value ∈ values, valid value)
      (fun values =>
        encodeCount values.length ++ values.flatMap encode) := by
  intro first second firstRest secondRest firstValid secondValid same
  simp only [List.append_assoc] at same
  obtain ⟨sameLength, sameTail⟩ :=
    delimitsCount _ _ _ _ firstValid.1 secondValid.1 same
  exact delimits.flatMap_of_length sameLength firstValid.2 secondValid.2
    sameTail

/-- A value that may be missing, after a symbol that says so. -/
theorem Delimits.option
    (delimits : Delimits valid encode)
    {absent present : Symbol}
    (different : absent ≠ present) :
    Delimits (fun value : Option α => ∀ inner ∈ value, valid inner)
      (fun value =>
        match value with
        | none => [absent]
        | some inner => present :: encode inner) := by
  rintro (_ | first) (_ | second) firstRest secondRest firstValid
    secondValid same
  · exact ⟨rfl, (List.cons.inj same).2⟩
  · exact absurd (List.cons.inj same).1 different
  · exact absurd (List.cons.inj same).1.symm different
  · obtain ⟨rfl, sameRest⟩ := delimits _ _ _ _
      (firstValid first rfl) (secondValid second rfl)
      (List.cons.inj same).2
    exact ⟨rfl, sameRest⟩

/-- Symbols in front of a terminator that is none of them. -/
theorem delimits_terminated (terminator : Symbol) :
    Delimits (fun text => terminator ∉ text)
      (fun text => text ++ [terminator]) := by
  intro first second firstRest secondRest firstPlain secondPlain same
  simp only [List.append_assoc, List.singleton_append] at same
  induction first generalizing second with
  | nil =>
      cases second with
      | nil =>
          exact ⟨rfl, (List.cons.inj same).2⟩
      | cons symbol second =>
          have isFirst := (List.cons.inj same).1
          exact absurd (isFirst ▸ List.mem_cons_self) secondPlain
  | cons symbol first inductionHypothesis =>
      cases second with
      | nil =>
          have isFirst := (List.cons.inj same).1
          exact absurd (isFirst ▸ List.mem_cons_self) firstPlain
      | cons other second =>
          obtain ⟨rfl, sameTail⟩ := List.cons.inj same
          obtain ⟨rfl, sameRest⟩ := inductionHypothesis second
            (fun member => firstPlain (List.mem_cons_of_mem _ member))
            (fun member => secondPlain (List.mem_cons_of_mem _ member))
            sameTail
          exact ⟨rfl, sameRest⟩

/-- A sequence in front of a terminator that starts none of its values. -/
theorem Delimits.terminated
    (delimits : Delimits valid encode)
    {terminator : Symbol}
    (apart :
      ∀ value, valid value →
        ∃ symbol rest, encode value = symbol :: rest ∧ symbol ≠ terminator) :
    Delimits (fun values : List α => ∀ value ∈ values, valid value)
      (fun values => values.flatMap encode ++ [terminator]) := by
  intro first
  induction first with
  | nil =>
      intro second firstRest secondRest _ secondValid same
      cases second with
      | nil =>
          exact ⟨rfl, by simpa using same⟩
      | cons value values =>
          obtain ⟨symbol, rest, encoded, different⟩ :=
            apart value (secondValid value (List.mem_cons_self ..))
          simp only [List.flatMap_nil, List.flatMap_cons, encoded,
            List.cons_append, List.nil_append, List.cons.injEq] at same
          exact absurd same.1.symm different
  | cons value values inductionHypothesis =>
      intro second firstRest secondRest firstValid secondValid same
      have valid := firstValid value (List.mem_cons_self ..)
      cases second with
      | nil =>
          obtain ⟨symbol, rest, encoded, different⟩ := apart value valid
          simp only [List.flatMap_nil, List.flatMap_cons, encoded,
            List.cons_append, List.nil_append, List.cons.injEq] at same
          exact absurd same.1 different
      | cons other others =>
          simp only [List.flatMap_cons, List.append_assoc] at same
          obtain ⟨rfl, sameRest⟩ := delimits value other _ _ valid
            (secondValid other (List.mem_cons_self ..)) same
          obtain ⟨rfl, rfl⟩ := inductionHypothesis others firstRest
            secondRest
            (fun item member => firstValid item
              (List.mem_cons_of_mem _ member))
            (fun item member => secondValid item
              (List.mem_cons_of_mem _ member))
            (by simpa only [List.append_assoc] using sameRest)
          exact ⟨rfl, rfl⟩

/-- A sequence of non-empty encodings is determined by its whole text. -/
theorem Delimits.flatMap_injective
    (delimits : Delimits valid encode)
    (nonempty : ∀ value, encode value ≠ [])
    {first second : List α}
    (firstValid : ∀ value ∈ first, valid value)
    (secondValid : ∀ value ∈ second, valid value)
    (same : first.flatMap encode = second.flatMap encode) :
    first = second := by
  induction first generalizing second with
  | nil =>
      cases second with
      | nil =>
          rfl
      | cons other others =>
          exact absurd (List.append_eq_nil_iff.mp same.symm).1
            (nonempty other)
  | cons value values inductionHypothesis =>
      cases second with
      | nil =>
          exact absurd (List.append_eq_nil_iff.mp same).1 (nonempty value)
      | cons other others =>
          obtain ⟨rfl, sameTail⟩ := delimits _ _ _ _
            (firstValid _ List.mem_cons_self)
            (secondValid _ List.mem_cons_self) same
          rw [inductionHypothesis
            (fun value member =>
              firstValid value (List.mem_cons_of_mem _ member))
            (fun value member =>
              secondValid value (List.mem_cons_of_mem _ member))
            sameTail]

end Rules

/-! ## Bytes -/

open ByteCodec (leBytes leValue leValue_leBytes length_leBytes)

/-- Numbers that fit so many bytes. -/
theorem delimits_leBytes (width : Nat) :
    Delimits (fun value => value < 256 ^ width) (leBytes width) := by
  refine delimits_of_length width (length_leBytes width) ?_
  intro first second firstFits secondFits same
  have values := congrArg leValue same
  rwa [leValue_leBytes firstFits, leValue_leBytes secondFits] at values

/-- Bytes after their number. -/
theorem delimits_bytes (width : Nat) :
    Delimits (fun bytes => bytes.length < 256 ^ width)
      (fun bytes => leBytes width bytes.length ++ bytes) := by
  have delimitsByte : Delimits (fun _ : UInt8 => True) (fun byte => [byte]) :=
    delimits_of_length 1 (fun _ => rfl)
      (fun _ _ _ _ same => List.singleton_inj.mp same)
  intro first second firstRest secondRest firstFits secondFits same
  refine delimitsByte.counted (delimits_leBytes width) first second
    firstRest secondRest ⟨firstFits, fun _ _ => trivial⟩
    ⟨secondFits, fun _ _ => trivial⟩ ?_
  simpa only [List.flatMap_singleton'] using same

end KalpakDb.SelfDelimiting
