import KalpakDb.ByteFile

namespace KalpakDb.LineLog

/-!
# Logs of lines

A log is a sequence of texts, each followed by a newline.  Reading splits the
bytes behind every newline, so what an interrupted append leaves is the whole
lines of some front part and at most one line without its end.
-/

/-- The byte that ends a line. -/
def newline : UInt8 := 10

/-- The lines of some bytes with their ends; the last one may have none. -/
def splitInclusive : List UInt8 → List (List UInt8)
  | [] => []
  | byte :: rest =>
      if byte = newline then
        [byte] :: splitInclusive rest
      else
        match splitInclusive rest with
        | [] => [[byte]]
        | line :: more => (byte :: line) :: more

/-- A text as a line. -/
def terminate (text : List UInt8) : List UInt8 := text ++ [newline]

/-- The bytes of a log. -/
def encodeLines (texts : List (List UInt8)) : List UInt8 :=
  texts.flatMap terminate

section Lines

variable {text rest : List UInt8} {texts : List (List UInt8)}

@[simp] theorem length_terminate (text : List UInt8) :
    (terminate text).length = text.length + 1 := by
  simp [terminate]

@[simp] theorem encodeLines_nil : encodeLines [] = [] := rfl

@[simp] theorem encodeLines_cons (text : List UInt8) (rest : List (List UInt8)) :
    encodeLines (text :: rest) = terminate text ++ encodeLines rest := rfl

@[simp] theorem encodeLines_append (first second : List (List UInt8)) :
    encodeLines (first ++ second) = encodeLines first ++ encodeLines second :=
  List.flatMap_append

/-- A complete line in front of anything. -/
theorem splitInclusive_terminate
    (clean : newline ∉ text)
    (rest : List UInt8) :
    splitInclusive (terminate text ++ rest) =
      terminate text :: splitInclusive rest := by
  induction text with
  | nil =>
      simp [terminate, splitInclusive]
  | cons byte text inductionHypothesis =>
      rw [List.mem_cons, not_or] at clean
      have later := inductionHypothesis clean.2
      simp only [terminate, List.append_assoc, List.cons_append] at later ⊢
      rw [splitInclusive, if_neg (Ne.symm clean.1), later]

/-- A line without its end is the last one. -/
theorem splitInclusive_unterminated
    (clean : newline ∉ text)
    (nonempty : text ≠ []) :
    splitInclusive text = [text] := by
  induction text with
  | nil =>
      exact absurd rfl nonempty
  | cons byte text inductionHypothesis =>
      rw [List.mem_cons, not_or] at clean
      rw [splitInclusive, if_neg (Ne.symm clean.1)]
      by_cases last : text = []
      · simp [last, splitInclusive]
      · rw [inductionHypothesis clean.2 last]

/-- What was written of one line is read as one line. -/
theorem splitInclusive_part
    {part : List UInt8}
    (clean : newline ∉ text)
    (written : part <+: terminate text)
    (nonempty : part ≠ []) :
    splitInclusive part = [part] := by
  rcases List.prefix_concat_iff.mp written with whole | torn
  · have line := splitInclusive_terminate clean []
    rw [List.append_nil] at line
    rw [whole]
    exact line
  · exact splitInclusive_unterminated (fun member =>
      clean (torn.subset member)) nonempty

/-- Reading a log gives its lines, and then those of what follows it. -/
theorem splitInclusive_encodeLines
    (clean : ∀ text ∈ texts, newline ∉ text)
    (rest : List UInt8) :
    splitInclusive (encodeLines texts ++ rest) =
      texts.map terminate ++ splitInclusive rest := by
  induction texts with
  | nil =>
      rfl
  | cons text texts inductionHypothesis =>
      rw [encodeLines_cons, List.append_assoc,
        splitInclusive_terminate (clean text (by simp)),
        inductionHypothesis fun other member => clean other (by simp [member])]
      rfl

/-- What an interrupted append leaves: whole lines and a torn one. -/
theorem take_encodeLines
    (texts : List (List UInt8))
    (budget : Nat) :
    ∃ torn,
      (encodeLines texts).take budget =
          encodeLines
            (ByteFile.whole (fun text => text.length + 1) budget texts) ++
          torn ∧
        (torn = [] ∨ ∃ text ∈ texts, torn <+: text) := by
  induction texts generalizing budget with
  | nil =>
      exact ⟨[], by simp [ByteFile.whole], Or.inl rfl⟩
  | cons text texts inductionHypothesis =>
      by_cases fits : text.length + 1 ≤ budget
      · obtain ⟨torn, shape, source⟩ :=
          inductionHypothesis (budget - (text.length + 1))
        refine ⟨torn, ?_, source.imp_right ?_⟩
        · rw [ByteFile.whole, if_pos fits, encodeLines_cons, List.take_append,
            List.take_of_length_le (by simpa using fits), length_terminate,
            shape, encodeLines_cons, List.append_assoc]
        · rintro ⟨other, member, torn⟩
          exact ⟨other, List.mem_cons_of_mem _ member, torn⟩
      · refine ⟨text.take budget, ?_,
          Or.inr ⟨text, List.mem_cons_self .., List.take_prefix _ _⟩⟩
        rw [ByteFile.whole, if_neg fits, encodeLines_nil, List.nil_append,
          encodeLines_cons, terminate, List.append_assoc,
          List.take_append_of_le_length (by omega)]

end Lines

end KalpakDb.LineLog
