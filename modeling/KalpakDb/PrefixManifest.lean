import KalpakDb.Identifiers
import KalpakDb.LineLog
import KalpakDb.StepRun
import KalpakDb.Utf8

namespace KalpakDb

/-!
# The prefix manifest

The manifest maps cache keys to block lists and logs each binding as one line
of JSON.  Opening replays the log up to the first line that does not parse and
cuts the file there.  A line whose newline never reached the file still
parses, and then the next binding is appended to that same line.
-/

open Std (ExtTreeMap)
open LineLog

namespace PrefixManifest

/-- What one line of the log records. -/
structure Binding where
  key : CacheKey
  blocks : List BlockId
  deriving DecidableEq

/-- How a cache key is written inside a line, which has no newline. -/
class KeyText where
  write : CacheKey → List Char
  newline_notMem_write : ∀ key, '\n' ∉ write key

section Lines

variable [KeyText]

/-- The fields of a binding in JSON text. -/
def Binding.members (binding : Binding) : List Char :=
  "\"key\":".toList ++ KeyText.write binding.key ++
    ",\"blocks\":[".toList ++
    List.intercalate [',']
      (binding.blocks.map fun id => jsonString (hexEncode id.bytes)) ++
    [']']

/-- `serde_json::to_string` on a binding. -/
def Binding.toJson (binding : Binding) : List Char :=
  '\x7b' :: (binding.members ++ ['\x7d'])

/-- The bytes of a binding in the log, without the newline. -/
def Binding.line (binding : Binding) : Bytes := Utf8.encode binding.toJson

end Lines

/-- An open manifest: its map and the offset of its file handle. -/
structure Manifest where
  map : ExtTreeMap CacheKey (List BlockId)
  position : Nat

def Manifest.lookup
    (manifest : Manifest)
    (key : CacheKey) : Option (List BlockId) :=
  manifest.map[key]?

/-- The log file, and the manifest while a process has it open. -/
structure Host where
  file : Bytes := []
  manifest : Option Manifest := none

/-- Reading a line that is not UTF-8 fails. -/
inductive OpenError where
  | invalidData

section Decoder

variable (fromStr : List Char → Option Binding)

/-- Replay lines; the number is the end of the last intact one. -/
def replay :
    List Bytes → Nat → ExtTreeMap CacheKey (List BlockId) →
      Except OpenError (ExtTreeMap CacheKey (List BlockId) × Nat)
  | [], validEnd, map => .ok (map, validEnd)
  | line :: rest, validEnd, map =>
      match Utf8.decode line with
      | none => .error .invalidData
      | some text =>
          match fromStr (Utf8.trimEnd text) with
          | some binding =>
              replay rest (validEnd + line.length)
                (map.insert binding.key binding.blocks)
          | none => .ok (map, validEnd)

/-- `PrefixManifest::open`: the manifest and what is left of the file. -/
def openLog (file : Bytes) : Except OpenError (Manifest × Bytes) :=
  match replay fromStr (splitInclusive file) 0 ∅ with
  | .error error => .error error
  | .ok (map, validEnd) =>
      .ok (⟨map, validEnd⟩, file.take validEnd)

end Decoder

section Histories

variable [KeyText]

/-- The two writes of a bind: the line and its newline. -/
def bindWrites (manifest : Manifest) (binding : Binding) : List (Nat × Bytes) :=
  ByteFile.consecutive manifest.position [binding.line, [newline]]

/-- `PrefixManifest::bind` that returns `Ok`. -/
def Host.bind (host : Host) (binding : Binding) : Host :=
  match host.manifest with
  | none => host
  | some manifest =>
      let writes := bindWrites manifest binding
      { file :=
          ByteFile.writePrefix (ByteFile.totalBytes writes) writes host.file
        manifest := some
          { map := manifest.map.insert binding.key binding.blocks
            position := manifest.position + ByteFile.totalBytes writes } }

/-- The process ends after so many bytes of a bind reached the file. -/
def Host.crash (host : Host) (binding : Binding) (written : Nat) : Host :=
  match host.manifest with
  | none => host
  | some manifest =>
      { file :=
          ByteFile.writePrefix written (bindWrites manifest binding) host.file
        manifest := none }

inductive Event where
  | bind (binding : Binding)
  | crash (binding : Binding) (written : Nat)
  | reopen

def Event.binding? : Event → Option Binding
  | .bind binding => some binding
  | .crash binding _ => some binding
  | .reopen => none

/-- A bind whose line reached the file completely. -/
structure Attempt where
  binding : Binding
  acknowledged : Bool
  deriving DecidableEq

/-- What an event adds to the binds a history has made. -/
def attempt? (host : Host) : Event → Option Attempt
  | .bind binding =>
      if host.manifest.isSome then some ⟨binding, true⟩ else none
  | .crash binding written =>
      if host.manifest.isSome ∧ binding.line.length ≤ written then
        some ⟨binding, false⟩
      else
        none
  | .reopen => none

/-- A history so far: the host and the binds it has made. -/
structure History where
  host : Host := {}
  attempts : List Attempt := []

def stepHost
    (fromStr : List Char → Option Binding)
    (host : Host) : Event → Host
  | .bind binding => host.bind binding
  | .crash binding written => host.crash binding written
  | .reopen =>
      match openLog fromStr host.file with
      | .error _ => { host with manifest := none }
      | .ok (manifest, file) => ⟨file, some manifest⟩

def step
    (fromStr : List Char → Option Binding)
    (history : History)
    (event : Event) : History :=
  { host := stepHost fromStr history.host event
    attempts := history.attempts ++ (attempt? history.host event).toList }

/--
What a lookup may return: the blocks of the last acknowledged bind on the key,
or of a later one that was completely written.
-/
def Retained
    (attempts : List Attempt)
    (key : CacheKey)
    (result : Option (List BlockId)) : Prop :=
  (∃ earlier attempt later,
      attempts = earlier ++ attempt :: later ∧
        attempt.binding.key = key ∧
        result = some attempt.binding.blocks ∧
        ∀ other ∈ later,
          other.binding.key = key → other.acknowledged = false) ∨
    (result = none ∧
      ∀ attempt ∈ attempts,
        attempt.binding.key = key → attempt.acknowledged = false)

/-- Every reopen of a history succeeds and retains the bindings. -/
def KeepsBindings
    (fromStr : List Char → Option Binding)
    (events : List Event) : Prop :=
  ∀ position,
    events[position]? = some .reopen →
    let history := StepRun.before (step fromStr) {} events (position + 1)
    ∃ manifest,
      history.host.manifest = some manifest ∧
        ∀ key, Retained history.attempts key (manifest.lookup key)

/--
The condition on one event: an acknowledged bind starts on a new line, and a
crash does not tear a character.
-/
def Careful (host : Host) : Event → Prop
  | .bind _ => host.file = [] ∨ host.file.getLast? = some newline
  | .crash binding written =>
      (Utf8.decode ((terminate binding.line).take written)).isSome
  | .reopen => True

instance (host : Host) : (event : Event) → Decidable (Careful host event)
  | .bind _ => inferInstanceAs (Decidable (_ ∨ _))
  | .crash _ _ => inferInstanceAs (Decidable (_ = true))
  | .reopen => isTrue trivial

/--
What the JSON decoder does with the text of a binding, with a part of it, and
with more behind it.
-/
structure Decodes
    (fromStr : List Char → Option Binding)
    (binding : Binding) : Prop where
  roundTrip : fromStr binding.toJson = some binding
  unfinished :
    ∀ text, text <+: binding.toJson → text ≠ binding.toJson →
      fromStr text = none
  trailing : ∀ rest, fromStr (binding.toJson ++ '\x7b' :: rest) = none

end Histories

/-! ## The text of a binding -/

section Text

theorem hexDigit_ne_newline (nibble : UInt8) : hexDigit nibble ≠ '\n' := by
  revert nibble
  decide +kernel

theorem newline_notMem_jsonEscape (char : Char) : '\n' ∉ jsonEscape char := by
  unfold jsonEscape
  split_ifs with _ _ newline
  case neg => simp [Ne.symm newline]
  all_goals simp [Ne.symm (hexDigit_ne_newline _)]

theorem newline_notMem_jsonString (chars : List Char) :
    '\n' ∉ jsonString chars := by
  have escaped : '\n' ∉ chars.flatMap jsonEscape := by
    intro member
    obtain ⟨char, _, inside⟩ := List.mem_flatMap.mp member
    exact newline_notMem_jsonEscape char inside
  simp [jsonString, escaped]

theorem mem_intercalate
    {pieces : List (List Char)}
    {separator : List Char}
    {char : Char}
    (member : char ∈ List.intercalate separator pieces) :
    char ∈ separator ∨ ∃ piece ∈ pieces, char ∈ piece := by
  induction pieces with
  | nil =>
      simp [List.intercalate] at member
  | cons piece pieces inductionHypothesis =>
      by_cases last : pieces = []
      · subst last
        rw [List.intercalate_singleton] at member
        exact Or.inr ⟨piece, List.mem_cons_self .., member⟩
      · rw [List.intercalate_cons_of_ne_nil last, List.mem_append,
          List.mem_append] at member
        rcases member with (inPiece | inSeparator) | later
        · exact Or.inr ⟨piece, List.mem_cons_self .., inPiece⟩
        · exact Or.inl inSeparator
        · refine (inductionHypothesis later).imp_right ?_
          rintro ⟨other, isPiece, inside⟩
          exact ⟨other, List.mem_cons_of_mem _ isPiece, inside⟩

theorem newline_notMem_blocks (blocks : List BlockId) :
    '\n' ∉ List.intercalate [',']
      (blocks.map fun id => jsonString (hexEncode id.bytes)) := by
  intro member
  rcases mem_intercalate member with separator | ⟨piece, isPiece, inside⟩
  · exact absurd separator (by decide)
  · obtain ⟨id, _, rfl⟩ := List.mem_map.mp isPiece
    exact newline_notMem_jsonString _ inside

variable [KeyText]

theorem Binding.newline_notMem_members (binding : Binding) :
    '\n' ∉ binding.members := by
  refine List.not_mem_append
    (List.not_mem_append (List.not_mem_append (List.not_mem_append ?_
      (KeyText.newline_notMem_write binding.key)) ?_)
      (newline_notMem_blocks binding.blocks)) ?_
  all_goals decide +kernel

theorem Binding.newline_notMem_toJson (binding : Binding) :
    '\n' ∉ binding.toJson := by
  intro member
  rcases List.mem_cons.mp member with brace | later
  · exact absurd brace (by decide)
  · exact List.not_mem_append binding.newline_notMem_members (by decide) later

/-- A line of the log has no newline inside. -/
theorem Binding.newline_notMem_line (binding : Binding) :
    newline ∉ binding.line := by
  intro member
  exact binding.newline_notMem_toJson
    (Utf8.mem_of_mem_encode (by decide) member)

theorem Binding.trimEnd_toJson
    (binding : Binding)
    (rest : List Char) :
    Utf8.trimEnd (binding.toJson ++ rest) =
      binding.toJson ++ Utf8.trimEnd rest := by
  have visible := Utf8.trimEnd_visible ('\x7b' :: binding.members) rest
    (show Utf8.isWhitespace '\x7d' = false by decide)
  simpa [Binding.toJson] using visible

theorem Binding.terminate_line (binding : Binding) :
    terminate binding.line = Utf8.encode (binding.toJson ++ ['\n']) := by
  rw [Utf8.encode_append]
  rfl

theorem Binding.line_ne_nil (binding : Binding) : binding.line ≠ [] := by
  simp [Binding.line, Binding.toJson, Utf8.encode_cons,
    List.ne_nil_of_length_pos (Utf8.length_utf8EncodeChar_pos _)]

theorem Binding.getLast?_line (binding : Binding) (front : Bytes) :
    (front ++ binding.line).getLast? = some 125 := by
  have last : binding.line =
      Utf8.encode ('\x7b' :: binding.members) ++ [125] := by
    rw [Binding.line, Binding.toJson, ← List.cons_append, Utf8.encode_append]
    rfl
  rw [last, ← List.append_assoc, List.getLast?_concat]

end Text

/-! ## Opening a log -/

/-- The bytes of some complete lines. -/
def lines [KeyText] (bindings : List Binding) : Bytes :=
  encodeLines (bindings.map Binding.line)

/-- The map after some bindings in order. -/
def bindAll (bindings : List Binding) : ExtTreeMap CacheKey (List BlockId) :=
  bindings.foldl (fun map binding => map.insert binding.key binding.blocks) ∅

theorem bindAll_concat (bindings : List Binding) (binding : Binding) :
    bindAll (bindings ++ [binding]) =
      (bindAll bindings).insert binding.key binding.blocks := by
  simp [bindAll]

/-- What may follow the complete lines, and the binding it still gives. -/
inductive Remainder [KeyText] (fromStr : List Char → Option Binding) :
    Option Binding → Bytes → Prop where
  | nothing : Remainder fromStr none []
  | rejected
      {text : List Char}
      {bytes : Bytes}
      (single : splitInclusive bytes = [bytes])
      (read : Utf8.decode bytes = some text)
      (fails : fromStr (Utf8.trimEnd text) = none) :
      Remainder fromStr none bytes
  | unterminated (binding : Binding) :
      Remainder fromStr (some binding) binding.line

section Opening

variable [KeyText] {fromStr : List Char → Option Binding} {bindings : List Binding}
  {binding : Binding} {tail : Option Binding} {rest : Bytes}

@[simp] theorem lines_append (first second : List Binding) :
    lines (first ++ second) = lines first ++ lines second := by
  simp [lines]

theorem lines_singleton (binding : Binding) :
    lines [binding] = terminate binding.line := by
  simp [lines]

theorem splitInclusive_lines (bindings : List Binding) (rest : Bytes) :
    splitInclusive (lines bindings ++ rest) =
      bindings.map (fun binding => terminate binding.line) ++
        splitInclusive rest := by
  have clean : ∀ text ∈ bindings.map Binding.line, newline ∉ text := by
    intro text member
    obtain ⟨binding, _, rfl⟩ := List.mem_map.mp member
    exact binding.newline_notMem_line
  rw [lines, splitInclusive_encodeLines clean, List.map_map]
  rfl

/-- A line of a binding, with its newline or without, replays the binding. -/
theorem replay_line
    (decodes : Decodes fromStr binding)
    {ending : List Char}
    (blank : Utf8.trimEnd ending = [])
    (more : List Bytes)
    (validEnd : Nat)
    (map : ExtTreeMap CacheKey (List BlockId)) :
    replay fromStr (Utf8.encode (binding.toJson ++ ending) :: more) validEnd map =
      replay fromStr more
        (validEnd + (Utf8.encode (binding.toJson ++ ending)).length)
        (map.insert binding.key binding.blocks) := by
  rw [replay, Utf8.decode_encode]
  simp only [binding.trimEnd_toJson, blank, List.append_nil,
    decodes.roundTrip]

theorem replay_lines
    (decodes : ∀ binding ∈ bindings, Decodes fromStr binding)
    (more : List Bytes)
    (validEnd : Nat)
    (map : ExtTreeMap CacheKey (List BlockId)) :
    replay fromStr
        (bindings.map (fun binding => terminate binding.line) ++ more)
        validEnd map =
      replay fromStr more (validEnd + (lines bindings).length)
        (bindings.foldl
          (fun map binding => map.insert binding.key binding.blocks) map) := by
  induction bindings generalizing validEnd map with
  | nil =>
      rfl
  | cons binding bindings inductionHypothesis =>
      have later (other : Binding) (member : other ∈ bindings) :
          Decodes fromStr other :=
        decodes other (List.mem_cons_of_mem _ member)
      have split : lines (binding :: bindings) =
          terminate binding.line ++ lines bindings := rfl
      rw [List.map_cons, List.cons_append, binding.terminate_line,
        replay_line (decodes binding (List.mem_cons_self ..)) (by decide),
        inductionHypothesis later, split, binding.terminate_line,
        List.length_append, Nat.add_assoc, List.foldl_cons]

/-- Opening replays every complete line and cuts off a rejected one. -/
theorem openLog_lines
    (decodes : ∀ binding ∈ bindings ++ tail.toList, Decodes fromStr binding)
    (remainder : Remainder fromStr tail rest) :
    ∃ kept,
      openLog fromStr (lines bindings ++ rest) =
          .ok (⟨bindAll (bindings ++ tail.toList),
            (lines bindings ++ kept).length⟩, lines bindings ++ kept) ∧
        Remainder fromStr tail kept ∧
        (tail = none → kept = []) := by
  have complete : ∀ binding ∈ bindings, Decodes fromStr binding :=
    fun binding member => decodes binding (List.mem_append_left _ member)
  have replayed := replay_lines complete (splitInclusive rest) 0 ∅
  rw [← splitInclusive_lines] at replayed
  cases remainder with
  | nothing =>
      refine ⟨[], ?_, .nothing, fun _ => rfl⟩
      simp only [openLog, replayed, splitInclusive, replay]
      simp [bindAll]
  | rejected single read fails =>
      refine ⟨[], ?_, .nothing, fun _ => rfl⟩
      simp only [openLog, replayed, single, replay, read, fails]
      simp [bindAll]
  | unterminated binding =>
      refine ⟨binding.line, ?_, .unterminated binding, fun absent =>
        absurd absent (by simp)⟩
      have single := splitInclusive_unterminated binding.newline_notMem_line
        binding.line_ne_nil
      have last := replay_line (decodes binding (by simp))
        (show Utf8.trimEnd [] = [] by decide) []
        (0 + (lines bindings).length)
        (bindings.foldl
          (fun map binding => map.insert binding.key binding.blocks) ∅)
      rw [List.append_nil, ← Binding.line, replay] at last
      simp only [openLog, replayed, single, last]
      simp [bindAll]

end Opening

/-! ## What a lookup may return -/

section Retention

variable {attempts : List Attempt} {key : CacheKey} {binding : Binding}
  {result : Option (List BlockId)}

theorem Retained.concat
    (retained : Retained attempts key result)
    {attempt : Attempt}
    (passed : attempt.binding.key = key → attempt.acknowledged = false) :
    Retained (attempts ++ [attempt]) key result := by
  rcases retained with ⟨earlier, source, later, split, same, blocks, none⟩ |
    ⟨absent, none⟩
  · refine Or.inl ⟨earlier, source, later ++ [attempt], by simp [split], same,
      blocks, ?_⟩
    intro other member onKey
    rcases List.mem_append.mp member with old | new
    · exact none other old onKey
    · obtain rfl := List.mem_singleton.mp new
      exact passed onKey
  · refine Or.inr ⟨absent, ?_⟩
    intro other member onKey
    rcases List.mem_append.mp member with old | new
    · exact none other old onKey
    · obtain rfl := List.mem_singleton.mp new
      exact passed onKey

/-- A bind that is not acknowledged changes nothing that was retained. -/
theorem Retained.unacknowledged
    (retained : Retained attempts key result)
    (binding : Binding) :
    Retained (attempts ++ [⟨binding, false⟩]) key result :=
  retained.concat fun _ => rfl

/-- After a bind its blocks may be returned, acknowledged or not. -/
theorem Retained.insert
    {map : ExtTreeMap CacheKey (List BlockId)}
    (retained : ∀ key, Retained attempts key map[key]?)
    (binding : Binding)
    (acknowledged : Bool)
    (key : CacheKey) :
    Retained (attempts ++ [⟨binding, acknowledged⟩]) key
      (map.insert binding.key binding.blocks)[key]? := by
  by_cases same : binding.key = key
  · refine Or.inl ⟨attempts, ⟨binding, acknowledged⟩, [], rfl, same, ?_, ?_⟩
    · rw [← same, ExtTreeMap.getElem?_insert_self]
    · intro other member
      exact absurd member List.not_mem_nil
  · have other : compare binding.key key ≠ .eq := fun equal =>
      same (Std.LawfulEqOrd.eq_of_compare equal)
    rw [ExtTreeMap.getElem?_insert, if_neg other]
    exact (retained key).concat fun onKey => absurd onKey same

end Retention

/-! ## The state of the log along a history -/

/-- The log of a history: its complete lines, and what follows them. -/
structure Journal
    [KeyText]
    (fromStr : List Char → Option Binding)
    (history : History)
    (complete : List Binding)
    (tail : Option Binding)
    (rest : Bytes) : Prop where
  file : history.host.file = lines complete ++ rest
  remainder : Remainder fromStr tail rest
  decodes :
    ∀ binding ∈ complete ++ tail.toList, Decodes fromStr binding
  settled :
    ∀ key, Retained history.attempts key (bindAll complete)[key]?
  pending :
    ∀ key,
      Retained history.attempts key (bindAll (complete ++ tail.toList))[key]?
  running :
    ∀ manifest, history.host.manifest = some manifest →
      manifest.position = history.host.file.length ∧
        (tail = none → rest = [])

section Steps

variable [KeyText] {fromStr : List Char → Option Binding} {history : History}
  {complete : List Binding} {tail : Option Binding} {rest : Bytes}
  {binding : Binding} {manifest : Manifest} {written : Nat}

/-- The log after any history that meets the condition. -/
def Journaled
    (fromStr : List Char → Option Binding)
    (history : History) : Prop :=
  ∃ complete tail rest, Journal fromStr history complete tail rest

/-- A reopen succeeds, and lookups return what is retained. -/
theorem Journal.reopen
    (journal : Journal fromStr history complete tail rest) :
    ∃ manifest,
      (step fromStr history .reopen).host.manifest = some manifest ∧
        (∀ key, Retained history.attempts key (manifest.lookup key)) ∧
        Journaled fromStr (step fromStr history .reopen) := by
  obtain ⟨kept, opened, remainder, settled⟩ :=
    openLog_lines journal.decodes journal.remainder
  rw [← journal.file] at opened
  have shape : step fromStr history .reopen =
      ⟨⟨lines complete ++ kept,
        some ⟨bindAll (complete ++ tail.toList),
          (lines complete ++ kept).length⟩⟩, history.attempts⟩ := by
    simp [step, stepHost, attempt?, opened]
  rw [shape]
  refine ⟨_, rfl, journal.pending, complete, tail, kept, ?_⟩
  exact
    { file := rfl
      remainder := remainder
      decodes := journal.decodes
      settled := journal.settled
      pending := journal.pending
      running := by
        rintro manifest same
        cases same
        exact ⟨rfl, settled⟩ }

/-- The bytes of a bind go behind the log. -/
theorem writePrefix_bindWrites
    {file : Bytes}
    (atEnd : manifest.position = file.length)
    (binding : Binding)
    (written : Nat) :
    ByteFile.writePrefix written (bindWrites manifest binding) file =
      file ++ (terminate binding.line).take written := by
  have overlay := ByteFile.writePrefix_consecutive file []
    [binding.line, [newline]] written
  rw [List.append_nil, ByteFile.overlay_empty] at overlay
  rw [bindWrites, atEnd, overlay]
  simp [terminate]

theorem totalBytes_bindWrites (manifest : Manifest) (binding : Binding) :
    ByteFile.totalBytes (bindWrites manifest binding) =
      (terminate binding.line).length := by
  rw [bindWrites, ByteFile.totalBytes_consecutive]
  simp [terminate]

/-- A log that a bind may follow ends with a complete line. -/
theorem Journal.starts_line
    (journal : Journal fromStr history complete tail rest)
    (careful : Careful history.host (.bind binding))
    (running : history.host.manifest = some manifest) :
    tail = none ∧ rest = [] := by
  cases tail with
  | none =>
      exact ⟨rfl, (journal.running manifest running).2 rfl⟩
  | some unfinished =>
      cases journal.remainder
      have last := unfinished.getLast?_line (lines complete)
      rw [← journal.file] at last
      rcases careful with empty | ends
      · rw [empty] at last
        exact absurd last (by simp)
      · rw [ends] at last
        exact absurd last (by decide)

/-- An acknowledged bind adds one complete line. -/
theorem Journal.bind
    (journal : Journal fromStr history complete tail rest)
    (decodes : Decodes fromStr binding)
    (careful : Careful history.host (.bind binding)) :
    Journaled fromStr (step fromStr history (.bind binding)) := by
  cases running : history.host.manifest with
  | none =>
      have same : step fromStr history (.bind binding) = history := by
        simp [step, stepHost, Host.bind, attempt?, running]
      rw [same]
      exact ⟨complete, tail, rest, journal⟩
  | some manifest =>
      obtain ⟨rfl, rfl⟩ := journal.starts_line careful running
      have atEnd := (journal.running manifest running).1
      have file : (history.host.bind binding).file =
          lines (complete ++ [binding]) := by
        simp only [Host.bind, running, totalBytes_bindWrites]
        rw [writePrefix_bindWrites atEnd, List.take_length, journal.file,
          List.append_nil, lines_append, lines_singleton]
      have bound : ∀ key,
          Retained (history.attempts ++ [⟨binding, true⟩]) key
            (bindAll (complete ++ [binding]))[key]? := by
        rw [bindAll_concat]
        exact Retained.insert journal.settled binding true
      have attempts : (step fromStr history (.bind binding)).attempts =
          history.attempts ++ [⟨binding, true⟩] := by
        simp [step, attempt?, running]
      refine ⟨complete ++ [binding], none, [], ?_⟩
      exact
        { file := by rw [List.append_nil]; exact file
          remainder := .nothing
          decodes := by
            intro other member
            simp only [Option.toList_none, List.append_nil,
              List.mem_append, List.mem_singleton] at member
            rcases member with old | rfl
            · exact journal.decodes other (List.mem_append_left _ old)
            · exact decodes
          settled := by rw [attempts]; exact bound
          pending := by
            rw [attempts, Option.toList_none, List.append_nil]
            exact bound
          running := by
            rintro next same
            refine ⟨?_, fun _ => rfl⟩
            rw [show (step fromStr history (.bind binding)).host =
              history.host.bind binding from rfl] at same ⊢
            rw [file]
            simp only [Host.bind, running, Option.some.injEq] at same
            rw [← same, lines_append, lines_singleton, List.length_append,
              totalBytes_bindWrites, atEnd, journal.file, List.append_nil] }

/-- What reaches the file when no character is torn. -/
theorem crash_cases
    (careful :
      (Utf8.decode ((terminate binding.line).take written)).isSome) :
    ((terminate binding.line).take written = terminate binding.line ∧
        binding.line.length ≤ written) ∨
      ((terminate binding.line).take written = binding.line ∧
        binding.line.length ≤ written) ∨
      (written < binding.line.length ∧
        ∃ text,
          Utf8.encode text = (terminate binding.line).take written ∧
            text <+: binding.toJson ∧
            text ≠ binding.toJson) := by
  by_cases short : written < binding.line.length
  · obtain ⟨text, read⟩ := Option.isSome_iff_exists.mp careful
    have encoded := Utf8.encode_of_decode read
    have torn : (terminate binding.line).take written =
        binding.line.take written := by
      rw [terminate, List.take_append_of_le_length (le_of_lt short)]
    have part : text <+: binding.toJson := by
      apply Utf8.isPrefix_of_encode
      rw [encoded, torn]
      exact List.take_prefix _ _
    refine Or.inr (Or.inr ⟨short, text, encoded, part, ?_⟩)
    rintro rfl
    have lengths := congrArg List.length (encoded.trans torn)
    rw [List.length_take] at lengths
    change binding.line.length = _ at lengths
    omega
  · have long : binding.line.length ≤ written := not_lt.mp short
    by_cases exactly : written = binding.line.length
    · refine Or.inr (Or.inl ⟨?_, long⟩)
      rw [exactly, terminate, List.take_left]
    · refine Or.inl ⟨List.take_of_length_le ?_, long⟩
      rw [length_terminate]
      omega

/-- The history after a crash in a bind. -/
theorem step_crash
    (atEnd : manifest.position = history.host.file.length)
    (running : history.host.manifest = some manifest)
    (written : Nat) :
    step fromStr history (.crash binding written) =
      ⟨⟨history.host.file ++ (terminate binding.line).take written, none⟩,
        history.attempts ++
          if binding.line.length ≤ written then [⟨binding, false⟩] else []⟩ := by
  simp only [step, stepHost, Host.crash, attempt?, running,
    writePrefix_bindWrites atEnd, Option.isSome_some, true_and]
  split <;> rfl

theorem Retained.crashed
    {attempts : List Attempt}
    {key : CacheKey}
    {result : Option (List BlockId)}
    (retained : Retained attempts key result)
    (binding : Binding)
    (written : Nat) :
    Retained
      (attempts ++
        if binding.line.length ≤ written then [⟨binding, false⟩] else [])
      key result := by
  split
  · exact retained.unacknowledged binding
  · rw [List.append_nil]
    exact retained

/-- A crash in a bind that had started on a new line. -/
theorem Journal.crash_onNewLine
    (journal : Journal fromStr history complete none [])
    (running : history.host.manifest = some manifest)
    (decodes : Decodes fromStr binding)
    (careful : Careful history.host (.crash binding written)) :
    Journaled fromStr (step fromStr history (.crash binding written)) := by
  have settled := journal.settled
  have bound : ∀ key,
      Retained (history.attempts ++ [⟨binding, false⟩]) key
        (bindAll (complete ++ [binding]))[key]? := by
    rw [bindAll_concat]
    exact Retained.insert settled binding false
  have known : ∀ other ∈ complete ++ [binding], Decodes fromStr other := by
    intro other member
    rcases List.mem_append.mp member with old | new
    · exact journal.decodes other (List.mem_append_left _ old)
    · exact List.mem_singleton.mp new ▸ decodes
  rw [step_crash (journal.running manifest running).1 running, journal.file,
    List.append_nil]
  rcases crash_cases careful with ⟨all, long⟩ | ⟨all, long⟩ |
    ⟨short, text, encoded, part, strict⟩
  · rw [all, if_pos long]
    refine ⟨complete ++ [binding], none, [], ?_⟩
    exact
      { file := by simp [lines_singleton]
        remainder := .nothing
        decodes := by simpa using known
        settled := bound
        pending := by simpa using bound
        running := by rintro _ ⟨⟩ }
  · rw [all, if_pos long]
    refine ⟨complete, some binding, binding.line, ?_⟩
    exact
      { file := rfl
        remainder := .unterminated binding
        decodes := known
        settled := fun key => (settled key).unacknowledged binding
        pending := bound
        running := by rintro _ ⟨⟩ }
  · rw [if_neg (not_le.mpr short), List.append_nil]
    refine ⟨complete, none, (terminate binding.line).take written, ?_⟩
    exact
      { file := rfl
        remainder := by
          rw [← encoded]
          cases text with
          | nil =>
              exact .nothing
          | cons char more =>
              refine .rejected ?_ (Utf8.decode_encode _)
                (decodes.unfinished _ ((Utf8.trimEnd_isPrefix _).trans part) ?_)
              · refine splitInclusive_part binding.newline_notMem_line ?_ ?_
                · rw [encoded]
                  exact List.take_prefix _ _
                · exact List.ne_nil_of_length_pos
                    (lt_of_lt_of_le (by simp)
                      (Utf8.length_le_length_encode (char :: more)))
              · intro same
                refine strict (part.eq_of_length_le ?_)
                rw [← same]
                exact (Utf8.trimEnd_isPrefix _).length_le
        decodes := journal.decodes
        settled := settled
        pending := journal.pending
        running := by rintro _ ⟨⟩ }

/-- A crash in a bind that was appended to an unterminated line. -/
theorem Journal.crash_onOldLine
    {unfinished : Binding}
    (journal :
      Journal fromStr history complete (some unfinished) unfinished.line)
    (running : history.host.manifest = some manifest)
    (careful : Careful history.host (.crash binding written)) :
    Journaled fromStr (step fromStr history (.crash binding written)) := by
  obtain ⟨text, read⟩ := Option.isSome_iff_exists.mp careful
  have encoded := Utf8.encode_of_decode read
  rw [step_crash (journal.running manifest running).1 running, journal.file]
  by_cases nothing : (terminate binding.line).take written = []
  · rw [nothing, List.append_nil]
    refine ⟨complete, some unfinished, unfinished.line, ?_⟩
    exact
      { file := rfl
        remainder := .unterminated unfinished
        decodes := journal.decodes
        settled := fun key => (journal.settled key).crashed binding written
        pending := fun key => (journal.pending key).crashed binding written
        running := by rintro _ ⟨⟩ }
  · have part : text <+: binding.toJson ++ ['\n'] := by
      apply Utf8.isPrefix_of_encode
      rw [encoded, ← binding.terminate_line]
      exact List.take_prefix _ _
    obtain ⟨more, rfl⟩ : ∃ more, text = '\x7b' :: more := by
      cases text with
      | nil =>
          exact absurd encoded.symm nothing
      | cons char more =>
          exact ⟨more, by rw [(List.cons_prefix_cons.mp part).1]⟩
    refine ⟨complete, none,
      unfinished.line ++ (terminate binding.line).take written, ?_⟩
    exact
      { file := by rw [List.append_assoc]
        remainder := by
          have joined : unfinished.line ++
              (terminate binding.line).take written =
              Utf8.encode (unfinished.toJson ++ '\x7b' :: more) := by
            rw [Utf8.encode_append, encoded, Binding.line]
          have trimmed := Utf8.trimEnd_visible unfinished.toJson more
            (show Utf8.isWhitespace '\x7b' = false by decide)
          refine .rejected ?_ (joined ▸ Utf8.decode_encode _) ?_
          · have clean : newline ∉ unfinished.line ++ binding.line :=
              List.not_mem_append unfinished.newline_notMem_line
                binding.newline_notMem_line
            have whole : terminate (unfinished.line ++ binding.line) =
                unfinished.line ++ terminate binding.line := by
              simp [terminate]
            refine splitInclusive_part clean ?_ (by simp [nothing])
            rw [whole, List.prefix_append_right_inj]
            exact List.take_prefix _ _
          · rw [trimmed]
            exact (journal.decodes unfinished (by simp)).trailing _
        decodes := by
          intro other member
          refine journal.decodes other (List.mem_append_left _ ?_)
          simpa using member
        settled := fun key => (journal.settled key).crashed binding written
        pending := by
          rw [Option.toList_none, List.append_nil]
          exact fun key => (journal.settled key).crashed binding written
        running := by rintro _ ⟨⟩ }

theorem Journal.crash
    (journal : Journal fromStr history complete tail rest)
    (decodes : Decodes fromStr binding)
    (careful : Careful history.host (.crash binding written)) :
    Journaled fromStr (step fromStr history (.crash binding written)) := by
  cases running : history.host.manifest with
  | none =>
      have same : step fromStr history (.crash binding written) = history := by
        simp [step, stepHost, Host.crash, attempt?, running]
      rw [same]
      exact ⟨complete, tail, rest, journal⟩
  | some manifest =>
      cases tail with
      | none =>
          obtain rfl := (journal.running manifest running).2 rfl
          exact journal.crash_onNewLine running decodes careful
      | some unfinished =>
          cases journal.remainder
          exact journal.crash_onOldLine running careful

/-- Every event that meets the condition keeps the log a journal. -/
theorem Journaled.step
    (journaled : Journaled fromStr history)
    {event : Event}
    (decodes : ∀ binding ∈ event.binding?, Decodes fromStr binding)
    (careful : Careful history.host event) :
    Journaled fromStr (step fromStr history event) := by
  obtain ⟨complete, tail, rest, journal⟩ := journaled
  cases event with
  | bind binding =>
      exact journal.bind (decodes binding rfl) careful
  | crash binding written =>
      exact journal.crash (decodes binding rfl) careful
  | reopen =>
      obtain ⟨_, _, _, journaled⟩ := journal.reopen
      exact journaled

theorem Journaled.start : Journaled fromStr {} := by
  have unbound (key : CacheKey) : Retained [] key (bindAll [])[key]? :=
    Or.inr ⟨by simp [bindAll], fun _ member => absurd member (by simp)⟩
  exact ⟨[], none, [],
    { file := rfl
      remainder := .nothing
      decodes := fun _ member => absurd member (by simp)
      settled := unbound
      pending := unbound
      running := by rintro _ ⟨⟩ }⟩

end Steps

/--
In a history whose acknowledged binds all start on a new line and whose
crashes tear no character, every reopen succeeds and every lookup then returns
the last acknowledged binding of the key or a later one completely written.
-/
theorem acknowledged_bindings_kept
    [KeyText]
    (fromStr : List Char → Option Binding)
    (events : List Event)
    (decodes :
      ∀ event ∈ events, ∀ binding ∈ event.binding?, Decodes fromStr binding)
    (careful :
      ∀ position event,
        events[position]? = some event →
        Careful
          (StepRun.before (step fromStr) {} events position).host event) :
    KeepsBindings fromStr events := by
  intro position present
  have journaled : Journaled fromStr
      (StepRun.before (step fromStr) {} events position) := by
    refine StepRun.holds_before (Journaled fromStr) Journaled.start ?_ position
    intro earlier event listed journaled
    exact journaled.step (decodes event (List.mem_of_getElem? listed))
      (careful earlier event listed)
  obtain ⟨complete, tail, rest, journal⟩ := journaled
  obtain ⟨manifest, opened, retained, _⟩ := journal.reopen
  rw [StepRun.before_succ present]
  refine ⟨manifest, opened, ?_⟩
  simpa [step, attempt?] using retained

/-! ## A decoder for known bindings -/

theorem newline_notMem_cacheKey (key : CacheKey) : '\n' ∉ key.toJson := by
  refine List.not_mem_append (List.not_mem_append (List.not_mem_append
    (List.not_mem_append (List.not_mem_append (List.not_mem_append
      (List.not_mem_append (List.not_mem_append ?_
        (newline_notMem_jsonString _)) ?_) (newline_notMem_jsonString _)) ?_)
          (newline_notMem_jsonString _)) ?_) (newline_notMem_jsonString _)) ?_
  all_goals decide +kernel

/-- The text of `serde_json`, under which bindings are stored too. -/
instance : KeyText where
  write := CacheKey.toJson
  newline_notMem_write := newline_notMem_cacheKey

/-- Decode exactly the texts of some bindings. -/
def decodeKnown (known : List Binding) (text : List Char) : Option Binding :=
  known.find? fun binding => binding.toJson = text

/-- No text of a binding starts another one's. -/
def PrefixFree (known : List Binding) : Prop :=
  ∀ first ∈ known, ∀ second ∈ known,
    first ≠ second → ¬ first.toJson <+: second.toJson

instance (known : List Binding) : Decidable (PrefixFree known) :=
  inferInstanceAs (Decidable (∀ first ∈ known, _))

theorem PrefixFree.eq
    {known : List Binding}
    (distinct : PrefixFree known)
    {first second : Binding}
    (firstListed : first ∈ known)
    (secondListed : second ∈ known)
    (part : first.toJson <+: second.toJson) :
    first = second := by
  by_contra different
  exact distinct first firstListed second secondListed different part

theorem decodes_decodeKnown
    {known : List Binding}
    (distinct : PrefixFree known)
    {binding : Binding}
    (listed : binding ∈ known) :
    Decodes (decodeKnown known) binding where
  roundTrip := by
    cases found : decodeKnown known binding.toJson with
    | none =>
        have missing := List.find?_eq_none.mp found binding listed
        rw [decide_eq_true_iff] at missing
        exact absurd rfl missing
    | some other =>
        have same := List.find?_some found
        rw [decide_eq_true_iff] at same
        have part : other.toJson <+: binding.toJson := by
          rw [same]
        rw [distinct.eq (List.mem_of_find?_eq_some found) listed part]
  unfinished := by
    intro text part strict
    refine List.find?_eq_none.mpr ?_
    intro other known same
    rw [decide_eq_true_iff] at same
    rw [← same] at part strict
    exact strict (congrArg Binding.toJson (distinct.eq known listed part))
  trailing := by
    intro rest
    refine List.find?_eq_none.mpr ?_
    intro other known same
    rw [decide_eq_true_iff] at same
    have part : binding.toJson <+: other.toJson := by
      rw [same]
      exact List.prefix_append _ _
    rw [← distinct.eq listed known part] at same
    have lengths := congrArg List.length same
    rw [List.length_append, List.length_cons] at lengths
    omega

/-- A binding of one key to no blocks. -/
def sampleBinding (model : String) (hash : UInt8) : Binding :=
  ⟨⟨⟨model, "t", "k"⟩, BlockId.filled hash⟩, []⟩

def sampleBindings : List Binding :=
  [sampleBinding "a" 1, sampleBinding "é" 2]

theorem decodes_sampleBindings :
    ∀ binding ∈ sampleBindings,
      Decodes (decodeKnown sampleBindings) binding := by
  have distinct : PrefixFree sampleBindings := by decide +kernel
  exact fun _ listed => decodes_decodeKnown distinct listed

/-- A torn line and an unterminated one, with binds only on new lines. -/
def carefulEvents : List Event :=
  [.reopen, .bind (sampleBinding "é" 2), .crash (sampleBinding "a" 1) 40,
    .reopen, .bind (sampleBinding "a" 1),
    .crash (sampleBinding "é" 2) (sampleBinding "é" 2).line.length, .reopen]

theorem acknowledged_bindings_kept_careful :
    KeepsBindings (decodeKnown sampleBindings) carefulEvents := by
  have facts : (∀ event ∈ carefulEvents, ∀ binding ∈ event.binding?,
        binding ∈ sampleBindings) ∧
      ∀ position (inside : position < carefulEvents.length),
        Careful (StepRun.before (step (decodeKnown sampleBindings)) {}
          carefulEvents position).host carefulEvents[position] := by
    decide +kernel
  refine acknowledged_bindings_kept _ _ ?_ ?_
  · intro event listed binding inEvent
    exact decodes_sampleBindings binding
      (facts.1 event listed binding inEvent)
  · intro position event present
    obtain ⟨inside, rfl⟩ := List.getElem?_eq_some_iff.mp present
    exact facts.2 position inside

/-- The newline of the first line is lost, and the second bind follows it. -/
def joinedEvents : List Event :=
  [.reopen, .crash (sampleBinding "a" 1) (sampleBinding "a" 1).line.length,
    .reopen, .bind (sampleBinding "é" 2), .reopen]

/-- The first byte of a character of two bytes is the last one written. -/
def tornEvents : List Event :=
  [.reopen, .crash (sampleBinding "é" 2) 36, .reopen]

theorem acknowledged_binding_lost :
    (∀ binding ∈ sampleBindings,
        Decodes (decodeKnown sampleBindings) binding) ∧
      ¬ KeepsBindings (decodeKnown sampleBindings) joinedEvents ∧
      ¬ KeepsBindings (decodeKnown sampleBindings) tornEvents := by
  have lost :
      ⟨sampleBinding "é" 2, true⟩ ∈
          (StepRun.before (step (decodeKnown sampleBindings)) {}
            joinedEvents 5).attempts ∧
        ((StepRun.before (step (decodeKnown sampleBindings)) {}
            joinedEvents 5).host.manifest.map fun manifest =>
          manifest.lookup (sampleBinding "é" 2).key) = some none := by
    decide +kernel
  have closed : (StepRun.before (step (decodeKnown sampleBindings)) {}
      tornEvents 3).host.manifest.isNone = true := by
    decide +kernel
  refine ⟨decodes_sampleBindings, ?_, ?_⟩
  · intro keeps
    obtain ⟨manifest, opened, retained⟩ := keeps 4 rfl
    have missing : manifest.lookup (sampleBinding "é" 2).key = none := by
      have mapped := lost.2
      rw [opened] at mapped
      exact Option.some.inj mapped
    rcases retained (sampleBinding "é" 2).key with
      ⟨_, _, _, _, _, found, _⟩ | ⟨_, unacknowledged⟩
    · rw [missing] at found
      exact absurd found (by simp)
    · exact absurd (unacknowledged _ lost.1 rfl) (by simp)
  · intro keeps
    obtain ⟨manifest, opened, _⟩ := keeps 2 rfl
    rw [opened] at closed
    exact absurd closed (by simp)

end PrefixManifest

end KalpakDb
