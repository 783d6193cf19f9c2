import KalpakDb.DaemonUploads
import KalpakDb.SelfDelimiting

namespace KalpakDb.BatchFraming

/-!
# The framing of batch uploads

A batch of blocks is uploaded in one request.  Its body is the number of the
blocks, and then for each block its length and its bytes; numbers are words of
four bytes.  The server reads such a body by slicing it.  A slice outside of
the body, or a position that does not fit a word, would abort the request;
there is neither, so the server reads the body as the daemon does that drops
what it has read.
-/

open ByteCodec (leBytes leValue leBytes_leValue leValue_leBytes leValue_lt
  length_leBytes)
open SelfDelimiting (Delimits delimits_bytes delimits_leBytes)
open Daemon (BatchError firstPayload)

/-! ## The client -/

/-- A length as a word of four bytes. -/
def asU32 (length : Nat) : Nat := length % 2 ^ 32

/-- A payload after its length. -/
def frame (payload : Bytes) : Bytes :=
  leBytes 4 (asU32 payload.length) ++ payload

/-- The body of `KalpakClient::put_blocks`. -/
def framing (payloads : List Bytes) : Bytes :=
  leBytes 4 (asU32 payloads.length) ++ payloads.flatMap frame

/-! ## The server -/

/-- The body of a request; no allocation is longer. -/
structure Body where
  bytes : Bytes
  length_lt : bytes.length < 2 ^ 63

/-- A request ends with an error, or the handler aborts. -/
inductive BatchFault where
  | rejected (error : BatchError)
  | panicked
  deriving DecidableEq

/-- A sum of words. -/
def usizeAdd (left right : Nat) : Except BatchFault Nat :=
  if left + right < 2 ^ 64 then
    .ok (left + right)
  else
    .error .panicked

/-- `bytes[start..stop]`. -/
def slice (bytes : Bytes) (start stop : Nat) : Except BatchFault Bytes :=
  if start ≤ stop ∧ stop ≤ bytes.length then
    .ok ((bytes.drop start).take (stop - start))
  else
    .error .panicked

/-- One round of the loop: a payload and the position behind it. -/
def readBlock (body : Bytes) (position : Nat) :
    Except BatchFault (Bytes × Nat) := do
  let payloadStart ← usizeAdd position 4
  if payloadStart > body.length then
    throw (.rejected .truncatedLength)
  let lengthBytes ← slice body position payloadStart
  let payloadStop ← usizeAdd payloadStart (leValue lengthBytes)
  if payloadStop > body.length then
    throw (.rejected .truncatedPayload)
  let payload ← slice body payloadStart payloadStop
  pure (payload, payloadStop)

/-- The loop over the blocks, with the payloads so far. -/
def readBlocks (body : Bytes) :
    Nat → Nat → List Bytes → Except BatchFault (List Bytes × Nat)
  | 0, position, payloads => pure (payloads, position)
  | count + 1, position, payloads => do
      let (payload, next) ← readBlock body position
      readBlocks body count next (payloads ++ [payload])

/-- The payloads that `put_blocks_batch` finds in a body. -/
def parseBatch (body : Body) : Except BatchFault (List Bytes) := do
  if body.bytes.length < 4 then
    throw (.rejected .truncatedHeader)
  let count := leValue (← slice body.bytes 0 4)
  if count > 4096 then
    throw (.rejected .tooManyBlocks)
  let (payloads, position) ← readBlocks body.bytes count 4 []
  if position ≠ body.bytes.length then
    throw (.rejected .trailingBytes)
  pure payloads

/-! ## Slices within the body -/

/-- The answer to a request whose body was read without a slice. -/
def answer (parsed : Except BatchError (List Payload)) :
    Except BatchFault (List Bytes) :=
  match parsed with
  | .ok payloads => .ok (payloads.map Payload.bytes)
  | .error error => .error (.rejected error)

section Slices

variable {body : Bytes} {position : Nat}

theorem usizeAdd_eq
    {left right : Nat}
    (fits : left + right < 2 ^ 64) :
    usizeAdd left right = .ok (left + right) :=
  if_pos fits

theorem slice_eq
    {start stop : Nat}
    (ordered : start ≤ stop)
    (within : stop ≤ body.length) :
    slice body start stop = .ok ((body.drop start).take (stop - start)) :=
  if_pos ⟨ordered, within⟩

/-- Four bytes stand for a word. -/
theorem leValue_take_lt (rest : Bytes) : leValue (rest.take 4) < 2 ^ 32 := by
  have small := leValue_lt (rest.take 4)
  have short : 256 ^ (rest.take 4).length ≤ 256 ^ 4 :=
    Nat.pow_le_pow_right (by decide) (List.length_take_le 4 rest)
  omega

/-- A round of the loop, in terms of what has not been read. -/
theorem readBlock_eq
    (bounded : body.length < 2 ^ 63)
    (inside : position ≤ body.length) :
    readBlock body position =
      let rest := body.drop position
      let size := leValue (rest.take 4)
      if rest.length < 4 then
        .error (.rejected .truncatedLength)
      else if rest.length < 4 + size then
        .error (.rejected .truncatedPayload)
      else
        .ok ((firstPayload rest).bytes, position + (4 + size)) := by
  have small := leValue_take_lt (body.drop position)
  dsimp only
  rw [readBlock, usizeAdd_eq (by omega), List.length_drop]
  dsimp only [bind, Except.bind]
  by_cases short : position + 4 > body.length
  · rw [if_pos short, if_pos (by omega)]
    rfl
  · rw [if_neg short, if_neg (by omega), slice_eq (by omega) (by omega),
      Nat.add_sub_cancel_left]
    dsimp only
    rw [usizeAdd_eq (by omega)]
    dsimp only
    by_cases cut :
        position + 4 + leValue ((body.drop position).take 4) > body.length
    · rw [if_pos cut, if_pos (by omega)]
      rfl
    · rw [if_neg cut, if_neg (by omega), slice_eq (by omega) (by omega),
        Nat.add_sub_cancel_left, ← Nat.add_assoc]
      dsimp only [firstPayload]
      rw [List.drop_drop]
      rfl

/-- The loop, and the check behind it. -/
theorem readBlocks_eq
    (bounded : body.length < 2 ^ 63)
    (inside : position ≤ body.length)
    (count : Nat)
    (payloads : List Bytes) :
    (do
      let (payloads, position) ← readBlocks body count position payloads
      if position ≠ body.length then
        throw (.rejected .trailingBytes)
      pure payloads : Except BatchFault (List Bytes)) =
      (answer (Daemon.parseBlocks count (body.drop position))).map
        (payloads ++ ·) := by
  induction count generalizing position payloads with
  | zero =>
      rw [readBlocks, Daemon.parseBlocks]
      by_cases atEnd : position = body.length
      · have nothing : body.drop position = [] :=
          List.drop_eq_nil_of_le (Nat.le_of_eq atEnd.symm)
        rw [if_pos nothing]
        simp [atEnd, answer, pure, Except.pure, bind, Except.bind, Except.map]
      · have something : body.drop position ≠ [] := by
          rw [ne_eq, List.drop_eq_nil_iff]
          omega
        rw [if_neg something]
        simp [atEnd, answer, pure, Except.pure, bind, Except.bind, Except.map,
          throw, throwThe, MonadExceptOf.throw]
  | succ count inductionHypothesis =>
      rw [readBlocks, Daemon.parseBlocks, readBlock_eq bounded inside]
      dsimp only
      split
      · rfl
      · split
        · rfl
        · rename_i whole
          rw [List.length_drop] at whole
          have later := inductionHypothesis
            (show position + (4 + leValue ((body.drop position).take 4)) ≤
              body.length by omega)
            (payloads ++ [(firstPayload (body.drop position)).bytes])
          rw [← List.drop_drop] at later
          dsimp only [bind, Except.bind] at later ⊢
          rw [later]
          cases Daemon.parseBlocks count ((body.drop position).drop
              (4 + leValue ((body.drop position).take 4))) with
          | error error =>
              rfl
          | ok more =>
              simp [answer, Except.map]

end Slices

/-- The slices never leave the body. -/
theorem parseBatch_eq (body : Body) :
    parseBatch body = answer (Daemon.parseBatch body.bytes) := by
  unfold parseBatch Daemon.parseBatch
  by_cases short : body.bytes.length < 4
  · rw [if_pos short, if_pos short]
    rfl
  · have header : slice body.bytes 0 4 = .ok (body.bytes.take 4) :=
      slice_eq (by omega) (by omega)
    rw [if_neg short, if_neg short, header]
    dsimp only [bind, Except.bind]
    by_cases many : leValue (body.bytes.take 4) > 4096
    · rw [if_pos many, if_pos many]
      rfl
    · rw [if_neg many, if_neg many]
      have blocks := readBlocks_eq body.length_lt (not_lt.mp short)
        (leValue (body.bytes.take 4)) []
      dsimp only [bind, Except.bind] at blocks
      refine blocks.trans ?_
      cases Daemon.parseBlocks (leValue (body.bytes.take 4))
          (body.bytes.drop 4) <;> rfl

/-! ## Framings -/

/-- The payloads of a batch whose lengths fit their words. -/
def Sized (payloads : List Bytes) : Prop :=
  ∀ payload ∈ payloads, payload.length < 2 ^ 32

/-- The batches that the server takes. -/
def Accepted (payloads : List Bytes) : Prop :=
  payloads.length ≤ 4096 ∧ Sized payloads

theorem asU32_eq {length : Nat} (sized : length < 2 ^ 32) :
    asU32 length = length :=
  Nat.mod_eq_of_lt sized

/-- The first payload of what is left, if its frame is there. -/
theorem frame_firstPayload
    {rest : Bytes}
    (whole : ¬ rest.length < 4 + leValue (rest.take 4)) :
    frame (firstPayload rest).bytes =
      rest.take (4 + leValue (rest.take 4)) := by
  have length : (rest.take 4).length = 4 := by
    rw [List.length_take]
    omega
  have word := leBytes_leValue (rest.take 4)
  have payloadLength :
      (firstPayload rest).bytes.length = leValue (rest.take 4) := by
    rw [firstPayload, List.length_take, List.length_drop]
    omega
  rw [length] at word
  rw [frame, payloadLength, asU32_eq (leValue_take_lt rest), word,
    List.take_add]
  rfl

/-- What is read as some payloads is their framing. -/
theorem parseBlocks_sound
    {count : Nat}
    {rest : Bytes}
    {payloads : List Payload}
    (parsed : Daemon.parseBlocks count rest = .ok payloads) :
    payloads.length = count ∧
      Sized (payloads.map Payload.bytes) ∧
      rest = (payloads.map Payload.bytes).flatMap frame := by
  induction count generalizing rest payloads with
  | zero =>
      rw [Daemon.parseBlocks] at parsed
      split at parsed
      · rename_i nothing
        cases parsed
        exact ⟨rfl, nofun, nothing⟩
      · cases parsed
  | succ count inductionHypothesis =>
      rw [Daemon.parseBlocks] at parsed
      dsimp only at parsed
      split at parsed
      · cases parsed
      · split at parsed
        · cases parsed
        · rename_i whole
          split at parsed
          · cases parsed
          · rename_i more parsedMore
            cases parsed
            obtain ⟨isCount, sized, isRest⟩ := inductionHypothesis parsedMore
            have small : (firstPayload rest).bytes.length < 2 ^ 32 :=
              Nat.lt_of_le_of_lt (List.length_take_le _ _)
                (leValue_take_lt rest)
            refine ⟨by rw [List.length_cons, isCount], ?_, ?_⟩
            · rw [List.map_cons]
              exact List.forall_mem_cons.mpr ⟨small, sized⟩
            · rw [List.map_cons, List.flatMap_cons, ← isRest,
                frame_firstPayload whole, List.take_append_drop]

/-- A frame in front of other bytes is read as its payload. -/
theorem take_frame
    {payload : Bytes}
    (sized : payload.length < 2 ^ 32)
    (rest : Bytes) :
    (frame payload ++ rest).length = 4 + payload.length + rest.length ∧
      leValue ((frame payload ++ rest).take 4) = payload.length ∧
      (firstPayload (frame payload ++ rest)).bytes = payload ∧
      (frame payload ++ rest).drop (4 + payload.length) = rest := by
  have word : leValue ((frame payload ++ rest).take 4) = payload.length := by
    rw [frame, List.append_assoc, List.take_left' (length_leBytes 4 _),
      asU32_eq sized, leValue_leBytes sized]
  have frameLength : (frame payload).length = 4 + payload.length := by
    rw [frame, List.length_append, length_leBytes]
  refine ⟨by rw [List.length_append, frameLength], word, ?_,
    List.drop_left' frameLength⟩
  rw [firstPayload]
  dsimp only
  rw [word, frame, List.append_assoc, List.drop_left' (length_leBytes 4 _),
    List.take_left]

theorem parseBlocks_frames
    {payloads : List Bytes}
    (sized : Sized payloads) :
    ∃ parsed,
      Daemon.parseBlocks payloads.length (payloads.flatMap frame) =
          .ok parsed ∧
        parsed.map Payload.bytes = payloads := by
  induction payloads with
  | nil =>
      exact ⟨[], rfl, rfl⟩
  | cons payload more inductionHypothesis =>
      obtain ⟨payloadSized, moreSized⟩ := List.forall_mem_cons.mp sized
      obtain ⟨parsed, isParsed, same⟩ := inductionHypothesis moreSized
      obtain ⟨length, word, first, behind⟩ :=
        take_frame payloadSized (more.flatMap frame)
      refine ⟨firstPayload (frame payload ++ more.flatMap frame) :: parsed,
        ?_, ?_⟩
      · rw [List.length_cons, List.flatMap_cons, Daemon.parseBlocks]
        dsimp only
        rw [if_neg (by omega), if_neg (by omega), word, behind, isParsed]
      · rw [List.map_cons, first, same]

theorem take_framing
    {payloads : List Bytes}
    (few : payloads.length ≤ 4096) :
    4 ≤ (framing payloads).length ∧
      leValue ((framing payloads).take 4) = payloads.length ∧
      (framing payloads).drop 4 = payloads.flatMap frame := by
  have fits : payloads.length < 2 ^ 32 := by omega
  refine ⟨?_, ?_, List.drop_left' (length_leBytes 4 _)⟩
  · rw [framing, List.length_append, length_leBytes]
    omega
  · rw [framing, List.take_left' (length_leBytes 4 _), asU32_eq fits,
      leValue_leBytes fits]

/-- A body is read as some payloads exactly if it is their framing. -/
theorem parseBatch_iff (body : Body) (payloads : List Bytes) :
    parseBatch body = .ok payloads ↔
      Accepted payloads ∧ body.bytes = framing payloads := by
  rw [parseBatch_eq]
  constructor
  · intro parsed
    unfold Daemon.parseBatch at parsed
    split at parsed
    · cases parsed
    · rename_i whole
      dsimp only at parsed
      split at parsed
      · cases parsed
      · rename_i few
        cases isParsed : Daemon.parseBlocks (leValue (body.bytes.take 4))
            (body.bytes.drop 4) with
        | error error =>
            rw [isParsed] at parsed
            cases parsed
        | ok found =>
            rw [isParsed] at parsed
            cases parsed
            obtain ⟨isCount, sized, rest⟩ := parseBlocks_sound isParsed
            have length : (body.bytes.take 4).length = 4 := by
              rw [List.length_take]
              omega
            have word := leBytes_leValue (body.bytes.take 4)
            rw [length] at word
            refine ⟨⟨?_, sized⟩, ?_⟩
            · rw [List.length_map, isCount]
              exact not_lt.mp few
            · rw [framing, ← rest, List.length_map, isCount,
                asU32_eq (leValue_take_lt _), word, List.take_append_drop]
  · rintro ⟨⟨few, sized⟩, framed⟩
    obtain ⟨whole, word, rest⟩ := take_framing few
    obtain ⟨parsed, isParsed, same⟩ := parseBlocks_frames sized
    unfold Daemon.parseBatch
    rw [framed, if_neg (not_lt.mpr whole), word]
    dsimp only
    rw [if_neg (not_lt.mpr few), rest, isParsed, ← same]
    rfl

/-- No body makes the server abort. -/
theorem parseBatch_cases (body : Body) :
    (∃ error, parseBatch body = .error (.rejected error)) ∨
      ∃ payloads, parseBatch body = .ok payloads := by
  rw [parseBatch_eq]
  cases Daemon.parseBatch body.bytes with
  | error error =>
      exact Or.inl ⟨error, rfl⟩
  | ok payloads =>
      exact Or.inr ⟨_, rfl⟩

/-! ## Batches in front of other bytes -/

theorem delimits_frame :
    Delimits (fun payload : Bytes => payload.length < 2 ^ 32) frame := by
  intro first second firstRest secondRest firstSized secondSized same
  rw [frame, asU32_eq firstSized, frame, asU32_eq secondSized] at same
  exact delimits_bytes 4 first second firstRest secondRest firstSized
    secondSized same

theorem delimits_framing : Delimits Accepted framing := by
  intro first second firstRest secondRest firstAccepted secondAccepted same
  have firstFits : first.length < 2 ^ 32 :=
    Nat.lt_of_le_of_lt firstAccepted.1 (by decide)
  have secondFits : second.length < 2 ^ 32 :=
    Nat.lt_of_le_of_lt secondAccepted.1 (by decide)
  rw [framing, asU32_eq firstFits, framing, asU32_eq secondFits] at same
  exact delimits_frame.counted (delimits_leBytes 4) first second firstRest
    secondRest ⟨firstFits, firstAccepted.2⟩ ⟨secondFits, secondAccepted.2⟩
    same

/-- No framing is longer than another one that it begins with. -/
theorem framing_append_ne
    {payloads others : List Bytes}
    {extra : Bytes}
    (accepted : Accepted payloads)
    (othersAccepted : Accepted others)
    (longer : extra ≠ []) :
    framing payloads ++ extra ≠ framing others := by
  intro same
  rw [← List.append_nil (framing others)] at same
  exact longer
    (delimits_framing _ _ _ _ accepted othersAccepted same).2

/--
The server takes a body for a batch exactly if it is what the client sends
for that batch.  It aborts for no body, and rejects a framing with bytes
added or missing.
-/
theorem parseBatch_accepts_framings (body : Body) :
    parseBatch body ≠ .error .panicked ∧
      (∀ payloads,
        parseBatch body = .ok payloads ↔
          payloads.length ≤ 4096 ∧
            (∀ payload ∈ payloads, payload.length < 2 ^ 32) ∧
            body.bytes = framing payloads) ∧
      ∀ payloads extra,
        Accepted payloads →
        extra ≠ [] →
        body.bytes = framing payloads ++ extra ∨
          body.bytes ++ extra = framing payloads →
        ∃ error, parseBatch body = .error (.rejected error) := by
  refine ⟨?_, ?_, ?_⟩
  · rcases parseBatch_cases body with ⟨error, ends⟩ | ⟨payloads, ends⟩ <;>
      rw [ends] <;> nofun
  · intro payloads
    rw [parseBatch_iff, Accepted, and_assoc]
    rfl
  · intro payloads extra accepted longer shape
    rcases parseBatch_cases body with rejected | ⟨others, parsed⟩
    · exact rejected
    · obtain ⟨othersAccepted, framed⟩ :=
        (parseBatch_iff body others).mp parsed
      rw [framed] at shape
      rcases shape with added | missing
      · exact absurd added.symm
          (framing_append_ne accepted othersAccepted longer)
      · exact absurd missing
          (framing_append_ne othersAccepted accepted longer)

/-- The body of two blocks, and that body with a byte too many. -/
theorem parseBatch_accepts_framings_pair :
    parseBatch ⟨framing [[104, 105], []], by decide⟩ =
        .ok [[104, 105], []] ∧
      ∃ error,
        parseBatch ⟨framing [[104, 105], []] ++ [42], by decide⟩ =
          .error (.rejected error) := by
  have accepted : Accepted [[104, 105], []] :=
    ⟨by decide, by simp [Sized]⟩
  exact ⟨((parseBatch_accepts_framings _).2.1 _).mpr
      ⟨accepted.1, accepted.2, rfl⟩,
    (parseBatch_accepts_framings _).2.2 _ [42] accepted (by decide)
      (Or.inl rfl)⟩

end KalpakDb.BatchFraming
