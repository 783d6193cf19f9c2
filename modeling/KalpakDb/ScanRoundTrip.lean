import KalpakDb.DirectReads

namespace KalpakDb

/-!
# Scanning undoes encoding

A segment is a sequence of records, and a crash may leave part of one more.
Wherever the last record is torn, a scan of the file reports the payloads of
the complete ones, with their places, and ends behind them.  It does not look
into payloads, so it is not misled by what is written there.
-/

section Places

variable {blake3 : Bytes → BlockId}

/-- A payload is located where its record starts. -/
theorem getElem?_locateFrom
    (segment offset : Nat)
    (payloads : List Payload)
    (index : Nat) :
    (locateFrom blake3 segment offset payloads)[index]? =
      payloads[index]?.map fun payload =>
        (blake3 payload.bytes, {
          segment := segment
          offset :=
            offset + (encodeAll blake3 (payloads.take index)).length
          payloadLen := payload.bytes.length }) := by
  induction payloads generalizing offset index with
  | nil =>
      rfl
  | cons payload rest inductionHypothesis =>
      cases index with
      | zero =>
          rfl
      | succ index =>
          rw [locateFrom, List.getElem?_cons_succ, inductionHypothesis,
            List.getElem?_cons_succ, List.take_succ_cons, encodeAll_cons,
            List.length_append, length_encodeRecord _ payload.length_lt,
            Nat.add_assoc]

theorem length_locateFrom
    (segment offset : Nat)
    (payloads : List Payload) :
    (locateFrom blake3 segment offset payloads).length =
      payloads.length := by
  have ids := congrArg List.length
    (map_fst_locateFrom blake3 segment offset payloads)
  rw [List.length_map, List.length_map] at ids
  exact ids

end Places

/-- The portable backend reports what the scan of the bytes finds. -/
theorem scan_std_of_scan
    {segment : Nat}
    {bytes : Bytes}
    {found : List (BlockId × Location) × Nat}
    (scanned : scan segment bytes = some found) :
    Backend.std.scan segment bytes = .ok found := by
  rw [scan] at scanned
  rw [Backend.scan, scanFrom_std, scanned]

/--
The scan of some complete records and a strict part of another one reports
the complete ones, each with its digest, its length and the offset at which
it starts, and ends behind the last of them.
-/
theorem scan_undoes_encoding
    (blake3 : Bytes → BlockId)
    (segment : Nat)
    (payloads : List Payload)
    (id : BlockId)
    (next : Payload)
    (torn : Bytes)
    (begun : torn <+: encodeRecord id next.bytes)
    (unfinished : torn ≠ encodeRecord id next.bytes)
    (file : SegmentFile)
    (contents : file.bytes = encodeAll blake3 payloads ++ torn) :
    ∃ located,
      Backend.std.scan segment file.bytes =
          .ok (located, (encodeAll blake3 payloads).length) ∧
        located.length = payloads.length ∧
        ∀ (index : Nat) (payload : Payload),
          payloads[index]? = some payload →
            located[index]? =
              some (blake3 payload.bytes, {
                segment := segment
                offset := (encodeAll blake3 (payloads.take index)).length
                payloadLen := payload.bytes.length }) := by
  have isTaken : (encodeRecord id next.bytes).take torn.length = torn := by
    obtain ⟨missing, whole⟩ := begun
    rw [← whole, List.take_left]
  have short : torn.length < recordLen next.bytes.length := by
    rw [← length_encodeRecord id next.length_lt]
    refine Nat.lt_of_le_of_ne begun.length_le fun whole => unfinished ?_
    exact begun.eq_of_length whole
  have stops :
      scanStep file.bytes (encodeAll blake3 payloads).length = none := by
    refine scanStep_torn id short ?_ file.length_lt
    rw [isTaken]
    exact contents
  refine ⟨locateFrom blake3 segment 0 payloads, ?_, ?_, ?_⟩
  · exact scan_std_of_scan
      (scan_encodeAll blake3 segment contents file.length_lt stops)
  · exact length_locateFrom segment 0 payloads
  · intro index payload present
    rw [getElem?_locateFrom, present, Option.map_some, Nat.zero_add]

/-! ## A payload that looks like a header -/

/-- The header of the record of the single byte one. -/
def headerPayload : Payload where
  bytes := encodeHeader oneDigest 1
  length_lt := by
    rw [length_encodeHeader]
    decide

/-- BLAKE3 on the single byte one and on the header of its record. -/
def headerBlake3 (bytes : Bytes) : BlockId :=
  if bytes = headerPayload.bytes then
    ⟨[3, 76, 139, 234, 197, 255, 204, 131, 54, 127, 245, 192, 246, 135, 159,
      199, 105, 203, 69, 157, 11, 14, 164, 31, 104, 33, 32, 203, 83, 67,
      118, 124], by decide⟩
  else
    oneBlake3 bytes

/-- Two complete records, and a hundred bytes of a third one. -/
def headerSegment : SegmentFile where
  bytes :=
    encodeAll headerBlake3 [oneByte, headerPayload] ++
      oneRecord.take 100
  length_lt := by decide +kernel

theorem scan_undoes_encoding_header :
    ∃ located,
      Backend.std.scan 7 headerSegment.bytes = .ok (located, 8192) ∧
        located.length = 2 ∧
        located[0]? =
          some (oneDigest, {
            segment := 7
            offset := 0
            payloadLen := 1 }) ∧
        located[1]? =
          some (headerBlake3 headerPayload.bytes, {
            segment := 7
            offset := 4096
            payloadLen := 64 }) := by
  have torn : oneRecord.take 100 ≠ oneRecord := by
    decide +kernel
  have lengths :
      (encodeAll headerBlake3 [oneByte, headerPayload]).length = 8192 ∧
        (encodeAll headerBlake3 [oneByte]).length = 4096 ∧
        headerBlake3 oneByte.bytes = oneDigest ∧
        headerPayload.bytes.length = 64 := by
    decide +kernel
  obtain ⟨both, first, digest, header⟩ := lengths
  obtain ⟨located, scanned, count, places⟩ := scan_undoes_encoding
    headerBlake3 7 [oneByte, headerPayload] oneDigest oneByte
    (oneRecord.take 100)
    ⟨oneRecord.drop 100, List.take_append_drop 100 oneRecord⟩ torn
    headerSegment rfl
  refine ⟨located, ?_, count, ?_, ?_⟩
  · rw [both] at scanned
    exact scanned
  · have place := places 0 _ rfl
    rw [digest] at place
    exact place
  · have place := places 1 headerPayload rfl
    rw [List.take_succ_cons, List.take_zero, first, header] at place
    exact place

end KalpakDb
