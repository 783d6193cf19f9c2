import KalpakDb.ReplicaAcks
import KalpakDb.TieredReads

namespace KalpakDb.BlockDownload

/-!
# Streamed downloads

A block is sent as a stream of chunks through a channel with room for four of
them.  The server cuts the block and waits while the channel is full; the
client puts the chunks together until one is marked as the last.  Both run at
their own pace, and either may go away.  A client that finishes has the whole
block.
-/

open Contract
open Replicas (parseId idText)

/-! ## The server and the client -/

/-- The chunk size of the server. -/
def chunkBytes : Nat := 1024 * 1024

def channelRoom : Nat := 4

structure Chunk where
  data : Bytes
  lastChunk : Bool
  deriving DecidableEq

/-- What the client has, or how it ended. -/
inductive Client where
  | receiving (out : Bytes)
  | done (out : Bytes)
  | failed
  | gone
  deriving DecidableEq

/-- A download; the sender is where it cuts next, until it has returned. -/
structure Download where
  payload : Bytes
  sender : Option Nat := some 0
  queue : List Chunk := []
  client : Client := .receiving []
  deriving DecidableEq

inductive Event where
  | send
  | receive
  | broken
  | leave
  deriving DecidableEq

def Client.listens : Client → Bool
  | .receiving _ => true
  | _ => false

/-- One turn of the sending loop. -/
def Download.send (download : Download) : Download :=
  match download.sender with
  | none => download
  | some start =>
      let total := download.payload.length
      let stop := min (start + chunkBytes) total
      if !download.client.listens then
        { download with sender := none }
      else if download.queue.length < channelRoom then
        { download with
          sender := if stop = total then none else some stop
          queue := download.queue ++
            [{ data := (download.payload.take stop).drop start
               lastChunk := stop = total }] }
      else
        download

/-- One turn of the receiving loop; without a sender the stream has ended. -/
def Download.receive (download : Download) : Download :=
  match download.client with
  | .receiving out =>
      match download.queue with
      | chunk :: rest =>
          let extended := out ++ chunk.data
          { download with
            queue := rest
            client :=
              if chunk.lastChunk then .done extended
              else .receiving extended }
      | [] =>
          if download.sender.isNone then
            { download with client := .done out }
          else
            download
  | _ => download

/-- The client stops listening. -/
def Download.stop (download : Download) (client : Client) : Download :=
  if download.client.listens then { download with client := client }
  else download

def Download.step (download : Download) : Event → Download
  | .send => download.send
  | .receive => download.receive
  | .broken => download.stop .failed
  | .leave => download.stop .gone

inductive Status where
  | malformedId
  | notFound (failure : Failure)
  | internal (failure : Failure)
  deriving DecidableEq

/-- The handler: what it answers, and the store it leaves. -/
def getBlock
    (blake3 : Bytes → BlockId)
    (node : TieredNode)
    (text : List Char) : Except Status Download × TieredNode :=
  match parseId text with
  | none => (.error .malformedId, node)
  | some id =>
      let read := execute (TieredStore.getBlock blake3 id) node
      match read.1 with
      | .ok payload => (.ok { payload := payload }, read.2)
      | .error (.blockNotFound missing) =>
          (.error (.notFound (.blockNotFound missing)), read.2)
      | .error failure => (.error (.internal failure), read.2)

/-! ## What is where -/

/-- What is still to be cut. -/
def unsent (payload : Bytes) (sender : Option Nat) : Bytes :=
  sender.elim [] payload.drop

/--
While the client listens: what it has, what is in the channel and what is
still to be cut are the block; the last chunk is marked once it is cut, and no
other is.
-/
structure Flowing
    (payload out : Bytes)
    (queue : List Chunk)
    (sender : Option Nat) : Prop where
  bytes :
    out ++ (queue.flatMap Chunk.data ++ unsent payload sender) = payload
  inside : ∀ start, sender = some start → start ≤ payload.length
  marks :
    ∃ count,
      queue.map Chunk.lastChunk =
        List.replicate count false ++ sender.elim [true] fun _ => []

/-- A download of a block. -/
structure Sound (payload : Bytes) (download : Download) : Prop where
  sends : download.payload = payload
  room : download.queue.length ≤ channelRoom
  listening :
    ∀ out, download.client = .receiving out →
      Flowing payload out download.queue download.sender
  finished : ∀ out, download.client = .done out → out = payload

theorem Sound.start (payload : Bytes) :
    Sound payload { payload := payload } where
  sends := rfl
  room := Nat.zero_le _
  listening := by
    rintro out ⟨⟩
    refine ⟨rfl, ?_, 0, rfl⟩
    rintro start ⟨⟩
    exact Nat.zero_le _
  finished := by
    rintro out ⟨⟩

/-- Cutting a chunk moves it from what is to be cut into the channel. -/
theorem Flowing.cutOne
    {payload out : Bytes}
    {queue : List Chunk}
    {start stop : Nat}
    (flowing : Flowing payload out queue (some start))
    (before : start ≤ stop)
    (within : stop ≤ payload.length) :
    Flowing payload out
      (queue ++
        [{ data := (payload.take stop).drop start
           lastChunk := stop = payload.length }])
      (if stop = payload.length then none else some stop) := by
  have inside := flowing.inside start rfl
  obtain ⟨count, marks⟩ := flowing.marks
  rw [Option.elim_some, List.append_nil] at marks
  have split : (payload.take stop).drop start ++ payload.drop stop =
      payload.drop start := by
    rw [← List.drop_append_of_le_length, List.take_append_drop]
    rw [List.length_take]
    exact le_min before inside
  have moved : out ++ (queue.flatMap Chunk.data ++
      ((payload.take stop).drop start ++ payload.drop stop)) = payload := by
    rw [split]
    exact flowing.bytes
  by_cases whole : stop = payload.length
  · rw [if_pos whole]
    refine ⟨?_, ?_, ?_⟩
    · rw [List.flatMap_append, List.append_assoc]
      rw [whole, List.drop_length, List.append_nil] at moved
      simpa [unsent, whole] using moved
    · rintro other ⟨⟩
    · exact ⟨count, by simp [marks, whole]⟩
  · rw [if_neg whole]
    refine ⟨?_, ?_, ?_⟩
    · rw [List.flatMap_append, List.append_assoc]
      simpa [unsent] using moved
    · rintro other ⟨⟩
      exact within
    · exact ⟨count + 1, by simp [marks, whole, List.replicate_succ']⟩

/-- The marked chunk is the last one, and completes the block. -/
theorem Flowing.takeLast
    {payload out : Bytes}
    {chunk : Chunk}
    {rest : List Chunk}
    {sender : Option Nat}
    (flowing : Flowing payload out (chunk :: rest) sender)
    (marked : chunk.lastChunk = true) :
    out ++ chunk.data = payload := by
  obtain ⟨count, marks⟩ := flowing.marks
  rw [List.map_cons, marked] at marks
  cases count with
  | zero =>
      cases sender with
      | none =>
          obtain rfl : rest = [] := by simpa using marks
          simpa [unsent] using flowing.bytes
      | some start =>
          cases marks
  | succ count =>
      cases marks

/-- An unmarked chunk moves from the channel to the client. -/
theorem Flowing.takeOne
    {payload out : Bytes}
    {chunk : Chunk}
    {rest : List Chunk}
    {sender : Option Nat}
    (flowing : Flowing payload out (chunk :: rest) sender)
    (unmarked : chunk.lastChunk = false) :
    Flowing payload (out ++ chunk.data) rest sender where
  bytes := by
    have bytes := flowing.bytes
    rw [List.flatMap_cons, List.append_assoc] at bytes
    rw [List.append_assoc]
    exact bytes
  inside := flowing.inside
  marks := by
    obtain ⟨count, marks⟩ := flowing.marks
    rw [List.map_cons, unmarked] at marks
    cases count with
    | zero =>
        cases sender <;> cases marks
    | succ count =>
        exact ⟨count, (List.cons.inj marks).2⟩

section Steps

variable {payload : Bytes} {download : Download}

theorem Sound.send
    (sound : Sound payload download) :
    Sound payload download.send := by
  obtain rfl := sound.sends
  unfold Download.send
  split
  · exact sound
  · next start isStart =>
      dsimp only
      split
      · next silent =>
          refine ⟨sound.sends, sound.room, ?_, sound.finished⟩
          intro out receiving
          dsimp only at receiving
          rw [receiving] at silent
          cases silent
      · split
        · next space =>
            refine ⟨sound.sends, ?_, ?_, sound.finished⟩
            · rw [List.length_append]
              exact space
            · intro out receiving
              have flowing := sound.listening out receiving
              rw [isStart] at flowing
              exact flowing.cutOne
                (le_min (Nat.le_add_right _ _) (flowing.inside start rfl))
                (min_le_right _ _)
        · exact sound

theorem Sound.receive
    (sound : Sound payload download) :
    Sound payload download.receive := by
  unfold Download.receive
  split
  · next out receiving =>
      have flowing := sound.listening out receiving
      have room := sound.room
      split
      · next chunk rest isQueue =>
          rw [isQueue] at flowing room
          cases marked : chunk.lastChunk with
          | true =>
              refine ⟨sound.sends, Nat.le_of_succ_le room, ?_, ?_⟩
              · intro other impossible
                simp at impossible
              · intro other isOut
                simp only [↓reduceIte, Client.done.injEq] at isOut
                rw [← isOut]
                exact flowing.takeLast marked
          | false =>
              refine ⟨sound.sends, Nat.le_of_succ_le room, ?_, ?_⟩
              · intro other isOut
                simp only [Bool.false_eq_true, ↓reduceIte,
                  Client.receiving.injEq] at isOut
                rw [← isOut]
                exact flowing.takeOne marked
              · intro other impossible
                simp at impossible
      · next isQueue =>
          -- The sender returns only behind a marked chunk.
          split
          · next returned =>
              obtain ⟨count, marks⟩ := flowing.marks
              rw [isQueue, Option.isNone_iff_eq_none.mp returned] at marks
              simp at marks
          · exact sound
  · exact sound

theorem Sound.stop
    (sound : Sound payload download)
    {client : Client}
    (unfinished : ∀ out, client ≠ .receiving out ∧ client ≠ .done out) :
    Sound payload (download.stop client) := by
  unfold Download.stop
  split
  · exact ⟨sound.sends, sound.room,
      fun out receiving => absurd receiving (unfinished out).1,
      fun out done => absurd done (unfinished out).2⟩
  · exact sound

theorem Sound.step
    (sound : Sound payload download)
    (event : Event) :
    Sound payload (download.step event) := by
  cases event with
  | send =>
      exact sound.send
  | receive =>
      exact sound.receive
  | broken =>
      exact sound.stop (by simp)
  | leave =>
      exact sound.stop (by simp)

end Steps

/-! ## Both sides together finish -/

/-- The chunks that are still to be cut. -/
def chunksLeft (total : Nat) (sender : Option Nat) : Nat :=
  sender.elim 0 fun start => (total - start - 1) / chunkBytes + 1

/-- What is left to do: each chunk is sent and received. -/
def remaining (download : Download) : Nat :=
  if download.client.listens then
    download.queue.length +
      2 * chunksLeft download.payload.length download.sender
  else
    0

/-- Both sides take turns. -/
def turns : Nat → List Event
  | 0 => []
  | count + 1 => .send :: .receive :: turns count

/-- Cutting a chunk leaves one less. -/
theorem chunksLeft_cut
    {total start : Nat}
    (inside : start ≤ total) :
    chunksLeft total
        (if min (start + chunkBytes) total = total then none
          else some (min (start + chunkBytes) total)) + 1 ≤
      chunksLeft total (some start) := by
  split
  · exact Nat.le_add_left 1 _
  · next more =>
      have short : start + chunkBytes < total := by
        by_contra long
        exact more (min_eq_right (not_lt.mp long))
      have size : chunkBytes ≤ total - start - 1 := by omega
      have one := Nat.div_eq_sub_div (a := total - start - 1)
        (by decide : 0 < chunkBytes) size
      rw [min_eq_left short.le]
      simp only [chunksLeft, Option.elim_some]
      rw [one, show total - (start + chunkBytes) - 1 =
        total - start - 1 - chunkBytes by omega]

section Progress

variable {payload : Bytes} {download : Download} {out : Bytes}

/-- The server's turn does not touch the client. -/
theorem send_client (download : Download) :
    download.send.client = download.client := by
  unfold Download.send
  split
  · rfl
  · dsimp only
    split
    · rfl
    · split <;> rfl

theorem receive_cons
    {chunk : Chunk}
    {rest : List Chunk}
    (receiving : download.client = .receiving out)
    (isQueue : download.queue = chunk :: rest) :
    download.receive =
      { download with
        queue := rest
        client :=
          if chunk.lastChunk then .done (out ++ chunk.data)
          else .receiving (out ++ chunk.data) } := by
  simp only [Download.receive, receiving, isQueue]

/-- While the client listens, the server's turn leaves it a chunk. -/
theorem send_of_receiving
    (sound : Sound payload download)
    (receiving : download.client = .receiving out) :
    download.send.queue ≠ [] ∧
      remaining download.send ≤ remaining download := by
  have flowing := sound.listening out receiving
  have listens : download.client.listens = true := by
    rw [receiving]
    rfl
  unfold Download.send
  split
  · next returned =>
      obtain ⟨count, marks⟩ := flowing.marks
      refine ⟨?_, le_rfl⟩
      intro empty
      rw [empty, returned] at marks
      simp at marks
  · next start isStart =>
      dsimp only
      rw [listens, Bool.not_true, if_neg Bool.false_ne_true]
      split
      · refine ⟨by simp, ?_⟩
        have less := chunksLeft_cut (flowing.inside start isStart)
        rw [← sound.sends] at less
        simp only [remaining, listens, ↓reduceIte, List.length_append,
          List.length_singleton, isStart]
        omega
      · next full =>
          refine ⟨?_, le_rfl⟩
          intro empty
          rw [empty] at full
          exact full (by decide)

/-- The client's turn on a chunk leaves less to do. -/
theorem receive_of_receiving
    (receiving : download.client = .receiving out)
    (some : download.queue ≠ []) :
    remaining download.receive < remaining download ∧
      ((∃ more, download.receive.client = .receiving more) ∨
        ∃ whole, download.receive.client = .done whole) := by
  obtain ⟨chunk, rest, isQueue⟩ := List.exists_cons_of_ne_nil some
  have before : remaining download =
      rest.length + 1 +
        2 * chunksLeft download.payload.length download.sender := by
    simp only [remaining, receiving, isQueue, Client.listens, ↓reduceIte,
      List.length_cons]
  rw [receive_cons receiving isQueue]
  cases marked : chunk.lastChunk with
  | true =>
      refine ⟨?_, .inr ⟨out ++ chunk.data, rfl⟩⟩
      simp only [remaining, ↓reduceIte, Client.listens, Bool.false_eq_true]
        at before ⊢
      omega
  | false =>
      refine ⟨?_, .inl ⟨out ++ chunk.data, rfl⟩⟩
      simp only [remaining, ↓reduceIte, Client.listens, Bool.false_eq_true]
        at before ⊢
      omega

/-- A client that is done stays so. -/
theorem turns_of_done
    {whole : Bytes}
    (count : Nat)
    (done : download.client = .done whole) :
    (StepRun.after Download.step download (turns count)).client =
      .done whole := by
  induction count generalizing download with
  | zero =>
      exact done
  | succ count inductionHypothesis =>
      refine inductionHypothesis ?_
      have sent : download.send.client = .done whole :=
        (send_client download).trans done
      show download.send.receive.client = .done whole
      unfold Download.receive
      rw [sent]
      exact sent

/-- Enough turns finish a download that the client waits for. -/
theorem turns_finish
    {count : Nat}
    (sound : Sound payload download)
    (receiving : download.client = .receiving out)
    (enough : remaining download ≤ count) :
    (StepRun.after Download.step download (turns count)).client =
      .done payload := by
  induction count generalizing download out with
  | zero =>
      obtain ⟨some, le⟩ := send_of_receiving sound receiving
      have less := (receive_of_receiving
        ((send_client download).trans receiving) some).1
      omega
  | succ count inductionHypothesis =>
      obtain ⟨some, le⟩ := send_of_receiving sound receiving
      obtain ⟨less, next⟩ := receive_of_receiving
        ((send_client download).trans receiving) some
      have after := sound.send.receive
      show (StepRun.after Download.step download.send.receive
        (turns count)).client = .done payload
      rcases next with ⟨more, isMore⟩ | ⟨whole, isWhole⟩
      · exact inductionHypothesis after isMore (by omega)
      · rw [turns_of_done count isWhole, after.finished whole isWhole]

end Progress

/-! ## Identifiers as text -/

/-- A hexadecimal digit is its own ASCII byte. -/
theorem utf8EncodeChar_hexDigit
    {nibble : UInt8}
    (small : nibble.toNat < 16) :
    String.utf8EncodeChar (hexDigit nibble) =
      [UInt8.ofNat (hexDigit nibble).toNat] := by
  have every : ∀ value : Fin 16,
      String.utf8EncodeChar (hexDigit (UInt8.ofNat value.val)) =
        [UInt8.ofNat (hexDigit (UInt8.ofNat value.val)).toNat] := by
    decide +kernel
  simpa using every ⟨nibble.toNat, small⟩

theorem encode_hexEncode (bytes : Bytes) :
    Utf8.encode (hexEncode bytes) = BincodeLayout.hexText bytes := by
  unfold BincodeLayout.hexText hexEncode
  rw [Utf8.encode, List.flatMap_assoc, List.map_flatMap]
  congr 1
  funext byte
  have high : (byte / 16).toNat < 16 := by
    have := byte.toNat_lt
    simp only [UInt8.toNat_div, UInt8.reduceToNat]
    omega
  have low : (byte % 16).toNat < 16 := by
    simp only [UInt8.toNat_mod, UInt8.reduceToNat]
    omega
  simp [utf8EncodeChar_hexDigit high, utf8EncodeChar_hexDigit low]

/-- The printed identifier of a block is read back. -/
theorem parseId_idText (id : BlockId) : parseId (idText id) = some id := by
  rw [parseId, idText, encode_hexEncode, BincodeLayout.hexDecode?_hexText]
  exact BlockId.ofBytes?_bytes id

/-- What the handler starts is a download of the block asked for. -/
theorem getBlock_ok
    {blake3 : Bytes → BlockId}
    {node : TieredNode}
    (verified : node.tiers.Verified blake3)
    {text : List Char}
    {download : Download}
    (started : (getBlock blake3 node text).1 = .ok download) :
    ∃ id,
      parseId text = some id ∧ blake3 download.payload = id ∧
        download = { payload := download.payload } := by
  unfold getBlock at started
  split at started
  · cases started
  · next id isId =>
      refine ⟨id, isId, ?_⟩
      have ends := @TieredStore.ends_getBlock blake3 node id
      dsimp only at started
      split at started
      · next payload isPayload =>
          cases started
          refine ⟨?_, rfl⟩
          have read : execute (TieredStore.getBlock blake3 id) node =
              (.ok payload,
                (execute (TieredStore.getBlock blake3 id) node).2) :=
            Prod.ext isPayload rfl
          rw [ends_of_ok read] at ends
          rcases ends.1 with resident | ⟨digest, -⟩
          · exact verified id payload resident
          · exact digest
      · cases started
      · cases started

/--
Over any directory whose files are changed at will, and at whatever pace the
server and the client run, a download that is started for an identifier is
one of bytes of that digest.  The channel never holds more than four chunks,
what the client has is a front part of the block, and when it finishes it has
the whole block; while it waits, enough turns of both finish it.  The printed
identifier of a block that the store can read starts a download of it.
-/
theorem downloads_return_blocks
    (blake3 : Bytes → BlockId)
    (cold : Node)
    (warmBudget : Nat)
    (changes : List TierEvent)
    (position : Nat)
    (fault : Option Fault) :
    let node :=
      (StepRun.before (stepTier blake3) ⟨.new warmBudget, cold⟩ changes
        position).withFault fault
    (∀ text download (events : List Event),
      (getBlock blake3 node text).1 = .ok download →
      let reached := StepRun.after Download.step download events
      (∃ id, parseId text = some id ∧ blake3 download.payload = id) ∧
      reached.queue.length ≤ 4 ∧
      (∀ out, reached.client = .done out → out = download.payload) ∧
      ∀ out, reached.client = .receiving out →
        out <+: download.payload ∧
        ∀ count ≥ remaining reached,
          (StepRun.after Download.step reached (turns count)).client =
            .done download.payload) ∧
    ∀ id payload,
      (execute (TieredStore.getBlock blake3 id) node).1 = .ok payload →
      (getBlock blake3 node (idText id)).1 = .ok { payload := payload } := by
  intro node
  have verified : node.tiers.Verified blake3 :=
    stepTier_verified_before cold warmBudget changes position
  constructor
  · intro text download events started reached
    obtain ⟨id, isId, digest, fresh⟩ := getBlock_ok verified started
    have sound : Sound download.payload reached := by
      refine StepRun.invariant_after
        (fun _ event sound => sound.step event) events ?_
      rw [fresh]
      exact .start _
    refine ⟨⟨id, isId, digest⟩, sound.room, sound.finished, ?_⟩
    intro out receiving
    exact ⟨⟨_, (sound.listening out receiving).bytes⟩,
      fun count enough => turns_finish sound receiving enough⟩
  · intro id payload read
    unfold getBlock
    rw [parseId_idText]
    dsimp only
    rw [read]

end KalpakDb.BlockDownload
